import SchemaSplit.Width
import SchemaSplit.Artifact
import SchemaSplit.Text.Digits

namespace SchemaSplit.CommandLine

inductive Flag where
  | separator
  | timeout
  | config
  | out
  | format
  | typeStyle
  | nullValue
  | dateTime
  | constructorInterface
  | cloneMethod
  | failFast
  deriving DecidableEq, Repr, Inhabited

namespace Flag

def common : List Flag := [separator, timeout, config]

def generating : List Flag :=
  common ++ [out, format, typeStyle, nullValue, dateTime, constructorInterface, cloneMethod,
    failFast]

def name : Flag → String
  | separator => "separator"
  | timeout => "timeout"
  | config => "config"
  | out => "out"
  | format => "format"
  | typeStyle => "type-style"
  | nullValue => "null-value"
  | dateTime => "date-time"
  | constructorInterface => "constructor-interface"
  | cloneMethod => "clone-method"
  | failFast => "fail-fast"

def letter? : Flag → Option Char
  | out => some 'o'
  | _ => none

def isSwitch : Flag → Bool
  | constructorInterface | cloneMethod | failFast => true
  | _ => false

end Flag

inductive Word where
  | help
  | flag (f : Flag) (value? : Option String)
  /-- Behind this word there are no flags. -/
  | endOfFlags
  | plain (text : String)
  | unknown
  deriving DecidableEq, Repr, Inhabited

namespace Word

def ofName (flags : List Flag) (cs : List Char) : Word :=
  let name := String.ofList (cs.takeWhile (· ≠ '='))
  let value? :=
    match cs.dropWhile (· ≠ '=') with
    | _ :: value => some (String.ofList value)
    | [] => none
  if name = "help" ∧ value? = none then help
  else
    match flags.find? (·.name == name) with
    | some f => flag f value?
    | none => unknown

def ofLetter (flags : List Flag) (c : Char) (cs : List Char) : Word :=
  if c = 'h' then help
  else
    match flags.find? (·.letter? == some c), cs with
    | some f, [] => flag f none
    | some f, '=' :: value => flag f (some (String.ofList value))
    | some f, value => flag f (some (String.ofList value))
    | none, _ => unknown

def ofText (flags : List Flag) (s : String) : Word :=
  match s.toList with
  | ['-', '-'] => endOfFlags
  | '-' :: '-' :: cs => ofName flags cs
  | '-' :: c :: cs => ofLetter flags c cs
  | _ => plain s

end Word

inductive Ending where
  | help
  | version
  | misuse
  deriving DecidableEq, Repr, Inhabited

structure Draft where
  source : Option String := none
  separator : Option Char := none
  timeout : Option Nat := none
  config : Option String := none
  out : Option String := none
  format : Option ArtifactFormat := none
  typeStyle : Option TypeScript.TypeStyle := none
  nullValue : Option TypeScript.NullValue := none
  dateTime : Option TypeScript.DateTimeType := none
  constructorInterface : Bool := false
  cloneMethod : Bool := false
  failFast : Bool := false
  deriving DecidableEq, Repr, Inhabited

def timeout? (s : String) : Option Nat :=
  let digits :=
    match s.toList with
    | '+' :: cs => cs
    | cs => cs
  (Text.natural? 10 digits).filter (fitsUnsigned 64)

def path? (s : String) : Option String := if s.isEmpty then none else some s

def keyword? {α : Type} [Keyword α] (s : String) : Option α := (Keyword.parse s).toOption

namespace Draft

def once? {α : Type} (field value : Option α) : Option (Option α) :=
  match field, value with
  | none, some v => some (some v)
  | _, _ => none

def withSource? (d : Draft) (s : String) : Option Draft :=
  (once? d.source (some s)).map fun v => { d with source := v }

def withValue? (d : Draft) (s : String) : Flag → Option Draft
  | .separator => (once? d.separator (separator? s)).map fun v => { d with separator := v }
  | .timeout => (once? d.timeout (timeout? s)).map fun v => { d with timeout := v }
  | .config => (once? d.config (path? s)).map fun v => { d with config := v }
  | .out => (once? d.out (path? s)).map fun v => { d with out := v }
  | .format => (once? d.format (Keyword.ofWord? s)).map fun v => { d with format := v }
  | .typeStyle => (once? d.typeStyle (keyword? s)).map fun v => { d with typeStyle := v }
  | .nullValue => (once? d.nullValue (keyword? s)).map fun v => { d with nullValue := v }
  | .dateTime => (once? d.dateTime (keyword? s)).map fun v => { d with dateTime := v }
  | .constructorInterface | .cloneMethod | .failFast => none

def withSwitch? (d : Draft) : Flag → Option Draft
  | .constructorInterface =>
    if d.constructorInterface then none else some { d with constructorInterface := true }
  | .cloneMethod => if d.cloneMethod then none else some { d with cloneMethod := true }
  | .failFast => if d.failFast then none else some { d with failFast := true }
  | _ => none

def orMisuse (d : Option Draft) (next : Draft → Except Ending Draft) : Except Ending Draft :=
  match d with
  | some d => next d
  | none => .error .misuse

def read (flags : List Flag) (d : Draft) : List String → Except Ending Draft
  | [] => .ok d
  | word :: rest =>
    match Word.ofText flags word with
    | .help => .error .help
    | .unknown => .error .misuse
    | .endOfFlags => orMisuse (rest.foldlM withSource? d) .ok
    | .plain s => orMisuse (d.withSource? s) (read flags · rest)
    | .flag f (some s) => orMisuse (d.withValue? s f) (read flags · rest)
    | .flag f none =>
      if f.isSwitch then orMisuse (d.withSwitch? f) (read flags · rest)
      else
        match rest with
        | [] => .error .misuse
        | s :: rest =>
          match Word.ofText flags s with
          | .plain s => orMisuse (d.withValue? s f) (read flags · rest)
          | _ => .error .misuse

end Draft

structure SourceArguments where
  source : String
  separator : Option Char := none
  timeout : Option Nat := none
  config : Option String := none
  deriving DecidableEq, Repr, Inhabited

structure GenerateArguments extends SourceArguments where
  out : String
  format : Option ArtifactFormat := none
  typeStyle : Option TypeScript.TypeStyle := none
  nullValue : Option TypeScript.NullValue := none
  dateTime : Option TypeScript.DateTimeType := none
  constructorInterface : Bool := false
  cloneMethod : Bool := false
  failFast : Bool := false
  deriving DecidableEq, Repr, Inhabited

namespace Draft

def sourceArguments? (d : Draft) : Option SourceArguments := do
  return {
    source := ← d.source
    separator := d.separator
    timeout := d.timeout
    config := d.config
  }

def generateArguments? (d : Draft) : Option GenerateArguments := do
  return {
    toSourceArguments := ← d.sourceArguments?
    out := ← d.out
    format := d.format
    typeStyle := d.typeStyle
    nullValue := d.nullValue
    dateTime := d.dateTime
    constructorInterface := d.constructorInterface
    cloneMethod := d.cloneMethod
    failFast := d.failFast
  }

end Draft

inductive Command where
  | groups (arguments : SourceArguments)
  | generate (arguments : GenerateArguments)
  deriving DecidableEq, Repr, Inhabited

namespace Command

def names : List String := ["generate", "groups", "help"]

def ofDraft {α : Type} (finish : Draft → Option α) (command : α → Command) :
    Except Ending Draft → Except Ending Command
  | .error e => .error e
  | .ok d =>
    match finish d with
    | some a => .ok (command a)
    | none => .error .misuse

/-- The command of a whole command line. Help is also what an empty one asks for. -/
def ofWords : List String → Except Ending Command
  | [] | ["--"] | ["help"] => .error .help
  | ["help", name] => if names.contains name then .error .help else .error .misuse
  | "generate" :: words =>
    ofDraft Draft.generateArguments? generate (Draft.read Flag.generating {} words)
  | "groups" :: words =>
    ofDraft Draft.sourceArguments? groups (Draft.read Flag.common {} words)
  | word :: _ =>
    match word.toList with
    | '-' :: 'V' :: _ => .error .version
    | _ =>
      if word = "--version" then .error .version
      else if Word.ofText [] word = .help then .error .help
      else .error .misuse

end Command
end SchemaSplit.CommandLine
