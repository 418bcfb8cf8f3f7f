import SchemaSplit.CommandLine
import SchemaSplit.Config
import SchemaSplit.Retrieval
import SchemaSplit.Run

namespace SchemaSplit

open CommandLine (Ending Command SourceArguments GenerateArguments)

structure Outcome where
  code : Nat := 0
  stdout : String := ""
  stderr : String := ""
  deriving DecidableEq, Repr, Inhabited

namespace Outcome

def failure (message : String) : Outcome := { code := 1, stderr := message ++ "\n" }

end Outcome

def padRight (width : Nat) (s : String) : String :=
  s ++ String.ofList (List.replicate (width - s.length) ' ')

def padLeft (width : Nat) (s : String) : String :=
  String.ofList (List.replicate (width - s.length) ' ') ++ s

namespace GroupPlan

def line (width : Nat) (p : GroupPlan) : String :=
  padRight width p.key ++ "  " ++ padLeft 4 (toString p.members) ++ " members  " ++
    padLeft 4 (toString p.definitions) ++ " definitions" ++
    (if p.fileName = p.key then "" else "  -> " ++ p.fileName) ++ "\n"

/-- The plans as a table. Its first column has as many characters as the longest key has bytes. -/
def table (plans : List GroupPlan) : String :=
  if plans.isEmpty then "No definitions found\n"
  else
    let width := (plans.map (·.key.utf8ByteSize)).foldl max 0
    String.join (plans.map (line width))

end GroupPlan

namespace CommandLine

def SourceArguments.separatorWith (a : SourceArguments) (c : Config) : Char :=
  (a.separator <|> c.separator).getD defaultSeparator

def SourceArguments.timeoutWith (a : SourceArguments) (c : Config) : Nat :=
  (a.timeout <|> c.timeout).getD defaultTimeout

def GenerateArguments.settingsWith (a : GenerateArguments) (c : Config) : TypeScript.Settings :=
  let defaults : TypeScript.Settings := {}
  let t := c.typeScript
  { typeStyle := (a.typeStyle <|> t.typeStyle).getD defaults.typeStyle
    nullValue := (a.nullValue <|> t.nullValue).getD defaults.nullValue
    dateTimeType := (a.dateTime <|> t.dateTimeType).getD defaults.dateTimeType
    constructorInterface := a.constructorInterface || t.constructorInterface.getD false
    cloneMethod := a.cloneMethod || t.cloneMethod.getD false
    clientSuffix := t.clientSuffix.getD defaults.clientSuffix }

def GenerateArguments.formatWith (a : GenerateArguments) (c : Config) : ArtifactFormat :=
  (a.format <|> c.format).getD .ts

def GenerateArguments.optionsWith (a : GenerateArguments) (c : Config) : RunOptions where
  outDir := a.out
  separator := a.separatorWith c
  failFast := a.failFast || c.failFast.getD false

end CommandLine

namespace Summary

/-- What is printed after a run. Without groups there is nothing to list; the files that were
    written are listed also if others failed. -/
def outcome (s : Summary) (format : ArtifactFormat) (source out : String) : Outcome :=
  let listing := String.join (s.written.map fun a =>
    "  " ++ a.path ++ " (" ++ toString a.definitions ++ " definitions)\n")
  if s.written.isEmpty ∧ s.failed.isEmpty then
    { stdout := "No definitions found in " ++ source ++ "\n" }
  else if s.isSuccess then
    { stdout := listing ++ "Generated " ++ toString s.written.length ++ " " ++
        Keyword.word format ++ " file(s) in " ++ out ++ "\n" }
  else
    let failures := s.failed.map fun e => "  " ++ e.message
    let counts := toString s.failed.length ++ " of " ++
      toString (s.failed.length + s.written.length) ++ " groups failed:\n"
    { Outcome.failure (counts ++ "\n".intercalate failures) with stdout := listing }

end Summary

namespace Program

def version : String := "nsplit 0.1.0\n"

def help : String :=
  "Split an API description into self-contained artifacts, one for each namespace\n\n" ++
  "Usage: nsplit <COMMAND>\n\n" ++
  "Commands:\n" ++
  "  generate  Generate one artifact for each group\n" ++
  "  groups    List the groups and the sizes of their closures\n" ++
  "  help      Print this help\n\n" ++
  "Options of every command:\n" ++
  "  <SOURCE>                 Address (http:// or https://) or path of the description\n" ++
  "  --separator <CHAR>       What separates the parts of a name [default: .]\n" ++
  "  --timeout <SECS>         How long fetching may take [default: 60]\n" ++
  "  --config <FILE>          A configuration file\n\n" ++
  "Options of generate:\n" ++
  "  -o, --out <DIR>          Where the artifacts are written\n" ++
  "  --format <FORMAT>        ts or json [default: ts]\n" ++
  "  --type-style <STYLE>     interface or class [default: interface]\n" ++
  "  --null-value <VALUE>     null or undefined [default: null]\n" ++
  "  --date-time <TYPE>       date or string [default: date]\n" ++
  "  --constructor-interface  For classes, interfaces that their constructors take\n" ++
  "  --clone-method           For classes, a method that copies an object\n" ++
  "  --fail-fast              Stop at the first group that fails\n"

def usage : String :=
  "error: these arguments are not understood\n\n" ++
  "Usage: nsplit <COMMAND>\n\nFor more information, try '--help'.\n"

section
variable {m : Type → Type} [Monad m]

def load (machine : Machine m) (a : SourceArguments) : m (Except String (Config × Document)) := do
  match ← Config.load machine a.config with
  | .error message => return .error message
  | .ok config =>
    match Locator.parse a.source with
    | .error e => return .error e.message
    | .ok locator =>
      match ← locator.load machine (a.timeoutWith config) with
      | .error e => return .error e.message
      | .ok document => return .ok (config, document)

def groups (machine : Machine m) (a : SourceArguments) : m Outcome := do
  match ← load machine a with
  | .error message => return .failure message
  | .ok (config, document) =>
    let separator := a.separatorWith config
    let groups := document.groups separator
    machine.log (.partitioned document.definitions.length groups.length)
    (groups.flatMap fun g => Event.ofClosure g (document.closure g)).forM machine.log
    return { stdout := GroupPlan.table (document.plan separator) }

def generate (machine : Machine m) (a : GenerateArguments) : m Outcome := do
  match ← load machine a.toSourceArguments with
  | .error message => return .failure message
  | .ok (config, document) =>
    machine.log .settingsResolved
    let format := a.formatWith config
    let generator := format.generator (a.settingsWith config)
    match ← document.split machine generator (a.optionsWith config) with
    | .error e => return .failure e.message
    | .ok summary => return summary.outcome format a.source a.out

def run (machine : Machine m) (words : List String) : m Outcome :=
  match Command.ofWords words with
  | .error .help => return { stdout := help }
  | .error .version => return { stdout := version }
  | .error .misuse => return { code := 2, stderr := usage }
  | .ok (.groups a) => groups machine a
  | .ok (.generate a) => generate machine a

end
end Program
end SchemaSplit
