import SchemaSplit.Width
import SchemaSplit.Text.Digits

namespace SchemaSplit.Toml

inductive Value where
  | string (s : String)
  | int (n : Int)
  | bool (b : Bool)
  | array (items : List Value)
  /-- The entries of an inline table, each under its path of keys. -/
  | table (entries : List (List String × Value))
  deriving Inhabited

inductive Line where
  | header (path : List String)
  | entry (path : List String) (value : Value)

def isBlank (c : Char) : Bool := c == ' ' || c == '\t'

def skipBlanks (cs : List Char) : List Char := cs.dropWhile isBlank

def isControl (c : Char) : Bool := (c.toNat < 0x20 && c != '\t') || c.toNat == 0x7f

def newline? : List Char → Option (List Char)
  | '\n' :: rest => some rest
  | '\r' :: '\n' :: rest => some rest
  | _ => none

def skipComment? (cs : List Char) : Option (List Char) :=
  match skipBlanks cs with
  | '#' :: rest =>
    let (comment, rest) := rest.span fun c => c ≠ '\n' ∧ c ≠ '\r'
    if comment.any isControl then none else some rest
  | rest => some rest

def endLine? (cs : List Char) : Option (List Char) := do
  match ← skipComment? cs with
  | [] => return []
  | rest => newline? rest

def unescape? : Char → Option Char
  | 'b' => some '\x08'
  | 't' => some '\t'
  | 'n' => some '\n'
  | 'f' => some '\x0c'
  | 'r' => some '\r'
  | '\x22' => some '\x22'
  | '\\' => some '\\'
  | _ => none

def codePoint? (digits : List Char) : Option Char := do
  let n ← Text.natural? 16 digits
  if n.isValidChar then some (Char.ofNat n) else none

def escape? : List Char → Option (Char × List Char)
  | 'u' :: a :: b :: c :: d :: rest => (·, rest) <$> codePoint? [a, b, c, d]
  | 'U' :: a :: b :: c :: d :: e :: f :: g :: h :: rest =>
    (·, rest) <$> codePoint? [a, b, c, d, e, f, g, h]
  | c :: rest => (·, rest) <$> unescape? c
  | [] => none

def basic? : (steps : Nat) → List Char → Option (List Char × List Char)
  | 0, _ => none
  | _, [] => none
  | steps + 1, c :: rest => do
    if c = '\x22' then return ([], rest)
    let (c, rest) ← if c = '\\' then escape? rest else if isControl c then none else some (c, rest)
    let (cs, rest) ← basic? steps rest
    return (c :: cs, rest)

def literal? (cs : List Char) : Option (List Char × List Char) :=
  match cs.span (· ≠ '\x27') with
  | (text, _ :: rest) => if text.any isControl then none else some (text, rest)
  | _ => none

def continued? (cs : List Char) : Option (List Char) := do
  let rest ← newline? (skipBlanks cs)
  return rest.dropWhile fun c => isBlank c || c == '\n' || c == '\r'

/-- Three quotes up to the next three, before which up to two more may stand. Only double ones know
    escapes. -/
def multiline? (quote : Char) : (steps : Nat) → List Char → Option (List Char × List Char)
  | 0, _ => none
  | steps + 1, cs =>
    let quotes := cs.takeWhile (· == quote)
    if 5 < quotes.length then none
    else if 3 ≤ quotes.length then some (quotes.drop 3, cs.drop quotes.length)
    else match cs with
    | [] => none
    | '\r' :: '\n' :: rest => do
      let (cs, rest) ← multiline? quote steps rest
      return ('\n' :: cs, rest)
    | c :: rest =>
      if c = '\\' ∧ quote = '\x22' then
        match continued? rest with
        | some rest => multiline? quote steps rest
        | none => do
          let (c, rest) ← escape? rest
          let (cs, rest) ← multiline? quote steps rest
          return (c :: cs, rest)
      else if isControl c ∧ c ≠ '\n' then none
      else do
        let (cs, rest) ← multiline? quote steps rest
        return (c :: cs, rest)

def string? (cs : List Char) : Option (List Char × List Char) :=
  let steps := cs.length + 1
  let start (cs : List Char) : List Char := (newline? cs).getD cs
  match cs with
  | '\x22' :: '\x22' :: '\x22' :: rest => multiline? '\x22' steps (start rest)
  | '\x27' :: '\x27' :: '\x27' :: rest => multiline? '\x27' steps (start rest)
  | '\x22' :: rest => basic? steps rest
  | '\x27' :: rest => literal? rest
  | _ => none

def isBareKeyChar (c : Char) : Bool := c.isAlphanum || c == '_' || c == '-'

def key? (cs : List Char) : Option (String × List Char) :=
  match cs with
  | '\x22' :: rest => (fun (k, rest) => (String.ofList k, rest)) <$> basic? (cs.length + 1) rest
  | '\x27' :: rest => (fun (k, rest) => (String.ofList k, rest)) <$> literal? rest
  | _ =>
    match cs.span isBareKeyChar with
    | ([], _) => none
    | (k, rest) => some (String.ofList k, rest)

def path? : (steps : Nat) → List Char → Option (List String × List Char)
  | 0, _ => none
  | steps + 1, cs => do
    let (k, rest) ← key? (skipBlanks cs)
    match skipBlanks rest with
    | '.' :: rest =>
      let (ks, rest) ← path? steps rest
      return (k :: ks, rest)
    | rest => return ([k], rest)

def grouped? (radix : Nat) (cs : List Char) : Option Nat :=
  let isBare : Bool := cs.head? != some '_' && cs.getLast? != some '_' &&
    (cs.zip cs.tail).all fun (a, b) => a != '_' || b != '_'
  if isBare then Text.natural? radix (cs.filter (· ≠ '_')) else none

/-- A whole number. Only decimal ones have a sign, and none has leading zeros. -/
def int? (cs : List Char) : Option Int := do
  let decimal? (ds : List Char) : Option Int := do
    guard (ds.length = 1 ∨ ds.head? ≠ some '0')
    return (← grouped? 10 ds : Nat)
  let n ← match cs with
    | '+' :: ds => decimal? ds
    | '-' :: ds => (- ·) <$> decimal? ds
    | '0' :: 'x' :: ds => (↑·) <$> grouped? 16 ds
    | '0' :: 'o' :: ds => (↑·) <$> grouped? 8 ds
    | '0' :: 'b' :: ds => (↑·) <$> grouped? 2 ds
    | ds => decimal? ds
  if fitsSigned 64 n then some n else none

def word? (cs : List Char) : Option (Value × List Char) :=
  let (word, rest) := cs.span fun c => c.isAlphanum || ['+', '-', '_', '.', ':'].contains c
  let value := match String.ofList word with
    | "true" => some (.bool true)
    | "false" => some (.bool false)
    | _ => .int <$> int? word
  (·, rest) <$> value

def skipLines? : (steps : Nat) → List Char → Option (List Char)
  | 0, _ => none
  | steps + 1, cs => do
    let rest ← skipComment? cs
    match newline? rest with
    | some rest => skipLines? steps rest
    | none => return rest

mutual

def value? : (steps : Nat) → List Char → Option (Value × List Char)
  | 0, _ => none
  | steps + 1, cs =>
    match cs with
    | '\x22' :: _ | '\x27' :: _ => do
      let (text, rest) ← string? cs
      return (.string (String.ofList text), rest)
    | '[' :: rest => do
      let (items, rest) ← items? steps rest
      return (.array items, rest)
    | '\x7b' :: rest => do
      match skipBlanks rest with
      | '\x7d' :: rest => return (.table [], rest)
      | rest =>
        let (entries, rest) ← entries? steps rest
        return (.table entries, rest)
    | _ => word? cs

def items? : (steps : Nat) → List Char → Option (List Value × List Char)
  | 0, _ => none
  | steps + 1, cs => do
    match ← skipLines? steps cs with
    | ']' :: rest => return ([], rest)
    | cs =>
      let (v, rest) ← value? steps cs
      match ← skipLines? steps rest with
      | ']' :: rest => return ([v], rest)
      | ',' :: rest =>
        let (vs, rest) ← items? steps rest
        return (v :: vs, rest)
      | _ => failure

def entries? : (steps : Nat) → List Char → Option (List (List String × Value) × List Char)
  | 0, _ => none
  | steps + 1, cs => do
    let (entry, rest) ← entry? steps cs
    match skipBlanks rest with
    | '\x7d' :: rest => return ([entry], rest)
    | ',' :: rest =>
      let (entries, rest) ← entries? steps rest
      return (entry :: entries, rest)
    | _ => failure

def entry? : (steps : Nat) → List Char → Option ((List String × Value) × List Char)
  | 0, _ => none
  | steps + 1, cs => do
    match ← path? steps cs with
    | (path, '=' :: rest) =>
      let (v, rest) ← value? steps (skipBlanks rest)
      return ((path, v), rest)
    | _ => failure

end

def line? (cs : List Char) : Option (Line × List Char) := do
  let steps := 4 * cs.length + 4
  match cs with
  | '[' :: rest =>
    match ← path? steps rest with
    | (path, ']' :: rest) => return (.header path, ← endLine? rest)
    | _ => failure
  | cs =>
    let ((path, v), rest) ← entry? steps cs
    return (.entry path v, ← endLine? rest)

def linesFrom? : (steps : Nat) → List Char → Option (List Line)
  | 0, _ => none
  | steps + 1, cs => do
    match ← skipLines? (cs.length + 1) cs with
    | [] => return []
    | cs =>
      let (l, rest) ← line? cs
      return l :: (← linesFrom? steps rest)

/-- The lines of a text that are not blank. A byte order mark may begin it. -/
def lines? (text : List Char) : Option (List Line) :=
  let text := match text with
    | '\ufeff' :: rest => rest
    | text => text
  linesFrom? (text.length + 1) text

end SchemaSplit.Toml
