import SchemaSplit.Width
import SchemaSplit.Yaml.Token
import SchemaSplit.Node.Basic

namespace SchemaSplit.Yaml

inductive Tag where
  | null
  | bool
  | int
  | float
  /-- A tag that is local to the text. -/
  | own
  | other
  deriving DecidableEq, Repr, Inhabited

namespace Tag

def ofOctets (octets : List Nat) : Tag :=
  let standard (name : String) : Bool :=
    octets == ("tag:yaml.org,2002:" ++ name).toList.map Char.toNat
  if standard "null" then null
  else if standard "bool" then bool
  else if standard "int" then int
  else if standard "float" then float
  else if octets.head? = some '!'.toNat then own
  else other

end Tag

def isNull (text : String) : Bool := ["~", "null", "Null", "NULL"].contains text

def flag? (text : String) : Option Bool :=
  if ["true", "True", "TRUE"].contains text then some true
  else if ["false", "False", "FALSE"].contains text then some false
  else none

def signed : List Char → Bool × List Char
  | '-' :: rest => (true, rest)
  | '+' :: rest => (false, rest)
  | cs => (false, cs)

def hasLeadingZero (cs : List Char) : Bool :=
  cs.head? == some '0' && 1 < cs.length && cs.all Char.isDigit

def whole? (text : List Char) : Option Int :=
  let (negative, body) := signed text
  let n? := match body with
    | '0' :: 'x' :: ds => Text.natural? 16 ds
    | '0' :: 'o' :: ds => Text.natural? 8 ds
    | '0' :: 'b' :: ds => Text.natural? 2 ds
    | ds => if hasLeadingZero ds then none else Text.natural? 10 ds
  n?.map fun n => if negative then -n else n

def decimal? (text : List Char) : Option Double := do
  let (negative, body) := signed text
  let (whole, rest) := body.span Char.isDigit
  let (fraction, rest) := match rest with
    | '.' :: rest => rest.span Char.isDigit
    | rest => ([], rest)
  guard !(whole.isEmpty && fraction.isEmpty)
  let power ← match rest with
    | [] => some (0 : Int)
    | e :: rest =>
      if e = 'e' ∨ e = 'E' then
        let (negative, ds) := signed rest
        (fun (n : Nat) => if negative then -(n : Int) else n) <$> Text.natural? 10 ds
      else none
  let d := Double.ofDecimal negative (Text.decimal (whole ++ fraction)) (power - fraction.length)
  if d.isFinite then some d else none

def double? (text : List Char) : Option Double :=
  let (negative, body) := signed text
  let word := String.ofList body
  if [".inf", ".Inf", ".INF"].contains word then some (.infinite negative)
  else if [".nan", ".NaN", ".NAN"].contains (String.ofList text) then some .nan
  else decimal? text

/-- A whole number has 64 bits. With up to 128 it is an error, and beyond that a double. -/
inductive Reading where
  | int (n : Int)
  | tooLarge
  | noInt

def readInt (text : List Char) : Reading :=
  match whole? text with
  | none => .noInt
  | some n =>
    if fitsEither 64 n then .int n
    else if fitsEither 128 n then .tooLarge
    else .noInt

def spelled? (text : List Char) : Option Scalar :=
  let word := String.ofList text
  if text.isEmpty || isNull word then some .null
  else
    match flag? word, readInt text with
    | some b, _ => some (.bool b)
    | none, .int n => some (.int n)
    | none, .tooLarge => none
    | none, .noInt =>
      match if hasLeadingZero (signed text).2 then none else double? text with
      | some d => some (.double d)
      | none => some (.string word)

def value? (style : Style) (tag? : Option Tag) (text : List Char) : Option Scalar :=
  let word := String.ofList text
  match tag? with
  | none => if style = .plain then spelled? text else some (.string word)
  | some .null => if isNull word then some .null else none
  | some .bool => .bool <$> flag? word
  | some .int => match readInt text with | .int n => some (.int n) | _ => none
  | some .float => .double <$> double? text
  | some .own => none
  | some .other => some (.string word)

/-- Any scalar can be read as a text; whether it is there depends on its style and tag. -/
def leaf (style : Style) (tag? : Option Tag) (text : List Char) : Leaf :=
  let word := String.ofList text
  { text? := some word
    version? := some word
    flag? :=
      if style = .plain ∨ (style = .literal ∧ tag? = some .bool) then flag? word else none
    present? :=
      if style ≠ .plain then some true
      else match tag? with
        | none => some !(text.isEmpty || isNull word)
        | some .null => if isNull word then some false else none
        | some _ => some true
    isBlank := style = .plain ∧ text.isEmpty
    value? := value? style tag? text }

end SchemaSplit.Yaml
