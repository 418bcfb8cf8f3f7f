import SchemaSplit.Json.Basic
import SchemaSplit.Double.Format

namespace SchemaSplit

/-- Doubles are positional for leading powers of ten from -5 to 15 and keep a decimal. -/
def Json.doubleFormat : Double.Format where
  tie := .toEven
  positional? := some (-5, 15)
  wholeEnd := ".0"
  infinity := "null"
  minusInfinity := "null"
  nan := "null"

namespace Json

def hexDigit (n : Nat) : Char := (Nat.digitChar n)

/-- A quote, a backslash and the characters below U+0020 are escaped, and nothing else. -/
def escape (c : Char) : List Char :=
  if c = '\x22' then ['\\', '\x22']
  else if c = '\\' then ['\\', '\\']
  else if c = '\x08' then ['\\', 'b']
  else if c = '\x0c' then ['\\', 'f']
  else if c = '\n' then ['\\', 'n']
  else if c = '\r' then ['\\', 'r']
  else if c = '\t' then ['\\', 't']
  else if c.toNat < 0x20 then
    ['\\', 'u', '0', '0', hexDigit (c.toNat / 16), hexDigit (c.toNat % 16)]
  else [c]

def quote (s : String) : String :=
  String.ofList ('\x22' :: s.toList.flatMap escape ++ ['\x22'])

end Json

def Scalar.text : Scalar → String
  | .null => "null"
  | .bool b => if b then "true" else "false"
  | .int n => toString n
  | .double d => d.text Json.doubleFormat
  | .string s => Json.quote s

namespace Json

mutual

def compact : Json → String
  | .scalar s => s.text
  | .array items => "[" ++ compactItems items ++ "]"
  | .object fields => "\x7b" ++ compactFields fields ++ "\x7d"
termination_by structural j => j

def compactItems : List Json → String
  | [] => ""
  | [j] => j.compact
  | j :: rest => j.compact ++ "," ++ compactItems rest
termination_by structural js => js

def compactFields : List (String × Json) → String
  | [] => ""
  | [(name, j)] => quote name ++ ":" ++ j.compact
  | (name, j) :: rest => quote name ++ ":" ++ j.compact ++ "," ++ compactFields rest
termination_by structural fs => fs

end

def newLine (depth : Nat) : String := "\n" ++ String.ofList (List.replicate (2 * depth) ' ')

mutual

def pretty (depth : Nat) : Json → String
  | .scalar s => s.text
  | .array [] => "[]"
  | .array (j :: rest) =>
    "[" ++ newLine (depth + 1) ++ pretty (depth + 1) j ++ prettyItems (depth + 1) rest ++
      newLine depth ++ "]"
  | .object [] => "\x7b\x7d"
  | .object ((name, j) :: rest) =>
    "\x7b" ++ newLine (depth + 1) ++ quote name ++ ": " ++ pretty (depth + 1) j ++
      prettyFields (depth + 1) rest ++ newLine depth ++ "\x7d"
termination_by structural j => j

def prettyItems (depth : Nat) : List Json → String
  | [] => ""
  | j :: rest => "," ++ newLine depth ++ pretty depth j ++ prettyItems depth rest
termination_by structural js => js

def prettyFields (depth : Nat) : List (String × Json) → String
  | [] => ""
  | (name, j) :: rest =>
    "," ++ newLine depth ++ quote name ++ ": " ++ pretty depth j ++ prettyFields depth rest
termination_by structural fs => fs

end
end Json
end SchemaSplit
