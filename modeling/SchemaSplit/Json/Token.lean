import SchemaSplit.Json.Number

namespace SchemaSplit.Json

inductive Token where
  /-- One of the six characters that hold collections together. -/
  | mark (c : Char)
  | string (value? : Option String)
  | scalar (value? : Option Scalar)
  deriving DecidableEq, Repr, Inhabited

namespace Token

def isSpace (c : Char) : Bool := c == ' ' || c == '\t' || c == '\n' || c == '\r'

def isMark (c : Char) : Bool :=
  c == '[' || c == ']' || c == '\x7b' || c == '\x7d' || c == ',' || c == ':'

def isHigh (n : Nat) : Bool := 0xd800 ≤ n && n < 0xdc00

def isLow (n : Nat) : Bool := 0xdc00 ≤ n && n < 0xe000

def join? : List Nat → Option (List Char)
  | [] => some []
  | [n] => if isHigh n || isLow n then none else some [Char.ofNat n]
  | n :: m :: rest =>
    if isHigh n && isLow m then
      (Char.ofNat (0x10000 + (n - 0xd800) * 0x400 + (m - 0xdc00)) :: ·) <$> join? rest
    else if isHigh n || isLow n then none
    else (Char.ofNat n :: ·) <$> join? (m :: rest)

def unescape? : Char → Option Nat
  | '\x22' => some 0x22
  | '\\' => some 0x5c
  | '/' => some 0x2f
  | 'b' => some 0x08
  | 'f' => some 0x0c
  | 'n' => some 0x0a
  | 'r' => some 0x0d
  | 't' => some 0x09
  | _ => none

def string? : List Char → Option (List Nat × List Char)
  | [] => none
  | '\x22' :: rest => some ([], rest)
  | '\\' :: 'u' :: a :: b :: c :: d :: rest => do
    let unit ← Text.natural? 16 [a, b, c, d]
    let (units, rest) ← string? rest
    return (unit :: units, rest)
  | '\\' :: c :: rest => do
    let unit ← unescape? c
    let (units, rest) ← string? rest
    return (unit :: units, rest)
  | c :: rest => do
    guard (c ≠ '\\' ∧ 0x20 ≤ c.toNat)
    let (units, rest) ← string? rest
    return (c.toNat :: units, rest)

def digits? (cs : List Char) : Option (List Char × List Char) :=
  match cs.span Char.isDigit with
  | ([], _) => none
  | (ds, rest) => some (ds, rest)

def whole? : List Char → Option (List Char × List Char)
  | '0' :: rest => some (['0'], rest)
  | cs => digits? cs

def fraction? : List Char → Option (Option (List Char) × List Char)
  | '.' :: cs => (fun (ds, rest) => (some ds, rest)) <$> digits? cs
  | cs => some (none, cs)

def power? : List Char → Option (Option (Bool × List Char) × List Char)
  | c :: cs =>
    if c = 'e' ∨ c = 'E' then
      let (negative, cs) := match cs with
        | '+' :: cs => (false, cs)
        | '-' :: cs => (true, cs)
        | cs => (false, cs)
      (fun (ds, rest) => (some (negative, ds), rest)) <$> digits? cs
    else some (none, c :: cs)
  | [] => some (none, [])

def number? (cs : List Char) : Option (Numeral × List Char) := do
  let (negative, cs) := match cs with
    | '-' :: cs => (true, cs)
    | cs => (false, cs)
  let (whole, cs) ← whole? cs
  let (fraction, cs) ← fraction? cs
  let (power, cs) ← power? cs
  return ({ negative, whole, fraction? := fraction, power? := power }, cs)

def first? : List Char → Option (Token × List Char)
  | '\x22' :: rest => (fun (units, rest) =>
      (.string ((join? units).map String.ofList), rest)) <$> string? rest
  | 't' :: 'r' :: 'u' :: 'e' :: rest => some (.scalar (some (.bool true)), rest)
  | 'f' :: 'a' :: 'l' :: 's' :: 'e' :: rest => some (.scalar (some (.bool false)), rest)
  | 'n' :: 'u' :: 'l' :: 'l' :: rest => some (.scalar (some .null), rest)
  | c :: rest =>
    if isMark c then some (.mark c, rest)
    else (fun (n, rest) => (.scalar n.value?, rest)) <$> number? (c :: rest)
  | [] => none

/-- The tokens of a text, spaces left out. Each token takes at least one character, so as many
    steps as there are characters are enough. -/
def lex? (cs : List Char) : Option (List Token) :=
  go cs.length cs
where
  go : Nat → List Char → Option (List Token)
    | steps, cs =>
      match steps, cs.dropWhile isSpace with
      | _, [] => some []
      | 0, _ => none
      | steps + 1, cs => do
        let (t, rest) ← first? cs
        return t :: (← go steps rest)

end Token
end SchemaSplit.Json
