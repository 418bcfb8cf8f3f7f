import SchemaSplit.Url.Percent
import SchemaSplit.Url.Punycode

namespace SchemaSplit.Url

inductive Fault where
  | emptyHost
  | invalidPort
  | invalidIpv4
  | invalidIpv6
  | invalidDomain
  deriving DecidableEq, Repr, Inhabited

namespace Fault

def message : Fault → String
  | emptyHost => "empty host"
  | invalidPort => "invalid port number"
  | invalidIpv4 => "invalid IPv4 address"
  | invalidIpv6 => "invalid IPv6 address"
  | invalidDomain => "invalid international domain name"

end Fault

def splitAt (separator : Char) : List Char → List (List Char)
  | [] => [[]]
  | c :: rest =>
    match splitAt separator rest with
    | [] => [[c]]
    | part :: parts => if c = separator then [] :: part :: parts else (c :: part) :: parts

inductive Host where
  | domain (name : List Char)
  | ipv4 (address : Nat)
  | ipv6 (pieces : List Nat)
  deriving DecidableEq, Repr, Inhabited

def ipv4Number? : List Char → Option Nat
  | [] => none
  | '0' :: x :: rest =>
    if x = 'x' ∨ x = 'X' then if rest.isEmpty then some 0 else Text.natural? 16 rest
    else Text.natural? 8 (x :: rest)
  | cs => Text.natural? 10 cs

def labels (name : List Char) : List (List Char) :=
  match (splitAt '.' name).reverse with
  | [] :: before => before.reverse
  | all => all.reverse

/-- Whether the last label looks like a number, be it a valid one or not. -/
def endsInNumber (name : List Char) : Bool :=
  match (labels name).getLast? with
  | some label => (!label.isEmpty && label.all Char.isDigit) || (ipv4Number? label).isSome
  | none => false

/-- The address of one to four numbers; the last fills all octets that are left. -/
def ipv4? (name : List Char) : Option Nat := do
  let numbers ← (labels name).mapM ipv4Number?
  guard (numbers.length ≤ 4)
  let last ← numbers.getLast?
  let before := numbers.dropLast
  guard (before.all (· < 256) ∧ last < Nat.pow 256 (4 - before.length))
  return before.zipIdx.foldl (fun sum (n, i) => sum + n * Nat.pow 256 (3 - i)) last

def dottedPieces? (cs : List Char) : Option (List Nat) := do
  let octet? (digits : List Char) : Option Nat := do
    guard (digits.all Char.isDigit ∧ (digits.length = 1 ∨ digits.head? ≠ some '0'))
    let n ← Text.natural? 10 digits
    if n < 256 then some n else none
  match ← (splitAt '.' cs).mapM octet? with
  | [a, b, c, d] => return [a * 256 + b, c * 256 + d]
  | _ => failure

def pieces? : List (List Char) → Option (List Nat)
  | [] => some []
  | [last] =>
    if last.contains '.' then dottedPieces? last
    else if 4 < last.length then none
    else (fun n => [n]) <$> Text.natural? 16 last
  | piece :: rest =>
    if 4 < piece.length then none
    else do return (← Text.natural? 16 piece) :: (← pieces? rest)

def splitDouble : List Char → Option (List Char × List Char)
  | ':' :: ':' :: rest => some ([], rest)
  | c :: rest => (fun (before, behind) => (c :: before, behind)) <$> splitDouble rest
  | [] => none

def ipv6? (cs : List Char) : Option (List Nat) := do
  let side? (cs : List Char) : Option (List Nat) :=
    if cs.isEmpty then some [] else pieces? (splitAt ':' cs)
  match splitDouble cs with
  | some (before, behind) =>
    let low ← side? before
    let high ← side? behind
    guard (!before.contains '.' ∧ low.length + high.length ≤ 7)
    return low ++ List.replicate (8 - low.length - high.length) 0 ++ high
  | none =>
    let pieces ← pieces? (splitAt ':' cs)
    guard (pieces.length = 8)
    return pieces

def lower (c : Char) : Char :=
  let n := c.toNat
  if n < 0x80 then c.toLower
  else if (0xc0 ≤ n ∧ n ≤ 0xde ∧ n ≠ 0xd7) ∨ (0x391 ≤ n ∧ n ≤ 0x3ab ∧ n ≠ 0x3a2) ∨
      (0x410 ≤ n ∧ n ≤ 0x42f) then Char.ofNat (n + 0x20)
  else if 0x400 ≤ n ∧ n ≤ 0x40f then Char.ofNat (n + 0x50)
  else if ((0x100 ≤ n ∧ n ≤ 0x137 ∧ n ≠ 0x130) ∨ (0x14a ≤ n ∧ n ≤ 0x177) ∨
      (0x460 ≤ n ∧ n ≤ 0x481) ∨ (0x48a ≤ n ∧ n ≤ 0x4bf) ∨ (0x1e00 ≤ n ∧ n ≤ 0x1e95)) ∧
      n % 2 = 0 then
    Char.ofNat (n + 1)
  else if (0x139 ≤ n ∧ n ≤ 0x148) ∧ n % 2 = 1 then Char.ofNat (n + 1)
  else c

def isFullStop (c : Char) : Bool := ['.', '\u3002', '\uff0e', '\uff61'].contains c

def isForbiddenInDomain (c : Char) : Bool :=
  c.toNat ≤ 0x20 || c.toNat == 0x7f || "%#/:<>?@[\\]^|".toList.contains c

def isEncodable (label : List Char) : Bool :=
  label.any (0x80 ≤ ·.toNat) && label.all fun c =>
    lower c == c && !isFullStop c && !(0x80 ≤ c.toNat && c.toNat < 0xa0)

/-- A label in ASCII. One that is said to be encoded has to be the code of some label. -/
def label? (cs : List Char) : Option (List Char) :=
  match cs with
  | 'x' :: 'n' :: '-' :: '-' :: code => do
    guard (code.all (·.toNat < 0x80))
    let (ends, start) := code.reverse.span (· ≠ '-')
    let label ← Punycode.insertAll? code.length 72 0 0x80 start.tail.reverse ends.reverse
    if isEncodable label ∧ Punycode.encode label = code then some cs else none
  | cs =>
    if cs.all (·.toNat < 0x80) then some cs
    else some ("xn--".toList ++ Punycode.encode cs)

def domain? (cs : List Char) : Option (List Char) := do
  let text ← String.fromUTF8? ⟨(decode cs).toArray⟩
  let name := text.toList.map fun c => if isFullStop c then '.' else lower c
  guard !(name.any isForbiddenInDomain)
  return ['.'].intercalate (← (splitAt '.' name).mapM label?)

namespace Host

def parse (cs : List Char) : Except Fault Host :=
  match cs with
  | [] => .error .emptyHost
  | '[' :: rest =>
    if rest.getLast? = some ']' then
      match ipv6? rest.dropLast with
      | some pieces => .ok (.ipv6 pieces)
      | none => .error .invalidIpv6
    else .error .invalidIpv6
  | cs =>
    match domain? cs with
    | none => .error .invalidDomain
    | some [] => .error .emptyHost
    | some name =>
      if endsInNumber name then
        match ipv4? name with
        | some address => .ok (.ipv4 address)
        | none => .error .invalidIpv4
      else .ok (.domain name)

def longestZeros (pieces : List Nat) : Option (Nat × Nat) :=
  (List.range pieces.length).foldl
    (fun best start =>
      let run := ((pieces.drop start).takeWhile (· == 0)).length
      if 2 ≤ run ∧ best.all (·.2 < run) then some (start, run) else best)
    none

def hexText (n : Nat) : List Char := Nat.toDigits 16 n

def ipv6Text (pieces : List Nat) : List Char :=
  let texts (pieces : List Nat) : List Char := [':'].intercalate (pieces.map hexText)
  match longestZeros pieces with
  | some (start, run) =>
    texts (pieces.take start) ++ [':', ':'] ++ texts (pieces.drop (start + run))
  | none => texts pieces

def text : Host → List Char
  | domain name => name
  | ipv4 address =>
    ['.'].intercalate ([3, 2, 1, 0].map fun i => Nat.toDigits 10 (address / Nat.pow 256 i % 256))
  | ipv6 pieces => '[' :: ipv6Text pieces ++ [']']

end Host
end SchemaSplit.Url
