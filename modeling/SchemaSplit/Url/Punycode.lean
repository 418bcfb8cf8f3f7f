namespace SchemaSplit.Url.Punycode

def digitChar (n : Nat) : Char :=
  if n < 26 then Char.ofNat ('a'.toNat + n) else Char.ofNat ('0'.toNat + (n - 26))

def digitValue? (c : Char) : Option Nat :=
  if 'a' ≤ c ∧ c ≤ 'z' then some (c.toNat - 'a'.toNat)
  else if 'A' ≤ c ∧ c ≤ 'Z' then some (c.toNat - 'A'.toNat)
  else if '0' ≤ c ∧ c ≤ '9' then some (c.toNat - '0'.toNat + 26)
  else none

def threshold (place bias : Nat) : Nat := max 1 (min 26 (place - bias))

theorem threshold_bounds (place bias : Nat) :
    1 ≤ threshold place bias ∧ threshold place bias ≤ 26 := by
  unfold threshold
  omega

def biasOf (delta steps : Nat) : Nat :=
  if 455 < delta then biasOf (delta / 35) (steps + 1) else 36 * steps + 36 * delta / (delta + 38)
termination_by delta
decreasing_by omega

def adapt (delta count : Nat) (isFirst : Bool) : Nat :=
  let delta := if isFirst then delta / 700 else delta / 2
  biasOf (delta + delta / count) 0

def digits (bias place n : Nat) : List Char :=
  let t := threshold place bias
  if n < t then [digitChar n]
  else digitChar (t + (n - t) % (36 - t)) :: digits bias (place + 36) ((n - t) / (36 - t))
termination_by n
decreasing_by
  have h := threshold_bounds place bias
  exact Nat.lt_of_le_of_lt (Nat.div_le_self _ _) (by omega)

structure Progress where
  output : List Char
  delta : Nat := 0
  bias : Nat := 72
  /-- The number of characters written. -/
  written : Nat

def pass (basic point : Nat) (s : Progress) (c : Char) : Progress :=
  if c.toNat < point then { s with delta := s.delta + 1 }
  else if c.toNat = point then
    { output := s.output ++ digits s.bias 36 s.delta
      delta := 0
      bias := adapt s.delta (s.written + 1) (s.written == basic)
      written := s.written + 1 }
  else s

def encode (label : List Char) : List Char :=
  let basic := label.filter (·.toNat < 0x80)
  let points := ((label.filter (0x80 ≤ ·.toNat)).map Char.toNat).mergeSort.eraseDups
  let start : Progress :=
    { output := if basic.isEmpty then [] else basic ++ ['-'], written := basic.length }
  let (last, _) := points.foldl
    (fun (s, next) point =>
      let s := { s with delta := s.delta + (point - next) * (s.written + 1) }
      let s := label.foldl (pass basic.length point) s
      ({ s with delta := s.delta + 1 }, point + 1))
    (start, 0x80)
  last.output

def distance? (bias place weight : Nat) : List Char → Option (Nat × List Char)
  | [] => none
  | c :: rest => do
    let digit ← digitValue? c
    let t := threshold place bias
    if digit < t then return (digit * weight, rest)
    let (n, rest) ← distance? bias (place + 36) (weight * (36 - t)) rest
    return (digit * weight + n, rest)

def insertAll? : (steps : Nat) → (bias position point : Nat) → (label digits : List Char) →
    Option (List Char)
  | _, _, _, _, label, [] => some label
  | 0, _, _, _, _, _ => none
  | steps + 1, bias, position, point, label, cs => do
    let (n, rest) ← distance? bias 36 1 cs
    let count := label.length + 1
    let position' := position + n
    let point' := point + position' / count
    let place := position' % count
    guard point'.isValidChar
    insertAll? steps (adapt n count (position = 0)) (place + 1)
      point' (label.take place ++ Char.ofNat point' :: label.drop place) rest

end SchemaSplit.Url.Punycode
