namespace SchemaSplit

/-- A finite double is `mantissa * 2 ^ scale` units of `2 ^ -1074`, with its sign beside it. -/
inductive Double where
  | finite (negative : Bool) (mantissa scale : Nat)
  | infinite (negative : Bool)
  | nan
  deriving DecidableEq, Repr, Inhabited

namespace Double

def unit : Nat := Nat.pow 2 1074

def zero (negative : Bool) : Double := finite negative 0 0

def isFinite : Double → Bool
  | finite .. => true
  | _ => false

def isZero : Double → Bool
  | finite _ m _ => m == 0
  | _ => false

/-- The whole number nearest to `num / den`, a half going to the even neighbour. -/
def roundDiv (num den : Nat) : Nat :=
  let quotient := num / den
  let rest := num % den
  if 2 * rest < den ∨ (2 * rest = den ∧ quotient % 2 = 0) then quotient else quotient + 1

def ofUnits (negative : Bool) (num den : Nat) : Double :=
  let scale := (num / den).log2 - 52
  let mantissa := roundDiv num (den * Nat.pow 2 scale)
  let carried := mantissa == Nat.pow 2 53
  let scale := if carried then scale + 1 else scale
  if 2045 < scale then infinite negative
  else finite negative (if carried then Nat.pow 2 52 else mantissa) scale

def ofNat (negative : Bool) (n : Nat) : Double := ofUnits negative (n * unit) 1

def ofInt (n : Int) : Double := ofNat (n < 0) n.natAbs

def timesTen (exponent : Nat) : Double → Double
  | finite s m k =>
    match ofNat false (Nat.pow 10 exponent) with
    | finite _ m' k' => ofUnits s (m * Nat.pow 2 k * (m' * Nat.pow 2 k')) unit
    | power => power
  | d => d

def overTen (exponent : Nat) : Double → Double
  | finite s m k =>
    match ofNat false (Nat.pow 10 exponent) with
    | finite _ m' k' => ofUnits s (m * Nat.pow 2 k * unit) (m' * Nat.pow 2 k')
    | _ => zero s
  | d => d

/-- The double nearest to `digits * 10 ^ exponent`. Powers far outside the range are decided by
    the length of the digits alone. -/
def ofDecimal (negative : Bool) (digits : Nat) (exponent : Int) : Double :=
  let size := ((Nat.toDigits 10 digits).length : Int) + exponent
  if digits = 0 ∨ size < -330 then zero negative
  else if 310 < size then infinite negative
  else if 0 ≤ exponent then ofUnits negative (digits * Nat.pow 10 exponent.toNat * unit) 1
  else ofUnits negative (digits * unit) (Nat.pow 10 (-exponent).toNat)

end Double
end SchemaSplit
