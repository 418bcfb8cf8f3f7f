import SchemaSplit.Double.Basic

/-!
The shortest decimal of a double: the fewest digits that read back to it. On each grid of powers
of ten only the two neighbours of the value can read back first; the closer one is taken, and a
format says where an exact tie goes.
-/

namespace SchemaSplit

structure Decimal where
  digits : Nat
  exponent : Int
  deriving DecidableEq, Repr, Inhabited

inductive Tie where
  | toEven
  | up
  deriving DecidableEq, Repr

namespace Decimal

def strip (digits : Nat) (exponent : Int) : Decimal :=
  if h : digits ≠ 0 ∧ digits % 10 = 0 then strip (digits / 10) (exponent + 1)
  else ⟨digits, exponent⟩
termination_by digits
decreasing_by omega

def size (d : Decimal) : Nat := (Nat.toDigits 10 d.digits).length

def magnitude (d : Decimal) : Int := (d.size : Int) - 1 + d.exponent

end Decimal

namespace Double

def reaches (num den : Nat) (exponent : Int) : Bool :=
  if 0 ≤ exponent then den * Nat.pow 10 exponent.toNat ≤ num
  else den ≤ num * Nat.pow 10 (-exponent).toNat

/-- The power of ten at the first digit of `num / unit`: an estimate from the binary length,
    put right by one step up or down. -/
def leading (num : Nat) : Int :=
  let guess := ((num.log2 : Int) - 1074) * 30103 / 100000
  if reaches num unit (guess + 1) then guess + 1
  else if reaches num unit guess then guess
  else guess - 1

/-- Among the two neighbours of `num / unit` on the grid of `10 ^ exponent`, the one to write. -/
def onGrid? (tie : Tie) (num mantissa scale : Nat) (exponent : Int) : Option Nat :=
  let (top, bottom) :=
    if 0 ≤ exponent then (num, unit * Nat.pow 10 exponent.toNat)
    else (num * Nat.pow 10 (-exponent).toNat, unit)
  let below := top / bottom
  let rest := top % bottom
  let back (digits : Nat) : Bool := ofDecimal false digits exponent == finite false mantissa scale
  let upward : Bool := bottom < 2 * rest ||
    (2 * rest == bottom && (tie == .up || below % 2 == 1))
  match back below, back (below + 1) with
  | true, true => some (if upward then below + 1 else below)
  | true, false => some below
  | false, true => some (below + 1)
  | false, false => none

def exactDecimal (mantissa scale : Nat) : Decimal :=
  Decimal.strip (mantissa * Nat.pow 2 scale * Nat.pow 5 1074) (-1074)

def shortest (tie : Tie) (mantissa scale : Nat) : Decimal :=
  let num := mantissa * Nat.pow 2 scale
  let first := leading num
  let found := (List.range 17).findSome? fun (n : Nat) =>
    (onGrid? tie num mantissa scale (first - n)).map fun digits =>
      Decimal.strip digits (first - n)
  found.getD (exactDecimal mantissa scale)

end Double
end SchemaSplit
