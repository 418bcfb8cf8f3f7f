import SchemaSplit.Width
import SchemaSplit.Json.Basic
import SchemaSplit.Text.Digits

namespace SchemaSplit.Json

structure Numeral where
  negative : Bool
  whole : List Char
  fraction? : Option (List Char)
  /-- Sign and digits of the power of ten. -/
  power? : Option (Bool × List Char)
  deriving Repr

namespace Numeral

def significand (start : Nat) : List Char → Nat × Nat
  | [] => (start, 0)
  | c :: rest =>
    let next := 10 * start + Text.decimal [c]
    if fitsUnsigned 64 next then significand next rest else (start, rest.length + 1)

/-- The double over `10 ^ power`, in steps of at most 308. -/
def scaleDown (power : Nat) (d : Double) : Double :=
  if h : power ≤ 308 then d.overTen power
  else if d.isZero then d
  else scaleDown (power - 308) (d.overTen 308)
termination_by power
decreasing_by omega

def scale? (power : Int) (d : Double) : Option Double :=
  if power < 0 then some (scaleDown power.natAbs d)
  else if power ≤ 308 then
    let scaled := d.timesTen power.toNat
    if scaled.isFinite then some scaled else none
  else if d.isZero then some d
  else none

def double? (n : Numeral) : Option Double :=
  let (digits, left) := significand 0 n.whole
  let fraction := n.fraction?.getD []
  let (digits, unread) := significand digits fraction
  let shift : Int := left - (fraction.length - unread)
  let power : Int := match n.power? with
    | some (negative, ds) => if negative then -Text.decimal ds else Text.decimal ds
    | none => 0
  scale? (shift + power) (.ofNat n.negative digits)

/-- The value of the number, if a double can hold it. Minus zero is a double. -/
def value? (n : Numeral) : Option Scalar :=
  let digits := Text.decimal n.whole
  let whole : Int := if n.negative then -digits else digits
  if n.fraction?.isNone ∧ n.power?.isNone ∧ (n.negative → 0 < digits) ∧ fitsEither 64 whole then
    some (.int whole)
  else n.double?.map .double

end Numeral
end SchemaSplit.Json
