import SchemaSplit.Double.Shortest

namespace SchemaSplit

structure Double.Format where
  tie : Tie
  /-- The powers of ten at the first digit that are written positionally; all without bounds. -/
  positional? : Option (Int × Int)
  /-- What follows a whole number. -/
  wholeEnd : String
  infinity : String
  minusInfinity : String
  nan : String

namespace Decimal

def zeros (n : Nat) : String := String.ofList (List.replicate n '0')

def positionalText (wholeEnd : String) (d : Decimal) : String :=
  let digits := Nat.toDigits 10 d.digits
  if 0 ≤ d.exponent then String.ofList digits ++ zeros d.exponent.toNat ++ wholeEnd
  else
    let places := (-d.exponent).toNat
    if places < digits.length then
      String.ofList (digits.take (digits.length - places)) ++ "." ++
        String.ofList (digits.drop (digits.length - places))
    else "0." ++ zeros (places - digits.length) ++ String.ofList digits

def scientificText (d : Decimal) : String :=
  let digits := Nat.toDigits 10 d.digits
  let power := d.magnitude
  let sign := if power < 0 then "e-" else "e+"
  String.ofList (digits.take 1) ++
    (if digits.length = 1 then "" else "." ++ String.ofList (digits.drop 1)) ++
    sign ++ toString power.natAbs

end Decimal

namespace Double

def magnitudeText (f : Format) (mantissa scale : Nat) : String :=
  let d := shortest f.tie mantissa scale
  match f.positional? with
  | none => d.positionalText f.wholeEnd
  | some (low, high) =>
    if low ≤ d.magnitude ∧ d.magnitude ≤ high then d.positionalText f.wholeEnd
    else d.scientificText

def text (f : Format) : Double → String
  | finite s m k =>
    let magnitude := if m = 0 then "0" ++ f.wholeEnd else magnitudeText f m k
    if s then "-" ++ magnitude else magnitude
  | infinite s => if s then f.minusInfinity else f.infinity
  | nan => f.nan

end Double
end SchemaSplit
