import SchemaSplit.Double.Format
import SchemaSplit.Proofs.Json.Token

namespace SchemaSplit

def IsWhole (ds : List Char) : Prop :=
  ds = ['0'] ∨ (∀ c ∈ ds, c.isDigit) ∧ ∃ c ∈ ds.head?, c ≠ '0'

inductive IsNumeral : List Char → Prop
  | whole {ds : List Char} (whole : IsWhole ds) : IsNumeral ds
  | point {ds places : List Char} (whole : IsWhole ds) (nonempty : places ≠ [])
      (digits : ∀ c ∈ places, c.isDigit) : IsNumeral (ds ++ '.' :: places)

theorem isDigit_of_toDigits {n : Nat} {c : Char} (inside : c ∈ Nat.toDigits 10 n) : c.isDigit :=
  Nat.isDigit_of_mem_toDigits (by decide) (by decide) inside

theorem toDigits_head {n : Nat} (positive : 0 < n) : ∃ c ∈ (Nat.toDigits 10 n).head?, c ≠ '0' := by
  have noZero := Json.Token.head?_toDigits positive
  cases digits : Nat.toDigits 10 n with
  | nil => exact absurd digits Nat.toDigits_ne_nil
  | cons c ds =>
    refine ⟨c, rfl, ?_⟩
    rintro rfl
    rw [digits] at noZero
    exact noZero rfl

theorem isWhole_toDigits (n : Nat) : IsWhole (Nat.toDigits 10 n) := by
  rcases Nat.eq_zero_or_pos n with rfl | positive
  · exact .inl rfl
  · exact .inr ⟨fun _ => isDigit_of_toDigits, toDigits_head positive⟩

inductive IsNumber : String → Prop
  | positive {ds : List Char} (numeral : IsNumeral ds) : IsNumber (String.ofList ds)
  | negative {ds : List Char} (numeral : IsNumeral ds) : IsNumber ("-" ++ String.ofList ds)

theorem isNumber_int (n : Int) : IsNumber (toString n) := by
  have digits : ∀ m : Nat, Nat.repr m = String.ofList (Nat.toDigits 10 m) := by
    intro m
    rw [← Nat.toList_repr, String.ofList_toList]
  cases n with
  | ofNat m =>
    have text : toString (Int.ofNat m) = String.ofList (Nat.toDigits 10 m) := digits m
    rw [text]
    exact .positive (.whole (isWhole_toDigits m))
  | negSucc m =>
    have text : toString (Int.negSucc m) = "-" ++ String.ofList (Nat.toDigits 10 (m + 1)) :=
      congrArg ("-" ++ ·) (digits (m + 1))
    rw [text]
    exact .negative (.whole (isWhole_toDigits (m + 1)))

theorem IsNumeral.head {ds : List Char} (numeral : IsNumeral ds) :
    ∃ c cs, ds = c :: cs ∧ c.isDigit := by
  have ofWhole : ∀ {ds : List Char}, IsWhole ds → ∃ c cs, ds = c :: cs ∧ c.isDigit := by
    intro ds whole
    rcases whole with rfl | ⟨digits, c, first, -⟩
    · exact ⟨'0', [], rfl, rfl⟩
    · cases ds with
      | nil => cases first
      | cons d ds => exact ⟨d, ds, rfl, digits d List.mem_cons_self⟩
  cases numeral with
  | whole whole => exact ofWhole whole
  | point whole _ _ =>
    obtain ⟨c, cs, rfl, digit⟩ := ofWhole whole
    exact ⟨c, _, rfl, digit⟩

namespace Decimal

theorem strip_pos {digits : Nat} {exponent : Int} (positive : 0 < digits) :
    0 < (strip digits exponent).digits := by
  induction digits, exponent using strip.induct with
  | case1 digits exponent h ih =>
    rw [strip, dif_pos h]
    exact ih (by omega)
  | case2 digits exponent h =>
    rw [strip, dif_neg h]
    exact positive

theorem positionalText_isNumeral {d : Decimal} (positive : 0 < d.digits) :
    IsNumeral (d.positionalText "").toList := by
  have head := toDigits_head positive
  have isDigit : ∀ c ∈ Nat.toDigits 10 d.digits, c.isDigit := fun _ => isDigit_of_toDigits
  have zero : ∀ n, ∀ c ∈ List.replicate n '0', c.isDigit := by
    intro n c inside
    rw [List.eq_of_mem_replicate inside]
    rfl
  unfold positionalText
  generalize Nat.toDigits 10 d.digits = ds at head isDigit
  dsimp only
  split_ifs with isWhole inside
  · have text : (String.ofList ds ++ zeros d.exponent.toNat ++ "").toList =
        ds ++ List.replicate d.exponent.toNat '0' := by simp [zeros]
    rw [text]
    refine .whole (.inr ⟨?_, ?_⟩)
    · intro c within
      exact (List.mem_append.mp within).elim (isDigit c) (zero _ c)
    · obtain ⟨c, first, noZero⟩ := head
      rw [List.head?_append, first]
      exact ⟨c, rfl, noZero⟩
  · have text : (String.ofList (ds.take (ds.length - (-d.exponent).toNat)) ++ "." ++
        String.ofList (ds.drop (ds.length - (-d.exponent).toNat))).toList =
        ds.take (ds.length - (-d.exponent).toNat) ++
          '.' :: ds.drop (ds.length - (-d.exponent).toNat) := by simp
    rw [text]
    refine .point (.inr ⟨?_, ?_⟩) ?_ ?_
    · exact fun c within => isDigit c (List.mem_of_mem_take within)
    · rw [List.head?_take, if_neg (by omega)]
      exact head
    · rw [ne_eq, List.drop_eq_nil_iff]
      omega
    · exact fun c within => isDigit c (List.mem_of_mem_drop within)
  · have text : ("0." ++ zeros ((-d.exponent).toNat - ds.length) ++ String.ofList ds).toList =
        ['0'] ++ '.' :: (List.replicate ((-d.exponent).toNat - ds.length) '0' ++ ds) := by
      simp [zeros]
    rw [text]
    refine .point (.inl rfl) ?_ ?_
    · intro empty
      rw [(List.append_eq_nil_iff.mp empty).2] at head
      obtain ⟨c, first, -⟩ := head
      cases first
    · intro c within
      exact (List.mem_append.mp within).elim (zero _ c) (isDigit c)

end Decimal

namespace Double

variable {tie : Tie} {num mantissa scale : Nat} {exponent : Int}

theorem onGrid?_back {digits : Nat}
    (found : onGrid? tie num mantissa scale exponent = some digits) :
    ofDecimal false digits exponent = finite false mantissa scale := by
  simp only [onGrid?] at found
  generalize (if 0 ≤ exponent then (num, unit * Nat.pow 10 exponent.toNat)
    else (num * Nat.pow 10 (-exponent).toNat, unit)) = quotient at found
  split at found
  · rename_i below above
    cases found
    split_ifs
    · exact eq_of_beq above
    · exact eq_of_beq below
  · rename_i below _
    cases found
    exact eq_of_beq below
  · rename_i _ above
    cases found
    exact eq_of_beq above
  · cases found

theorem exactDecimal_pos (positive : 0 < mantissa) : 0 < (exactDecimal mantissa scale).digits := by
  unfold exactDecimal
  apply Decimal.strip_pos
  generalize 1074 = places
  exact Nat.mul_pos (Nat.mul_pos positive (Nat.pow_pos (by decide))) (Nat.pow_pos (by decide))

/-- The shortest decimal of a double that is not zero is not zero either, since zero reads back to
    zero. -/
theorem shortest_pos (positive : 0 < mantissa) : 0 < (shortest tie mantissa scale).digits := by
  unfold shortest
  dsimp only
  cases found : (List.range 17).findSome? fun (n : Nat) =>
      (onGrid? tie (mantissa * Nat.pow 2 scale) mantissa scale
        (leading (mantissa * Nat.pow 2 scale) - n)).map fun digits =>
          Decimal.strip digits (leading (mantissa * Nat.pow 2 scale) - n) with
  | none =>
    rw [Option.getD_none]
    exact exactDecimal_pos positive
  | some d =>
    obtain ⟨n, -, onGrid⟩ := List.exists_of_findSome?_eq_some found
    obtain ⟨digits, back, rfl⟩ := Option.map_eq_some_iff.mp onGrid
    apply Decimal.strip_pos
    apply Nat.pos_of_ne_zero
    rintro rfl
    have zero := onGrid?_back back
    rw [ofDecimal, if_pos (.inl rfl)] at zero
    cases zero
    omega

theorem isNumber_text {f : Format} (positional : f.positional? = none) (noEnd : f.wholeEnd = "")
    {d : Double} (finite : d.isFinite) : IsNumber (d.text f) := by
  cases d with
  | finite negative mantissa scale =>
    have magnitude : IsNumeral
        (if mantissa = 0 then "0" ++ f.wholeEnd else magnitudeText f mantissa scale).toList := by
      rw [noEnd]
      split_ifs with zero
      · exact .whole (.inl rfl)
      · rw [magnitudeText, positional, noEnd]
        exact Decimal.positionalText_isNumeral (shortest_pos (Nat.pos_of_ne_zero zero))
    rw [text]
    cases negative
    · have number := IsNumber.positive magnitude
      rwa [String.ofList_toList] at number
    · have number := IsNumber.negative magnitude
      rwa [String.ofList_toList] at number
  | infinite negative => cases finite
  | nan => cases finite

end Double
end SchemaSplit
