import SchemaSplit.Json.Token
import SchemaSplit.Json.Writer
import Mathlib.Data.Option.Basic
import Mathlib.Data.List.TakeDrop
import Mathlib.Data.List.TakeWhile
import Mathlib.Tactic.SplitIfs

namespace SchemaSplit.Json

namespace Token

section Strings

theorem natural?_of_control :
    ∀ n < 32, Text.natural? 16 ['0', '0', hexDigit (n / 16), hexDigit (n % 16)] = some n := by
  decide

theorem string?_plain {c : Char} (noQuote : c ≠ '\x22') (noEscape : c ≠ '\\')
    (printable : 0x20 ≤ c.toNat) (rest : List Char) :
    string? (c :: rest) = (fun r => (c.toNat :: r.1, r.2)) <$> string? rest := by
  rw [string?.eq_def]
  split
  · rename_i empty
    cases empty
  · rename_i same
    cases same
    exact absurd rfl noQuote
  · rename_i same
    cases same
    exact absurd rfl noEscape
  · rename_i same
    cases same
    exact absurd rfl noEscape
  · rename_i same
    cases same
    have allowed : c ≠ '\\' ∧ 0x20 ≤ c.toNat := ⟨noEscape, printable⟩
    rw [guard, if_pos allowed]
    cases string? rest <;> rfl

theorem string?_short {e : Char} {unit : Nat} (noUnit : e ≠ 'u') (short : unescape? e = some unit)
    (rest : List Char) :
    string? ('\\' :: e :: rest) = (fun r => (unit :: r.1, r.2)) <$> string? rest := by
  rw [string?.eq_def]
  split
  · rename_i empty
    cases empty
  · rename_i same
    cases same
  · rename_i same
    cases same
    exact absurd rfl noUnit
  · rename_i same
    cases same
    rw [short]
    cases string? rest <;> rfl
  · rename_i noShort same
    cases same
    exact (noShort e rest rfl rfl).elim

theorem string?_unit {n : Nat} (control : n < 32) (rest : List Char) :
    string? ('\\' :: 'u' :: '0' :: '0' :: hexDigit (n / 16) :: hexDigit (n % 16) :: rest) =
      (fun r => (n :: r.1, r.2)) <$> string? rest := by
  rw [string?, natural?_of_control n control]
  cases string? rest <;> rfl

theorem string?_escape (c : Char) (rest : List Char) :
    string? (escape c ++ rest) = (fun r => (c.toNat :: r.1, r.2)) <$> string? rest := by
  unfold escape
  split_ifs with isQuote isEscape isBack isFeed isLine isReturn isTab control
  · subst isQuote
    exact string?_short (by decide) rfl rest
  · subst isEscape
    exact string?_short (by decide) rfl rest
  · subst isBack
    exact string?_short (by decide) rfl rest
  · subst isFeed
    exact string?_short (by decide) rfl rest
  · subst isLine
    exact string?_short (by decide) rfl rest
  · subst isReturn
    exact string?_short (by decide) rfl rest
  · subst isTab
    exact string?_short (by decide) rfl rest
  · exact string?_unit control rest
  · exact string?_plain isQuote isEscape (by omega) rest

theorem string?_quoted (cs rest : List Char) :
    string? (cs.flatMap escape ++ '\x22' :: rest) = some (cs.map Char.toNat, rest) := by
  induction cs with
  | nil => rfl
  | cons c cs ih =>
    rw [List.flatMap_cons, List.append_assoc, string?_escape, ih]
    rfl

theorem not_surrogate (c : Char) : isHigh c.toNat = false ∧ isLow c.toNat = false := by
  have valid : c.toNat < 0xd800 ∨ 0xdfff < c.toNat ∧ c.toNat < 0x110000 := c.valid
  simp only [isHigh, isLow, Bool.and_eq_false_iff, decide_eq_false_iff_not]
  omega

theorem join?_map_toNat (cs : List Char) : join? (cs.map Char.toNat) = some cs := by
  induction cs with
  | nil => rfl
  | cons c cs ih =>
    obtain ⟨noHigh, noLow⟩ := not_surrogate c
    cases cs with
    | nil => simp [join?, noHigh, noLow]
    | cons d cs =>
      rw [List.map_cons, List.map_cons, join?, ← List.map_cons, ih, noHigh, noLow]
      simp

theorem first?_quote (s : String) (rest : List Char) :
    first? ((quote s).toList ++ rest) = some (.string (some s), rest) := by
  rw [quote, String.toList_ofList, List.append_assoc, List.cons_append, List.cons_append, first?,
    List.nil_append, string?_quoted]
  simp [join?_map_toNat]

end Strings

section Numbers

variable {cs rest ds r : List Char}

def EndsNumber (rest : List Char) : Prop :=
  ∀ c ∈ rest.head?, c.isDigit = false ∧ c ≠ '.' ∧ c ≠ 'e' ∧ c ≠ 'E'

theorem takeWhile_append_of_ends (ends : EndsNumber rest) (cs : List Char) :
    (cs ++ rest).takeWhile Char.isDigit = cs.takeWhile Char.isDigit := by
  induction cs with
  | nil =>
    cases rest with
    | nil => rfl
    | cons c rest => simp [(ends c rfl).1]
  | cons c cs ih =>
    rw [List.cons_append, List.takeWhile_cons, List.takeWhile_cons, ih]

theorem dropWhile_append_of_ends (ends : EndsNumber rest) (cs : List Char) :
    (cs ++ rest).dropWhile Char.isDigit = cs.dropWhile Char.isDigit ++ rest := by
  induction cs with
  | nil =>
    cases rest with
    | nil => rfl
    | cons c rest => simp [(ends c rfl).1]
  | cons c cs ih =>
    rw [List.cons_append, List.dropWhile_cons, List.dropWhile_cons, ih]
    split <;> rfl

theorem digits?_eq_some :
    digits? cs = some (ds, r) ↔
      ds ≠ [] ∧ cs.takeWhile Char.isDigit = ds ∧ cs.dropWhile Char.isDigit = r := by
  rw [digits?, List.span_eq_takeWhile_dropWhile]
  split
  · rename_i none
    simp only [Prod.mk.injEq] at none
    rw [none.1]
    constructor
    · intro h
      cases h
    · rintro ⟨nonempty, rfl, -⟩
      exact absurd rfl nonempty
  · rename_i ds' r' nonempty same
    cases same
    constructor
    · intro h
      cases h
      exact ⟨nonempty, rfl, rfl⟩
    · rintro ⟨-, rfl, rfl⟩
      rfl

theorem digits?_append (read : digits? cs = some (ds, r)) (ends : EndsNumber rest) :
    digits? (cs ++ rest) = some (ds, r ++ rest) := by
  obtain ⟨nonempty, rfl, rfl⟩ := digits?_eq_some.mp read
  rw [digits?_eq_some, takeWhile_append_of_ends ends, dropWhile_append_of_ends ends]
  exact ⟨nonempty, rfl, rfl⟩

theorem whole?_of_ne {c : Char} (noZero : c ≠ '0') : whole? (c :: cs) = digits? (c :: cs) := by
  rw [whole?.eq_def]
  split
  · rename_i same
    cases same
    exact absurd rfl noZero
  · rfl

theorem whole?_append (read : whole? cs = some (ds, r)) (ends : EndsNumber rest) :
    whole? (cs ++ rest) = some (ds, r ++ rest) := by
  cases cs with
  | nil => cases read
  | cons c cs =>
    by_cases zero : c = '0'
    · subst zero
      cases read
      rfl
    · rw [whole?_of_ne zero] at read
      rw [List.cons_append, whole?_of_ne zero]
      exact digits?_append read ends

theorem fraction?_of_ne {c : Char} (noPoint : c ≠ '.') :
    fraction? (c :: cs) = some (none, c :: cs) := by
  rw [fraction?.eq_def]
  split
  · rename_i same
    cases same
    exact absurd rfl noPoint
  · rfl

theorem fraction?_append {places? : Option (List Char)} (read : fraction? cs = some (places?, r))
    (ends : EndsNumber rest) : fraction? (cs ++ rest) = some (places?, r ++ rest) := by
  cases cs with
  | nil =>
    cases read
    cases rest with
    | nil => rfl
    | cons c rest => exact fraction?_of_ne (ends c rfl).2.1
  | cons c cs =>
    by_cases point : c = '.'
    · subst point
      obtain ⟨⟨ds, after⟩, found, same⟩ := Option.map_eq_some_iff.mp read
      cases same
      rw [List.cons_append, fraction?, digits?_append found ends]
      rfl
    · rw [fraction?_of_ne point] at read
      cases read
      exact fraction?_of_ne point

def powerSign : List Char → Bool × List Char
  | '+' :: cs => (false, cs)
  | '-' :: cs => (true, cs)
  | cs => (false, cs)

theorem powerSign_of_ne {c : Char} (noPlus : c ≠ '+') (noMinus : c ≠ '-') :
    powerSign (c :: cs) = (false, c :: cs) := by
  rw [powerSign.eq_def]
  split
  · rename_i same
    cases same
    exact absurd rfl noPlus
  · rename_i same
    cases same
    exact absurd rfl noMinus
  · rfl

theorem powerSign_append {c : Char} :
    powerSign (c :: cs ++ rest) = ((powerSign (c :: cs)).1, (powerSign (c :: cs)).2 ++ rest) := by
  by_cases plus : c = '+'
  · subst plus
    rfl
  · by_cases minus : c = '-'
    · subst minus
      rfl
    · rw [List.cons_append, powerSign_of_ne plus minus, powerSign_of_ne plus minus]
      rfl

theorem power?_of_mark {c : Char} (mark : c = 'e' ∨ c = 'E') :
    Token.power? (c :: cs) = (fun found => (some ((powerSign cs).1, found.1), found.2)) <$>
      digits? (powerSign cs).2 := by
  unfold Token.power? powerSign
  exact (if_pos mark).trans rfl

theorem power?_of_no_mark {c : Char} (noMark : ¬ (c = 'e' ∨ c = 'E')) :
    Token.power? (c :: cs) = some (none, c :: cs) := by
  unfold Token.power?
  dsimp only
  rw [if_neg noMark]

theorem power?_append {written : Option (Bool × List Char)}
    (read : Token.power? cs = some (written, r)) (ends : EndsNumber rest) :
    Token.power? (cs ++ rest) = some (written, r ++ rest) := by
  cases cs with
  | nil =>
    cases read
    cases rest with
    | nil => rfl
    | cons c rest =>
      apply power?_of_no_mark
      rintro (same | same)
      · exact (ends c rfl).2.2.1 same
      · exact (ends c rfl).2.2.2 same
  | cons c cs =>
    by_cases mark : c = 'e' ∨ c = 'E'
    · rw [power?_of_mark mark] at read
      obtain ⟨⟨ds, after⟩, found, same⟩ := Option.map_eq_some_iff.mp read
      cases same
      cases cs with
      | nil => cases found
      | cons sign cs =>
        rw [List.cons_append, power?_of_mark mark, powerSign_append, digits?_append found ends]
        rfl
    · rw [power?_of_no_mark mark] at read
      cases read
      exact power?_of_no_mark mark

def unsigned? (negative : Bool) (cs : List Char) : Option (Numeral × List Char) := do
  let (whole, cs) ← whole? cs
  let (fraction, cs) ← fraction? cs
  let (power, cs) ← Token.power? cs
  return ({ negative, whole, fraction? := fraction, power? := power }, cs)

theorem number?_minus (cs : List Char) : number? ('-' :: cs) = unsigned? true cs := rfl

theorem number?_of_ne {c : Char} (noMinus : c ≠ '-') :
    number? (c :: cs) = unsigned? false (c :: cs) := by
  unfold number? unsigned?
  split
  rename_i negative after same
  split at same
  · rename_i minus
    cases minus
    exact absurd rfl noMinus
  · cases same
    rfl

theorem unsigned?_append {negative : Bool} {n : Numeral}
    (read : unsigned? negative cs = some (n, r)) (ends : EndsNumber rest) :
    unsigned? negative (cs ++ rest) = some (n, r ++ rest) := by
  simp only [unsigned?, Option.bind_eq_bind, Option.bind_eq_some_iff, Prod.exists, pure,
    Option.some.injEq, Prod.mk.injEq] at read ⊢
  obtain ⟨whole, afterWhole, readWhole, fraction, afterFraction, readFraction, power, after,
    readPower, rfl, rfl⟩ := read
  exact ⟨whole, afterWhole ++ rest, whole?_append readWhole ends, fraction, afterFraction ++ rest,
    fraction?_append readFraction ends, power, after ++ rest, power?_append readPower ends, rfl, rfl⟩

theorem number?_append {n : Numeral} (read : number? cs = some (n, r)) (ends : EndsNumber rest) :
    number? (cs ++ rest) = some (n, r ++ rest) := by
  cases cs with
  | nil => cases read
  | cons c cs =>
    by_cases minus : c = '-'
    · subst minus
      exact unsigned?_append read ends
    · rw [number?_of_ne minus] at read
      rw [List.cons_append, number?_of_ne minus]
      exact unsigned?_append read ends

theorem digits?_head {c : Char} {found : List Char × List Char}
    (read : digits? (c :: cs) = some found) : c.isDigit := by
  obtain ⟨nonempty, taken, -⟩ := digits?_eq_some.mp read
  by_contra noDigit
  rw [List.takeWhile_cons_of_neg noDigit] at taken
  exact nonempty taken.symm

theorem number?_head {c : Char} {found : Numeral × List Char}
    (read : number? (c :: cs) = some found) : c = '-' ∨ c.isDigit := by
  by_cases minus : c = '-'
  · exact .inl minus
  · right
    rw [number?_of_ne minus, unsigned?] at read
    obtain ⟨found, readWhole, -⟩ := Option.bind_eq_some_iff.mp read
    by_cases zero : c = '0'
    · subst zero
      rfl
    · rw [whole?_of_ne zero] at readWhole
      exact digits?_head readWhole

theorem decimal_toDigits (n : Nat) : Text.decimal (Nat.toDigits 10 n) = n := by
  have digits : Text.decimal (Nat.toDigits 10 n) = Nat.ofDigitChars 10 (Nat.toDigits 10 n) 0 :=
    (Nat.ofDigitChars_eq_foldl).symm
  rw [digits, Nat.ofDigitChars_ten_toDigits]

theorem head?_toDigits {n : Nat} (positive : 0 < n) : (Nat.toDigits 10 n).head? ≠ some '0' := by
  induction n using Nat.strongRecOn with
  | _ n ih =>
    by_cases small : n < 10
    · rw [Nat.toDigits_of_lt_base small, List.head?_cons]
      have cases : ∀ m < 10, 0 < m → some m.digitChar ≠ some '0' := by decide
      exact cases n small positive
    · have before := ih (n / 10) (by omega) (by omega)
      rw [Nat.toDigits_of_base_le (by decide) (by omega), List.head?_append]
      cases digits : Nat.toDigits 10 (n / 10) with
      | nil => exact absurd digits Nat.toDigits_ne_nil
      | cons c cs =>
        rw [digits] at before
        exact before

theorem digits?_toDigits (n : Nat) :
    digits? (Nat.toDigits 10 n) = some (Nat.toDigits 10 n, []) := by
  have all : ∀ c ∈ Nat.toDigits 10 n, c.isDigit :=
    fun c member => Nat.isDigit_of_mem_toDigits (by decide) (by decide) member
  rw [digits?_eq_some]
  exact ⟨Nat.toDigits_ne_nil, List.takeWhile_eq_self_iff.mpr all, List.dropWhile_eq_nil_iff.mpr all⟩

theorem unsigned?_toDigits (negative : Bool) (n : Nat) :
    unsigned? negative (Nat.toDigits 10 n) =
      some (⟨negative, Nat.toDigits 10 n, none, none⟩, []) := by
  have whole : whole? (Nat.toDigits 10 n) = some (Nat.toDigits 10 n, []) := by
    rcases Nat.eq_zero_or_pos n with rfl | positive
    · rfl
    · have read := digits?_toDigits n
      have noZero := head?_toDigits positive
      cases digits : Nat.toDigits 10 n with
      | nil => exact absurd digits Nat.toDigits_ne_nil
      | cons c cs =>
        rw [digits] at read noZero
        rw [whole?_of_ne fun same => noZero (by rw [same, List.head?_cons]), read]
  rw [unsigned?, whole]
  rfl

theorem toDigits_head_ne_minus {n : Nat} {c : Char} (digits : Nat.toDigits 10 n = c :: cs) :
    c ≠ '-' := by
  have isDigit : c.isDigit :=
    Nat.isDigit_of_mem_toDigits (by decide) (by decide) (digits ▸ List.mem_cons_self)
  rintro rfl
  cases isDigit

theorem number?_int (n : Int) :
    number? (toString n).toList =
      some (⟨decide (n < 0), Nat.toDigits 10 n.natAbs, none, none⟩, []) := by
  cases n with
  | ofNat m =>
    have text : (toString (Int.ofNat m)).toList = Nat.toDigits 10 m := Nat.toList_repr
    rw [text]
    have read := unsigned?_toDigits false m
    cases digits : Nat.toDigits 10 m with
    | nil => exact absurd digits Nat.toDigits_ne_nil
    | cons c cs =>
      rw [digits] at read
      rw [number?_of_ne (toDigits_head_ne_minus digits), read, ← digits]
      rfl
  | negSucc m =>
    have text : (toString (Int.negSucc m)).toList = '-' :: Nat.toDigits 10 (m + 1) := by
      have split : toString (Int.negSucc m) = "-" ++ Nat.repr (m + 1) := rfl
      rw [split, String.toList_append, Nat.toList_repr]
      rfl
    have negative : decide (Int.negSucc m < 0) = true := decide_eq_true (Int.negSucc_lt_zero m)
    rw [text, number?_minus, unsigned?_toDigits, negative]
    rfl

theorem value?_int {n : Int} (fits : fitsEither 64 n) :
    Numeral.value? ⟨decide (n < 0), Nat.toDigits 10 n.natAbs, none, none⟩ = some (.int n) := by
  have whole : (if decide (n < 0) = true then -((n.natAbs : Nat) : Int) else (n.natAbs : Nat)) = n := by
    split <;> rename_i sign <;> simp at sign <;> omega
  have positive : decide (n < 0) = true → 0 < n.natAbs := by
    intro negative
    simp at negative
    omega
  unfold Numeral.value?
  dsimp only
  rw [decimal_toDigits, whole, if_pos ⟨rfl, rfl, positive, fits⟩]

theorem isMark_of_number {c : Char} (start : c = '-' ∨ c.isDigit) : isMark c = false := by
  by_contra mark
  simp only [isMark, Bool.not_eq_false, Bool.or_eq_true, beq_iff_eq] at mark
  rcases mark with ((((rfl | rfl) | rfl) | rfl) | rfl) | rfl <;>
    rcases start with same | isDigit <;> contradiction

theorem first?_number {n : Numeral} (read : number? cs = some (n, [])) (ends : EndsNumber rest) :
    first? (cs ++ rest) = some (.scalar n.value?, rest) := by
  have whole := number?_append read ends
  cases cs with
  | nil => cases read
  | cons c cs =>
    have start := number?_head read
    rw [List.cons_append] at whole ⊢
    rw [first?.eq_def]
    split
    case h_5 same =>
      cases same
      rw [isMark_of_number start, whole]
      rfl
    case h_6 same => cases same
    -- The other tokens start with characters that no number starts with.
    all_goals
      rename_i same
      obtain ⟨rfl, -⟩ := List.cons.inj same
      rcases start with minus | isDigit <;> contradiction

end Numbers

theorem first?_mark {c : Char} (mark : isMark c) (rest : List Char) :
    first? (c :: rest) = some (.mark c, rest) := by
  simp only [isMark, Bool.or_eq_true, beq_iff_eq] at mark
  rcases mark with ((((rfl | rfl) | rfl) | rfl) | rfl) | rfl <;> rfl

end Token
end Json

def Double.ReadsBack (x : Double) : Prop :=
  ∃ n, Json.Token.number? (x.text Json.doubleFormat).toList = some (n, []) ∧
    n.value? = some (.double x)

namespace Scalar

def ReadsBack : Scalar → Prop
  | .int n => fitsEither 64 n
  | .double x => x.ReadsBack
  | _ => True

def token : Scalar → Json.Token
  | .string s => .string (some s)
  | s => .scalar (some s)

open Json Token in
theorem first?_text {s : Scalar} (back : s.ReadsBack) {rest : List Char}
    (ends : EndsNumber rest) : first? (s.text.toList ++ rest) = some (s.token, rest) := by
  cases s with
  | null => rfl
  | bool b => cases b <;> rfl
  | int n =>
    rw [text, first?_number (number?_int n) ends, value?_int back]
    rfl
  | double x =>
    obtain ⟨n, read, value⟩ := back
    rw [text, first?_number read ends, value]
    rfl
  | string s => exact first?_quote s rest

end Scalar
end SchemaSplit
