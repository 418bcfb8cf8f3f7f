import SchemaSplit.TypeScript.Printer
import SchemaSplit.Proofs.Double
import SchemaSplit.Proofs.Scan

namespace SchemaSplit.TypeScript

theorem isIdentifierChar_of_isStart {c : Char} (start : isIdentifierStart c) :
    isIdentifierChar c := by
  simp only [isIdentifierStart, isIdentifierChar, Char.isAlphanum, Bool.or_eq_true] at start ⊢
  tauto

/-- The characters of identifiers. In ASCII they are letters, digits, `_` and `$`; which others there
    are is left open. -/
structure Letters where
  isStart : Char → Bool
  isPart : Char → Bool
  start_ascii : ∀ c : Char, c.toNat < 128 → isStart c = isIdentifierStart c
  part_ascii : ∀ c : Char, c.toNat < 128 → isPart c = isIdentifierChar c
  part_of_start : ∀ c : Char, isStart c → isPart c

inductive Token where
  | word (name : String)
  /-- A string literal. -/
  | text (value : String)
  | numeral (digits : String)
  | mark (c : Char)
  deriving DecidableEq, Repr

namespace Token

def marks : List Char :=
  ['(', ')', '[', ']', '\x7b', '\x7d', '<', '>', ',', ':', ';', '?', '|', '&', '-']

def isMark (c : Char) : Bool := marks.contains c

def isGlue (text : String) : Bool :=
  !text.toList.isEmpty && text.toList.all fun c => Json.Token.isSpace c || isMark c

def marksOf (text : String) : List Token := (text.toList.filter isMark).map .mark

def unescape? : Char → Option Nat
  | 'b' => some 0x08
  | 't' => some 0x09
  | 'n' => some 0x0a
  | 'v' => some 0x0b
  | 'f' => some 0x0c
  | 'r' => some 0x0d
  | 'u' | 'x' | '\n' | '\r' | '\u2028' | '\u2029' => none
  | c => if c.isDigit then none else some c.toNat

def units? : List Char → Option (List Nat × List Char)
  | [] => none
  | '\x22' :: rest => some ([], rest)
  | '\\' :: 'x' :: a :: b :: rest => do
    let unit ← Text.natural? 16 [a, b]
    let (units, rest) ← units? rest
    return (unit :: units, rest)
  | '\\' :: 'u' :: a :: b :: c :: d :: rest => do
    let unit ← Text.natural? 16 [a, b, c, d]
    let (units, rest) ← units? rest
    return (unit :: units, rest)
  | '\\' :: c :: rest => do
    let unit ← unescape? c
    let (units, rest) ← units? rest
    return (unit :: units, rest)
  | c :: rest => do
    guard (c ≠ '\\' ∧ c ≠ '\n' ∧ c ≠ '\r')
    let (units, rest) ← units? rest
    return (c.toNat :: units, rest)

def numeral? (letters : Letters) (cs : List Char) : Option (Token × List Char) := do
  let (whole, cs) ← Json.Token.whole? cs
  let (places?, cs) ← Json.Token.fraction? cs
  -- No word follows a numeral at once, and so no power of ten either.
  guard (!cs.head?.any letters.isPart)
  return (.numeral (String.ofList (whole ++ places?.elim [] ('.' :: ·))), cs)

def first? (letters : Letters) : List Char → Option (Token × List Char)
  | [] => none
  | c :: rest =>
    if c = '\x22' then do
      let (units, rest) ← units? rest
      return (.text (String.ofList (← Json.Token.join? units)), rest)
    else if letters.isStart c then
      some (.word (String.ofList ((c :: rest).takeWhile letters.isPart)),
        (c :: rest).dropWhile letters.isPart)
    else if isMark c then some (.mark c, rest)
    else numeral? letters (c :: rest)

def lex? (letters : Letters) (cs : List Char) : Option (List Token) :=
  Text.scan? Json.Token.isSpace (first? letters) cs.length cs

end Token

namespace Letters

open Token

variable (letters : Letters)

def ascii : Letters where
  isStart := isIdentifierStart
  isPart := isIdentifierChar
  start_ascii _ _ := rfl
  part_ascii _ _ := rfl
  part_of_start _ := isIdentifierChar_of_isStart

def IsIdentifier (name : String) : Prop :=
  (∃ c ∈ name.toList.head?, letters.isStart c) ∧ ∀ c ∈ name.toList, letters.isPart c

def Ends (rest : List Char) : Prop := ∀ c ∈ rest.head?, letters.isPart c = false ∧ c ≠ '.'

abbrev Scans : List Char → List Token → Prop := Text.Scans Json.Token.isSpace (first? letters)

/-- A text that has these tokens, whatever follows that does not go on with the last. -/
def Spells (text : String) (ts : List Token) : Prop :=
  ∀ ⦃rest : List Char⦄ ⦃us : List Token⦄, letters.Ends rest → letters.Scans rest us →
    letters.Scans (text.toList ++ rest) (ts ++ us)

variable {letters}

theorem isAlpha_eq (c : Char) :
    c.isAlpha = (decide (c.val ≥ 'A'.val ∧ c.val ≤ 'Z'.val) ||
      decide (c.val ≥ 'a'.val) && decide (c.val ≤ 'z'.val)) := rfl

theorem ascii_of_isIdentifierChar {c : Char} (part : isIdentifierChar c) : c.toNat < 128 := by
  simp only [isIdentifierChar, Char.isAlphanum, isAlpha_eq, Char.isDigit, Bool.or_eq_true,
    Bool.and_eq_true, decide_eq_true_eq, beq_iff_eq, UInt32.le_iff_toNat_le, ge_iff_le] at part
  have value : c.toNat = c.val.toNat := rfl
  have upper : 'Z'.val.toNat = 90 := rfl
  have lower : 'z'.val.toNat = 122 := rfl
  have digit : '9'.val.toNat = 57 := rfl
  rcases part with ((letter | digits) | rfl) | rfl
  · omega
  · omega
  · decide
  · decide

theorem isIdentifierChar_of_isDigit {c : Char} (digit : c.isDigit) : isIdentifierChar c := by
  simp [isIdentifierChar, Char.isAlphanum, digit]

theorem isPart_of_isDigit {c : Char} (digit : c.isDigit) : letters.isPart c := by
  have part := isIdentifierChar_of_isDigit digit
  rw [letters.part_ascii c (ascii_of_isIdentifierChar part), part]

theorem not_isStart_of_isDigit {c : Char} (digit : c.isDigit) : letters.isStart c = false := by
  have part := isIdentifierChar_of_isDigit digit
  rw [letters.start_ascii c (ascii_of_isIdentifierChar part)]
  by_contra start
  simp only [isIdentifierStart, isAlpha_eq, Char.isDigit, Bool.not_eq_false, Bool.or_eq_true,
    Bool.and_eq_true, decide_eq_true_eq, beq_iff_eq, UInt32.le_iff_toNat_le, ge_iff_le]
    at start digit
  have upper : 'A'.val.toNat = 65 := rfl
  have lower : 'a'.val.toNat = 97 := rfl
  have nine : '9'.val.toNat = 57 := rfl
  rcases start with (letter | rfl) | rfl
  · omega
  · revert digit
    decide
  · revert digit
    decide

theorem apart_of_mark {c : Char} (glue : Json.Token.isSpace c || isMark c || c == '\x22') :
    letters.isStart c = false ∧ letters.isPart c = false ∧ c ≠ '.' := by
  have listed : c ∈ [' ', '\t', '\n', '\r', '\x22'] ++ marks := by
    simp only [Json.Token.isSpace, isMark, Bool.or_eq_true, beq_iff_eq, List.contains_iff_mem] at glue
    simp only [List.cons_append, List.nil_append, List.mem_cons]
    tauto
  -- A list is checked, not a bounded quantifier, which might be decided over all characters.
  have known : ([' ', '\t', '\n', '\r', '\x22'] ++ marks).all fun c => decide (c.toNat < 128 ∧
      isIdentifierStart c = false ∧ isIdentifierChar c = false ∧ c ≠ '.') := by decide
  obtain ⟨ascii, noStart, noPart, noPoint⟩ := of_decide_eq_true (List.all_eq_true.mp known c listed)
  rw [letters.start_ascii c ascii, letters.part_ascii c ascii]
  exact ⟨noStart, noPart, noPoint⟩

theorem Ends.not_isDigit {rest : List Char} (ends : letters.Ends rest) :
    ∀ c ∈ rest.head?, c.isDigit = false := by
  intro c first
  by_contra digit
  have part := isIdentifierChar_of_isDigit (by simpa using digit)
  rw [← letters.part_ascii c (ascii_of_isIdentifierChar part), (ends c first).1] at part
  cases part

theorem ends_of_glue {text : String} (glue : isGlue text) (rest : List Char) :
    letters.Ends (text.toList ++ rest) := by
  intro c first
  cases chars : text.toList with
  | nil =>
    rw [isGlue, chars] at glue
    cases glue
  | cons d cs =>
    rw [chars] at first
    cases first
    rw [isGlue, chars, List.all_cons, Bool.and_eq_true, Bool.and_eq_true] at glue
    exact (apart_of_mark (by rw [glue.2.1, Bool.true_or])).2

end Letters

namespace Token

variable {letters : Letters}

section Literals

theorem units?_plain {c : Char} (noQuote : c ≠ '\x22') (noEscape : c ≠ '\\') (noFeed : c ≠ '\n')
    (noReturn : c ≠ '\r') (rest : List Char) :
    units? (c :: rest) = (fun r => (c.toNat :: r.1, r.2)) <$> units? rest := by
  rw [units?.eq_def]
  split
  case h_1 empty => cases empty
  case h_6 same =>
    cases same
    have allowed : c ≠ '\\' ∧ c ≠ '\n' ∧ c ≠ '\r' := ⟨noEscape, noFeed, noReturn⟩
    rw [guard, if_pos allowed]
    cases units? rest <;> rfl
  all_goals
    rename_i same
    cases same
    contradiction

theorem units?_short {e : Char} {unit : Nat} (noByte : e ≠ 'x') (noUnit : e ≠ 'u')
    (short : unescape? e = some unit) (rest : List Char) :
    units? ('\\' :: e :: rest) = (fun r => (unit :: r.1, r.2)) <$> units? rest := by
  rw [units?.eq_def]
  split
  case h_5 same =>
    cases same
    rw [short]
    cases units? rest <;> rfl
  case h_6 noShort same =>
    cases same
    exact (noShort e rest rfl rfl).elim
  all_goals
    rename_i same
    cases same
    try contradiction

theorem units?_escape (c : Char) (rest : List Char) :
    units? (escape c ++ rest) = (fun r => (c.toNat :: r.1, r.2)) <$> units? rest := by
  unfold escape
  split_ifs with isEscape isQuote isFeed isReturn
  · subst isEscape
    exact units?_short (by decide) (by decide) rfl rest
  · subst isQuote
    exact units?_short (by decide) (by decide) rfl rest
  · subst isFeed
    exact units?_short (by decide) (by decide) rfl rest
  · subst isReturn
    exact units?_short (by decide) (by decide) rfl rest
  · exact units?_plain isQuote isEscape isFeed isReturn rest

theorem units?_quoted (cs rest : List Char) :
    units? (cs.flatMap escape ++ '\x22' :: rest) = some (cs.map Char.toNat, rest) := by
  induction cs with
  | nil => rfl
  | cons c cs ih =>
    rw [List.flatMap_cons, List.append_assoc, units?_escape, ih]
    rfl

theorem first?_stringLiteral (s : String) (rest : List Char) :
    first? letters (stringLiteral s.toList ++ rest) = some (.text s, rest) := by
  rw [stringLiteral, List.append_assoc, List.cons_append, List.cons_append, first?, if_pos rfl,
    List.nil_append, units?_quoted]
  simp [Json.Token.join?_map_toNat]

end Literals

section Numerals

theorem digits?_run {ds rest : List Char} (nonempty : ds ≠ []) (digits : ∀ c ∈ ds, c.isDigit)
    (ends : ∀ c ∈ rest.head?, c.isDigit = false) :
    Json.Token.digits? (ds ++ rest) = some (ds, rest) := by
  have stop : rest.takeWhile Char.isDigit = [] ∧ rest.dropWhile Char.isDigit = rest := by
    cases rest with
    | nil => exact ⟨rfl, rfl⟩
    | cons c rest => simp [ends c rfl]
  rw [Json.Token.digits?_eq_some, List.takeWhile_append_of_pos digits,
    List.dropWhile_append_of_pos digits, stop.1, stop.2, List.append_nil]
  exact ⟨nonempty, rfl, rfl⟩

theorem whole?_isWhole {ds rest : List Char} (whole : IsWhole ds)
    (ends : ∀ c ∈ rest.head?, c.isDigit = false) :
    Json.Token.whole? (ds ++ rest) = some (ds, rest) := by
  rcases whole with rfl | ⟨digits, c, first, noZero⟩
  · rfl
  · cases ds with
    | nil => cases first
    | cons d ds =>
      cases first
      rw [List.cons_append, Json.Token.whole?_of_ne noZero, ← List.cons_append]
      exact digits?_run (List.cons_ne_nil _ _) digits ends

theorem numeral?_append {ds rest : List Char} (numeral : IsNumeral ds) (ends : letters.Ends rest) :
    numeral? letters (ds ++ rest) = some (.numeral (String.ofList ds), rest) := by
  have noPart : rest.head?.any letters.isPart = false := by
    cases first : rest.head? with
    | none => rfl
    | some c => exact (ends c first).1
  have noPlaces : Json.Token.fraction? rest = some (none, rest) := by
    cases rest with
    | nil => rfl
    | cons c rest => exact Json.Token.fraction?_of_ne (ends c rfl).2
  unfold numeral?
  cases numeral with
  | whole whole =>
    rw [whole?_isWhole whole ends.not_isDigit]
    simp [noPlaces, noPart, guard]
  | @point ds places whole nonempty digits =>
    have point : ∀ c ∈ ('.' :: places ++ rest).head?, c.isDigit = false := by
      intro c first
      cases first
      rfl
    rw [List.append_assoc, whole?_isWhole whole point]
    simp [Json.Token.fraction?, digits?_run nonempty digits ends.not_isDigit, noPart, guard]

theorem first?_numeral {ds rest : List Char} (numeral : IsNumeral ds) (ends : letters.Ends rest) :
    first? letters (ds ++ rest) = some (.numeral (String.ofList ds), rest) := by
  have read := numeral?_append numeral ends
  obtain ⟨c, tail, rfl, digit⟩ := numeral.head
  -- The digit at its start is no mark and starts neither a word nor a literal.
  have noMark : isMark c = false ∧ c ≠ '\x22' := by
    have none : marks.all fun c => !c.isDigit := by decide
    constructor
    · by_contra mark
      rw [isMark, Bool.not_eq_false, List.contains_iff_mem] at mark
      have noDigit := List.all_eq_true.mp none c mark
      rw [digit] at noDigit
      cases noDigit
    · rintro rfl
      cases digit
  rw [List.cons_append] at read ⊢
  rw [first?, if_neg noMark.2, letters.not_isStart_of_isDigit digit, noMark.1]
  exact read

end Numerals

section Words

theorem first?_word {name : String} (identifier : letters.IsIdentifier name) {rest : List Char}
    (ends : letters.Ends rest) : first? letters (name.toList ++ rest) = some (.word name, rest) := by
  obtain ⟨⟨c, first, start⟩, parts⟩ := identifier
  have noQuote : c ≠ '\x22' := by
    rintro rfl
    rw [(letters.apart_of_mark rfl).1] at start
    cases start
  have stop : rest.takeWhile letters.isPart = [] ∧ rest.dropWhile letters.isPart = rest := by
    cases rest with
    | nil => exact ⟨rfl, rfl⟩
    | cons c rest => simp [(ends c rfl).1]
  have taken : (name.toList ++ rest).takeWhile letters.isPart = name.toList := by
    rw [List.takeWhile_append_of_pos parts, stop.1, List.append_nil]
  have left : (name.toList ++ rest).dropWhile letters.isPart = rest := by
    rw [List.dropWhile_append_of_pos parts, stop.2]
  have spelled : String.ofList name.toList = name := String.ofList_toList
  cases chars : name.toList with
  | nil =>
    rw [chars] at first
    cases first
  | cons d cs =>
    rw [chars] at first taken left spelled
    cases first
    rw [List.cons_append] at taken left ⊢
    rw [first?, if_neg noQuote, if_pos start, taken, left, spelled]

theorem first?_mark {c : Char} (mark : isMark c) (rest : List Char) :
    first? letters (c :: rest) = some (.mark c, rest) := by
  have noQuote : c ≠ '\x22' := by
    rintro rfl
    cases mark
  have apart : Json.Token.isSpace c || isMark c || c == '\x22' := by simp [mark]
  have noStart := (letters.apart_of_mark apart).1
  rw [first?, if_neg noQuote, noStart, mark]
  rfl

end Words

end Token

namespace Letters

open Token

variable {letters : Letters} {text left right : String} {ts us : List Token}

theorem Spells.token {t : Token} {c : Char} {cs : List Char} (chars : text.toList = c :: cs)
    (solid : Json.Token.isSpace c = false)
    (read : ∀ rest, letters.Ends rest → first? letters (text.toList ++ rest) = some (t, rest)) :
    letters.Spells text [t] := by
  intro rest us ends more
  have here := read rest ends
  rw [chars] at here ⊢
  exact .token solid here more

theorem isSpace_of_isPart {c : Char} (part : letters.isPart c) : Json.Token.isSpace c = false := by
  by_contra space
  rw [Bool.not_eq_false] at space
  rw [(letters.apart_of_mark (by rw [space]; rfl)).2.1] at part
  cases part

theorem Spells.word {name : String} (identifier : letters.IsIdentifier name) :
    letters.Spells name [.word name] := by
  obtain ⟨c, first, start⟩ := identifier.1
  cases chars : name.toList with
  | nil =>
    rw [chars] at first
    cases first
  | cons d cs =>
    rw [chars] at first
    cases first
    have solid := isSpace_of_isPart (letters.part_of_start c start)
    exact .token chars solid fun rest => first?_word identifier

theorem Spells.literal (s : String) :
    letters.Spells (String.ofList (stringLiteral s.toList)) [.text s] := by
  have chars : (String.ofList (stringLiteral s.toList)).toList = stringLiteral s.toList :=
    String.toList_ofList
  refine .token (chars.trans (List.cons_append ..)) rfl ?_
  intro rest ends
  rw [chars]
  exact first?_stringLiteral s rest

theorem Spells.numeral {ds : List Char} (numeral : IsNumeral ds) :
    letters.Spells (String.ofList ds) [.numeral (String.ofList ds)] := by
  obtain ⟨c, tail, rfl, digit⟩ := numeral.head
  have solid := isSpace_of_isPart (letters.isPart_of_isDigit digit)
  refine .token String.toList_ofList solid ?_
  intro rest ends
  rw [String.toList_ofList]
  exact first?_numeral numeral ends

theorem isSpace_of_isMark {c : Char} (mark : isMark c) : Json.Token.isSpace c = false := by
  have solid : marks.all fun c => !Json.Token.isSpace c := by decide
  have blank := List.all_eq_true.mp solid c (List.contains_iff_mem.mp mark)
  simpa using blank

theorem scans_glue (glue : isGlue text) {rest : List Char} (more : letters.Scans rest ts) :
    letters.Scans (text.toList ++ rest) (marksOf text ++ ts) := by
  rw [isGlue, Bool.and_eq_true, List.all_eq_true] at glue
  obtain ⟨-, all⟩ := glue
  unfold marksOf
  generalize text.toList = cs at all ⊢
  induction cs with
  | nil => exact more
  | cons c cs ih =>
    rw [List.forall_mem_cons] at all
    by_cases mark : isMark c
    · rw [List.filter_cons_of_pos mark]
      exact @Text.Scans.token _ _ _ c [] _ _ _ (isSpace_of_isMark mark) (first?_mark mark _)
        (ih all.2)
    · rw [List.filter_cons_of_neg mark]
      rw [Bool.or_eq_true] at all
      exact .space (all.1.resolve_right mark) (ih all.2)

variable (glue : isGlue text)
include glue

theorem Spells.ofGlue : letters.Spells text (marksOf text) := fun _ _ _ more => scans_glue glue more

theorem Spells.behind (spells : letters.Spells right us) :
    letters.Spells (text ++ right) (marksOf text ++ us) := by
  intro rest vs ends more
  rw [String.toList_append, List.append_assoc, List.append_assoc]
  exact scans_glue glue (spells ends more)

theorem Spells.before (spells : letters.Spells left ts) :
    letters.Spells (left ++ text) (ts ++ marksOf text) := by
  intro rest vs _ more
  rw [String.toList_append, List.append_assoc, List.append_assoc]
  exact spells (ends_of_glue glue rest) (scans_glue glue more)

theorem Spells.between (first : letters.Spells left ts) (second : letters.Spells right us) :
    letters.Spells (left ++ (text ++ right)) (ts ++ (marksOf text ++ us)) := by
  intro rest vs ends more
  rw [String.toList_append, String.toList_append, List.append_assoc, List.append_assoc,
    List.append_assoc, List.append_assoc]
  exact first (ends_of_glue glue _) (scans_glue glue (second ends more))

theorem Spells.intercalate {α : Type} {f : α → String} {g : α → List Token} {items : List α}
    (filled : items ≠ []) (all : ∀ item ∈ items, letters.Spells (f item) (g item)) :
    letters.Spells (text.intercalate (items.map f)) ((marksOf text).intercalate (items.map g)) := by
  induction items with
  | nil => exact absurd rfl filled
  | cons item items ih =>
    rw [List.forall_mem_cons] at all
    cases items with
    | nil => simpa using all.1
    | cons next items =>
      have others := ih (List.cons_ne_nil _ _) all.2
      simp only [List.map_cons] at others ⊢
      rw [String.intercalate_cons_cons, List.intercalate_cons_cons, String.append_assoc,
        List.append_assoc]
      exact Spells.between glue all.1 others

omit glue

theorem lex?_of_spells (spells : letters.Spells text ts) : lex? letters text.toList = some ts := by
  have ended : letters.Ends [] := nofun
  have whole := spells ended .nil
  rw [List.append_nil, List.append_nil] at whole
  exact Text.scan?_of_scans whole (Nat.le_refl _)

end Letters
end SchemaSplit.TypeScript
