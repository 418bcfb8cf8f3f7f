import SchemaSplit.Proofs.Text.IdentifierClass
import SchemaSplit.Proofs.TypeScript.Name
import SchemaSplit.Proofs.TypeScript.Token

/-!
Whether identifiers are legal names of declarations. They are made of alphanumeric characters, which
are nearly those of identifiers: number forms such as superscripts and circled letters are
alphanumeric and in no identifier, and digits of other scripts begin none. And of the words that name
no declaration, two are not reserved.
-/

namespace SchemaSplit.TypeScript

def Letters.unicode : Letters where
  isStart c := Text.isIdStart c || c == '_' || c == '$'
  isPart c := Text.isIdContinue c || c == '$'
  start_ascii c ascii := by rw [Text.isIdStart_of_ascii ascii, isIdentifierStart]
  part_ascii c ascii := by rw [Text.isIdContinue_of_ascii ascii, isIdentifierChar]
  part_of_start c start := by
    simp only [Bool.or_eq_true, beq_iff_eq] at start ⊢
    rcases start with (letter | rfl) | dollar
    · exact .inl (Text.isIdContinue_of_isIdStart letter)
    · exact .inl (Text.isIdContinue_of_ascii (by decide))
    · exact .inr dollar

/-- The words that name no declaration: the keywords, those reserved in strict mode, and the names of
    primitive types. -/
def illegalNames : List String :=
  ["await", "break", "case", "catch", "class", "const", "continue", "debugger", "default", "delete",
   "do", "else", "enum", "export", "extends", "false", "finally", "for", "function", "if", "import",
   "in", "instanceof", "new", "null", "return", "super", "switch", "this", "throw", "true", "try",
   "typeof", "var", "void", "while", "with", "yield"] ++
  ["implements", "interface", "let", "package", "private", "protected", "public", "static"] ++
  ["any", "bigint", "boolean", "never", "number", "object", "string", "symbol", "undefined",
   "unknown"]

def IsLegalName (name : String) : Prop := Letters.unicode.IsIdentifier name ∧ name ∉ illegalNames

section Segments

variable {isSplit : Char → Bool} {cs run : List Char}

theorem splitBy_ne_nil (isSplit : Char → Bool) (cs : List Char) : splitBy isSplit cs ≠ [] := by
  cases cs with
  | nil => exact List.cons_ne_nil _ _
  | cons c rest =>
    rw [splitBy]
    split
    · exact List.cons_ne_nil _ _
    · split <;> exact List.cons_ne_nil _ _

theorem mem_of_mem_splitBy (inside : run ∈ splitBy isSplit cs) :
    ∀ c ∈ run, c ∈ cs ∧ isSplit c = false := by
  induction cs generalizing run with
  | nil =>
    rw [List.mem_singleton.mp inside]
    exact nofun
  | cons c rest ih =>
    have later : ∀ {other}, other ∈ splitBy isSplit rest →
        ∀ x ∈ other, x ∈ c :: rest ∧ isSplit x = false :=
      fun among x member => (ih among x member).imp_left (List.mem_cons_of_mem c)
    rw [splitBy] at inside
    split at inside
    · rename_i none
      exact absurd none (splitBy_ne_nil isSplit rest)
    · rename_i first runs split
      rw [split, List.forall_mem_cons] at ih
      split at inside
      · rcases List.mem_cons.mp inside with rfl | among
        · exact nofun
        · exact later (split ▸ among)
      · rename_i kept
        rcases List.mem_cons.mp inside with rfl | among
        · rw [List.forall_mem_cons]
          exact ⟨⟨List.mem_cons_self, by simpa using kept⟩, later (split ▸ List.mem_cons_self)⟩
        · exact later (split ▸ List.mem_cons_of_mem _ among)

theorem mem_lastSegment? {path segment : List Char} (last : lastSegment? path = some segment) :
    ∀ c ∈ segment, c ∈ path ∧ c ≠ '.' := by
  have inside := List.mem_reverse.mp (List.mem_of_find?_eq_some last)
  intro c member
  obtain ⟨among, kept⟩ := mem_of_mem_splitBy inside c member
  exact ⟨among, by simpa using kept⟩

theorem mem_or_mem_of_mem_intercalate {between : List Char} {runs : List (List Char)} {c : Char}
    (inside : c ∈ between.intercalate runs) : c ∈ between ∨ ∃ run ∈ runs, c ∈ run := by
  induction runs with
  | nil => cases inside
  | cons run runs ih =>
    cases runs with
    | nil =>
      rw [List.intercalate_singleton] at inside
      exact .inr ⟨run, List.mem_singleton_self run, inside⟩
    | cons next rest =>
      rw [List.intercalate_cons_cons, List.mem_append, List.mem_append] at inside
      rcases inside with (here | here) | later
      · exact .inr ⟨run, List.mem_cons_self, here⟩
      · exact .inl here
      · exact (ih later).imp_right fun ⟨other, member, here⟩ =>
          ⟨other, List.mem_cons_of_mem run member, here⟩

end Segments

def keptText (name : String) : List Char :=
  ['_'].intercalate ((splitBy (fun c => !isPathChar c) name.toList).filterMap lastSegment?)

/-- A text whose characters are alphanumeric, underscores or dollar signs, with no digit in front,
    that is no reserved word. -/
structure IsWord (text : String) : Prop where
  chars : ∀ c ∈ text.toList, Text.isAlphanumeric c ∨ c = '_' ∨ c = '$'
  first : ∃ c ∈ text.toList.head?, ¬ c.isDigit
  unreserved : text ∉ reservedWords

theorem mem_keptText {name : String} :
    ∀ c ∈ keptText name, Text.isAlphanumeric c ∨ c = '_' ∨ c = '$' := by
  intro c inside
  rcases mem_or_mem_of_mem_intercalate inside with link | ⟨segment, member, within⟩
  · exact .inr (.inl (List.mem_singleton.mp link))
  · obtain ⟨path, among, last⟩ := List.mem_filterMap.mp member
    obtain ⟨inPath, noPoint⟩ := mem_lastSegment? last c within
    have stays := (mem_of_mem_splitBy among c inPath).2
    rw [Bool.not_eq_false', isPathChar] at stays
    simpa [noPoint, or_assoc] using stays

theorem typeIdentifier_cases (name : String) :
    keptText name = [] ∧ typeIdentifier name = "Anonymous" ∨
    (∃ c rest, keptText name = c :: rest ∧
      ((c.isDigit ∨ String.ofList (c :: rest) ∈ reservedWords) ∧
          typeIdentifier name = "_" ++ String.ofList (c :: rest) ∨
        ¬ c.isDigit ∧ String.ofList (c :: rest) ∉ reservedWords ∧
          typeIdentifier name = String.ofList (c :: rest))) := by
  have unfolded : typeIdentifier name =
      if (String.ofList (keptText name)).isEmpty then "Anonymous"
      else if (String.ofList (keptText name)).toList.head?.any Char.isDigit ||
          reservedWords.contains (String.ofList (keptText name)) then
        "_" ++ String.ofList (keptText name)
      else String.ofList (keptText name) := rfl
  rw [unfolded]
  cases kept : keptText name with
  | nil => exact .inl ⟨rfl, rfl⟩
  | cons c rest =>
    refine .inr ⟨c, rest, rfl, ?_⟩
    have notEmpty : (String.ofList (c :: rest)).isEmpty = false := by simp
    have marks : ((String.ofList (c :: rest)).toList.head?.any Char.isDigit ||
        reservedWords.contains (String.ofList (c :: rest))) = true ↔
          c.isDigit ∨ String.ofList (c :: rest) ∈ reservedWords := by
      rw [String.toList_ofList, List.head?_cons, Option.any_some, Bool.or_eq_true,
        List.contains_iff_mem]
    by_cases marked : c.isDigit ∨ String.ofList (c :: rest) ∈ reservedWords
    · exact .inl ⟨marked, by rw [notEmpty, if_neg Bool.false_ne_true, if_pos (marks.mpr marked)]⟩
    · have unmarked := not_or.mp marked
      refine .inr ⟨unmarked.1, unmarked.2, ?_⟩
      rw [notEmpty, if_neg Bool.false_ne_true, if_neg (marked ∘ marks.mp)]

theorem isWord_typeIdentifier (name : String) : IsWord (typeIdentifier name) := by
  obtain ⟨-, same⟩ | ⟨c, rest, kept, cases⟩ := typeIdentifier_cases name
  · have letters : "Anonymous".toList.all Char.isAlphanum := by decide +kernel
    rw [same]
    refine ⟨fun c inside => .inl ?_, ⟨'A', by decide, by decide⟩, by decide⟩
    exact Text.isAlphanumeric_of_isAlphanum (List.all_eq_true.mp letters c inside)
  have chars : ∀ d ∈ keptText name, Text.isAlphanumeric d ∨ d = '_' ∨ d = '$' := mem_keptText
  rw [kept] at chars
  obtain ⟨-, same⟩ | ⟨noDigit, unreserved, same⟩ := cases
  · rw [same]
    have text : ("_" ++ String.ofList (c :: rest)).toList = '_' :: c :: rest := by simp
    refine ⟨?_, ⟨'_', by rw [text]; rfl, by decide⟩, ?_⟩
    · rw [text, List.forall_mem_cons]
      exact ⟨.inr (.inl rfl), chars⟩
    · intro reserved
      have none : ∀ word ∈ reservedWords, word.toList.head? ≠ some '_' := by decide +kernel
      exact none _ reserved (by rw [text]; rfl)
  · rw [same]
    exact ⟨by rwa [String.toList_ofList], ⟨c, by simp, noDigit⟩, unreserved⟩

theorem isDigit_of_mem_toString {n : Nat} : ∀ c ∈ (toString n).toList, c.isDigit := by
  intro c inside
  exact isDigit_of_toDigits (Nat.toList_repr ▸ inside)

theorem IsWord.numbered {base : String} (word : IsWord base) (n : Nat) :
    IsWord (base ++ toString n) := by
  refine ⟨?_, ?_, ?_⟩
  · rw [String.toList_append, List.forall_mem_append]
    refine ⟨word.chars, fun c inside => .inl (Text.isAlphanumeric_of_isAlphanum ?_)⟩
    rw [Char.isAlphanum, isDigit_of_mem_toString c inside, Bool.or_true]
  · obtain ⟨c, first, noDigit⟩ := word.first
    refine ⟨c, ?_, noDigit⟩
    rw [String.toList_append, List.head?_append, first]
    rfl
  · intro reserved
    -- A number behind a word makes it no reserved one, as none of these has a digit.
    have none : reservedWords.all (·.toList.all (!·.isDigit)) := by decide +kernel
    obtain ⟨c, inside⟩ : ∃ c, c ∈ (toString n).toList :=
      List.exists_mem_of_ne_nil _ (Nat.toList_repr ▸ Nat.toDigits_ne_nil)
    have noDigit := List.all_eq_true.mp (List.all_eq_true.mp none _ reserved) c
      (by rw [String.toList_append]; exact List.mem_append_right _ inside)
    rw [isDigit_of_mem_toString c inside] at noDigit
    cases noDigit

section Characters

variable {c : Char}

theorem apart_of_isAlphanumeric (alphanumeric : Text.isAlphanumeric c) : c ≠ '_' ∧ c ≠ '$' := by
  constructor <;> rintro rfl <;> exact absurd alphanumeric (by decide +kernel)

theorem isStart_unicode_iff (stays : Text.isAlphanumeric c ∨ c = '_' ∨ c = '$') :
    Letters.unicode.isStart c ↔ (Text.isAlphanumeric c → Text.isIdStart c) := by
  by_cases alphanumeric : Text.isAlphanumeric c
  · obtain ⟨noUnderscore, noDollar⟩ := apart_of_isAlphanumeric alphanumeric
    simp [Letters.unicode, alphanumeric, noUnderscore, noDollar]
  · rcases stays.resolve_left alphanumeric with rfl | rfl <;> simp [Letters.unicode, alphanumeric]

theorem isPart_unicode_iff (stays : Text.isAlphanumeric c ∨ c = '_' ∨ c = '$') :
    Letters.unicode.isPart c ↔ (Text.isAlphanumeric c → Text.isIdContinue c) := by
  by_cases alphanumeric : Text.isAlphanumeric c
  · have noDollar := (apart_of_isAlphanumeric alphanumeric).2
    simp [Letters.unicode, alphanumeric, noDollar]
  · rcases stays.resolve_left alphanumeric with rfl | rfl
    · simp [Letters.unicode, alphanumeric, Text.isIdContinue]
    · simp [Letters.unicode, alphanumeric]

end Characters

structure HasLetters (cs : List Char) : Prop where
  first : ∀ c ∈ cs.head?, Text.isAlphanumeric c → c.isDigit ∨ Text.isIdStart c
  all : ∀ c ∈ cs, Text.isAlphanumeric c → Text.isIdContinue c

theorem hasLetters_iff {cs : List Char} :
    HasLetters cs ↔
      (cs.head?.all fun c => !Text.isAlphanumeric c || (c.isDigit || Text.isIdStart c)) ∧
        cs.all fun c => !Text.isAlphanumeric c || Text.isIdContinue c := by
  simp only [Option.all_eq_true, List.all_eq_true, Bool.or_eq_true, Bool.not_eq_true',
    ← Bool.not_eq_true, ← imp_iff_not_or]
  exact ⟨fun letters => ⟨letters.first, letters.all⟩, fun ⟨first, all⟩ => ⟨first, all⟩⟩

instance (cs : List Char) : Decidable (HasLetters cs) := decidable_of_iff' _ hasLetters_iff

theorem IsWord.isIdentifier_iff {text : String} (word : IsWord text) :
    Letters.unicode.IsIdentifier text ↔ HasLetters text.toList := by
  obtain ⟨c, first, noDigit⟩ := word.first
  have start : Letters.unicode.isStart c ↔ (Text.isAlphanumeric c → Text.isIdStart c) :=
    isStart_unicode_iff (word.chars c (List.mem_of_mem_head? first))
  constructor
  · rintro ⟨⟨d, same, isStart⟩, parts⟩
    obtain rfl := Option.mem_unique first same
    refine ⟨?_, fun d inside => (isPart_unicode_iff (word.chars d inside)).mp (parts d inside)⟩
    intro d same alphanumeric
    obtain rfl := Option.mem_unique first same
    exact .inr (start.mp isStart alphanumeric)
  · rintro ⟨letter, all⟩
    refine ⟨⟨c, first, start.mpr fun alphanumeric => ?_⟩, ?_⟩
    · exact (letter c first alphanumeric).resolve_left noDigit
    · exact fun d inside => (isPart_unicode_iff (word.chars d inside)).mpr (all d inside)

theorem hasLetters_append_digits {cs ds : List Char} (digits : ∀ c ∈ ds, c.isDigit) :
    HasLetters (cs ++ ds) ↔ HasLetters cs := by
  have digitsAll : ∀ c ∈ ds, Text.isAlphanumeric c → Text.isIdContinue c := by
    intro c inside _
    simp [Text.isIdContinue, digits c inside]
  constructor
  · rintro ⟨first, all⟩
    refine ⟨fun c here => first c ?_, (List.forall_mem_append.mp all).1⟩
    rw [List.head?_append, here]
    rfl
  · rintro ⟨first, all⟩
    refine ⟨fun c here alphanumeric => ?_, List.forall_mem_append.mpr ⟨all, digitsAll⟩⟩
    rw [List.head?_append, Option.mem_def, Option.or_eq_some_iff] at here
    rcases here with inText | ⟨-, inDigits⟩
    · exact first c inText alphanumeric
    · exact .inl (digits c (List.mem_of_mem_head? inDigits))

theorem hasLetters_typeIdentifier (name : String) :
    HasLetters (typeIdentifier name).toList ↔ HasLetters (keptText name) := by
  obtain ⟨kept, same⟩ | ⟨c, rest, kept, cases⟩ := typeIdentifier_cases name
  · rw [kept, same]
    exact iff_of_true (by decide +kernel) ⟨nofun, nofun⟩
  rw [kept]
  obtain ⟨marked, same⟩ | ⟨-, -, same⟩ := cases
  · have text : (typeIdentifier name).toList = '_' :: c :: rest := by simp [same]
    have noLetter : ¬ Text.isAlphanumeric '_' :=
      fun alphanumeric => (apart_of_isAlphanumeric alphanumeric).1 rfl
    rw [text]
    constructor
    · rintro ⟨-, all⟩
      refine ⟨?_, (List.forall_mem_cons.mp all).2⟩
      rintro d ⟨⟩ alphanumeric
      refine marked.imp_right fun reserved => ?_
      -- What got an underscore for being reserved has letters only.
      have letters : reservedWords.all (·.toList.all Char.isAlpha) := by decide +kernel
      have letter := List.all_eq_true.mp (List.all_eq_true.mp letters _ reserved) c (by simp)
      rw [Text.isIdStart, letter, Bool.true_or]
    · rintro ⟨-, all⟩
      refine ⟨?_, List.forall_mem_cons.mpr ⟨fun alphanumeric => absurd alphanumeric noLetter, all⟩⟩
      rintro d ⟨⟩ alphanumeric
      exact absurd alphanumeric noLetter
  · rw [same, String.toList_ofList]

theorem isLegalName_iff {text : String} (word : IsWord text) :
    IsLegalName text ↔ HasLetters text.toList ∧ text ≠ "bigint" ∧ text ≠ "symbol" := by
  have known : ∀ name ∈ illegalNames, name ∈ reservedWords ∨ name = "bigint" ∨ name = "symbol" := by
    decide +kernel
  have illegal : "bigint" ∈ illegalNames ∧ "symbol" ∈ illegalNames := by decide
  rw [IsLegalName, word.isIdentifier_iff]
  refine and_congr_right fun _ => ⟨fun legal => ?_, fun others reserved => ?_⟩
  · constructor <;> rintro rfl
    · exact legal illegal.1
    · exact legal illegal.2
  · rcases known text reserved with reserved | rfl | rfl
    · exact word.unreserved reserved
    · exact others.1 rfl
    · exact others.2 rfl

theorem legal_of_numbered {name identifier : String}
    (made : identifier = typeIdentifier name ∨
      ∃ n : Nat, identifier = typeIdentifier name ++ toString n) :
    IsWord identifier ∧
      (IsLegalName identifier ↔
        HasLetters (keptText name) ∧ identifier ≠ "bigint" ∧ identifier ≠ "symbol") := by
  have word : IsWord identifier := by
    rcases made with rfl | ⟨n, rfl⟩
    · exact isWord_typeIdentifier name
    · exact (isWord_typeIdentifier name).numbered n
  have letters : HasLetters identifier.toList ↔ HasLetters (keptText name) := by
    rw [← hasLetters_typeIdentifier]
    rcases made with rfl | ⟨n, rfl⟩
    · rfl
    · rw [String.toList_append]
      exact hasLetters_append_digits isDigit_of_mem_toString
  refine ⟨word, ?_⟩
  rw [isLegalName_iff word, letters]

/-- An identifier is the one made of its name or that with a number behind it. -/
theorem numbered_of_mem_identifiers {interfaces : Bool} {definitions : List String} :
    ∀ entry ∈ identifiers interfaces definitions, entry.2 = typeIdentifier entry.1 ∨
      ∃ n : Nat, entry.2 = typeIdentifier entry.1 ++ toString n := by
  rw [identifiers]
  generalize globalTypes = used
  induction definitions generalizing used with
  | nil => exact nofun
  | cons name rest ih =>
    rw [assignIdentifiers_cons, List.zip_cons_cons, List.forall_mem_cons]
    refine ⟨(nextIdentifier_spec interfaces used name).2.imp_right ?_, ih _⟩
    rintro ⟨-, n, -, numbered, -⟩
    exact ⟨n, by rw [numbered, String.append_empty]⟩

/-- Identifiers are words and no reserved ones. They are legal names of declarations but for two
    slips: some of the alphanumeric characters that a name keeps stand in no identifier or not in
    front of one, and two names of primitive types are not reserved. -/
theorem identifiers_legal_iff (interfaces : Bool) (definitions : List String) :
    ∀ entry ∈ identifiers interfaces definitions, IsWord entry.2 ∧
      (IsLegalName entry.2 ↔
        HasLetters (keptText entry.1) ∧ entry.2 ≠ "bigint" ∧ entry.2 ≠ "symbol") := by
  intro entry member
  exact legal_of_numbered (numbered_of_mem_identifiers entry member)

/-- A name in another script, keywords, a digit in front, and a name without an alphanumeric. -/
theorem identifiers_legal_iff_guarded :
    let ids := identifiers false ["Shop.Größe", "Core.class", "Old.class", "Core.3D", "[]"]
    ids.map (·.2) = ["Größe", "_class", "_class2", "_3D", "Anonymous"] ∧
      ∀ entry ∈ ids, IsLegalName entry.2 := by
  intro ids
  refine ⟨by decide +kernel, fun entry member => ?_⟩
  have kept : ∀ entry ∈ ids,
      HasLetters (keptText entry.1) ∧ entry.2 ≠ "bigint" ∧ entry.2 ≠ "symbol" := by
    decide +kernel
  exact (identifiers_legal_iff false _ entry member).2.mpr (kept entry member)

/-- Names of primitive types, a superscript behind a letter, and a digit of another script in front. -/
theorem identifiers_not_legal :
    let ids := identifiers false ["Es.symbol", "Es.bigint", "Geo.m²", "Core.٣D"]
    ids.map (·.2) = ["symbol", "bigint", "m²", "٣D"] ∧ ∀ entry ∈ ids, ¬ IsLegalName entry.2 := by
  intro ids
  have names : ids.map (·.2) = ["symbol", "bigint", "m²", "٣D"] := by decide +kernel
  refine ⟨names, fun entry member => ?_⟩
  have among := List.mem_map_of_mem (f := (·.2)) member
  rw [names] at among
  simp only [List.mem_cons, List.not_mem_nil, or_false] at among
  rcases among with same | same | same | same <;> rw [same]
  · exact fun legal => legal.2 (by decide)
  · exact fun legal => legal.2 (by decide)
  · intro legal
    exact absurd (legal.1.2 '²' (by decide)) (by decide +kernel)
  · rintro ⟨⟨⟨c, first, start⟩, -⟩, -⟩
    cases first
    exact absurd start (by decide +kernel)

end SchemaSplit.TypeScript
