import SchemaSplit.Proofs.TypeScript.Spelling

namespace SchemaSplit.TypeScript

structure CharReader (α : Type) where
  read? : List Char → Option (α × List Char)
  shorter : ∀ {cs a rest}, read? cs = some (a, rest) → rest.length < cs.length

namespace CharReader

variable {α β : Type} {r : CharReader α} {cs rest : List Char}

def many (r : CharReader α) (cs : List Char) : List α × List Char :=
  match _read : r.read? cs with
  | none => ([], cs)
  | some (a, rest) =>
    let (as, last) := r.many rest
    (a :: as, last)
termination_by cs.length
decreasing_by exact r.shorter _read

theorem many_none (none : r.read? cs = none) : r.many cs = ([], cs) := by
  rw [many]
  split
  · rfl
  · rename_i read
    rw [none] at read
    cases read

theorem many_some {a : α} (read : r.read? cs = some (a, rest)) :
    r.many cs = (a :: (r.many rest).1, (r.many rest).2) := by
  rw [many]
  split
  · rename_i none
    rw [read] at none
    cases none
  · rename_i read'
    rw [read] at read'
    cases read'
    rfl

theorem many_flatMap {write : β → List Char} {value : β → α} {items : List β}
    (each : ∀ item ∈ items, ∀ rest, r.read? (write item ++ rest) = some (value item, rest)) :
    r.many (items.flatMap write ++ rest) = (items.map value ++ (r.many rest).1, (r.many rest).2) := by
  induction items with
  | nil => rfl
  | cons item items ih =>
    rw [List.forall_mem_cons] at each
    rw [List.flatMap_cons, List.append_assoc, many_some (each.1 _), ih each.2]
    rfl

end CharReader

namespace Literal

def codePoint? : List Char → Option (Nat × List Char)
  | '\x7b' :: cs =>
    match cs.dropWhile (· ≠ '\x7d') with
    | [] => none
    | _ :: rest => do
      let point ← Text.natural? 16 (cs.takeWhile (· ≠ '\x7d'))
      guard (point ≤ 0x10ffff)
      return (point, rest)
  | a :: b :: c :: d :: rest => do return (← Text.natural? 16 [a, b, c, d], rest)
  | _ => none

theorem length_of_codePoint? {cs rest : List Char} {point : Nat}
    (read : codePoint? cs = some (point, rest)) : rest.length < cs.length := by
  unfold codePoint? at read
  split at read
  · rename_i cs
    have shorter := (List.dropWhile_suffix (l := cs) (· ≠ '\x7d')).length_le
    split at read
    · cases read
    · rename_i behind
      rw [behind, List.length_cons] at shorter
      simp only [Option.bind_eq_bind, Option.bind_eq_some_iff, Option.pure_def, Option.some.injEq,
        Prod.mk.injEq] at read
      obtain ⟨_, _, _, _, _, rfl⟩ := read
      rw [List.length_cons]
      omega
  · simp only [Option.bind_eq_bind, Option.bind_eq_some_iff, Option.pure_def, Option.some.injEq,
      Prod.mk.injEq] at read
    obtain ⟨_, _, _, rfl⟩ := read
    simp only [List.length_cons]
    omega
  · cases read

def isLineEnd (c : Char) : Bool := c == '\n' || c == '\r' || c == '\u2028' || c == '\u2029'

/-- What an escape behind its backslash stands for. A line that is continued stands for nothing. -/
def escaped? : List Char → Option (List Nat × List Char)
  | 'u' :: cs => (codePoint? cs).map fun (point, rest) => ([point], rest)
  | 'x' :: a :: b :: rest => (Text.natural? 16 [a, b]).map fun point => ([point], rest)
  | '\r' :: '\n' :: rest => some ([], rest)
  | '0' :: rest => if rest.head?.any Char.isDigit then none else some ([0], rest)
  | c :: rest =>
    if isLineEnd c then some ([], rest) else (Token.unescape? c).map fun point => ([point], rest)
  | [] => none

theorem length_of_escaped? {cs rest : List Char} {points : List Nat}
    (read : escaped? cs = some (points, rest)) : rest.length < cs.length := by
  unfold escaped? at read
  split at read
  · obtain ⟨_, point, same⟩ := Option.map_eq_some_iff.mp read
    cases same
    exact (length_of_codePoint? point).trans (Nat.lt_succ_self _)
  · obtain ⟨_, -, same⟩ := Option.map_eq_some_iff.mp read
    cases same
    simp only [List.length_cons]
    omega
  · cases read
    simp only [List.length_cons]
    omega
  · split at read <;> cases read
    exact Nat.lt_succ_self _
  · split at read
    · cases read
      exact Nat.lt_succ_self _
    · obtain ⟨_, -, same⟩ := Option.map_eq_some_iff.mp read
      cases same
      exact Nat.lt_succ_self _
  · cases read

def character? : List Char → Option (List Nat × List Char)
  | '\\' :: cs => escaped? cs
  | c :: rest => if c = '\x22' ∨ c = '\n' ∨ c = '\r' then none else some ([c.toNat], rest)
  | [] => none

def character : CharReader (List Nat) where
  read? := character?
  shorter {cs points rest} read := by
    unfold character? at read
    split at read
    · exact (length_of_escaped? read).trans (Nat.lt_succ_self _)
    · split at read <;> cases read
      exact Nat.lt_succ_self _
    · cases read

/-- A literal in double quotes, read as its value. This is a text unless a surrogate stands alone in
    it. -/
def stringLiteral? : List Char → Option (String × List Char)
  | '\x22' :: cs =>
    match character.many cs with
    | (points, '\x22' :: rest) =>
      (Json.Token.join? points.flatten).map fun value => (String.ofList value, rest)
    | _ => none
  | _ => none

def part? (letters : Letters) : List Char → Option (Nat × List Char)
  | '\\' :: 'u' :: cs => codePoint? cs
  | c :: rest => if letters.isPart c then some (c.toNat, rest) else none
  | [] => none

def part (letters : Letters) : CharReader Nat where
  read? := part? letters
  shorter {cs point rest} read := by
    unfold part? at read
    split at read
    · exact (length_of_codePoint? read).trans (by simp only [List.length_cons]; omega)
    · split at read <;> cases read
      exact Nat.lt_succ_self _
    · cases read

/-- An identifier. An escape in it stands for a character that might stand there itself. -/
def identifierName? (letters : Letters) (cs : List Char) : Option (String × List Char) :=
  let (points, rest) := (part letters).many cs
  let name := points.map Char.ofNat
  if name.head?.any letters.isStart && name.all letters.isPart then some (String.ofList name, rest)
  else none

/-- A property name, in double quotes or as an identifier. How else it may be written is left open, as
    nothing else starts like these. -/
def propertyName? (letters : Letters) (others : List Char → Option (String × List Char)) :
    List Char → Option (String × List Char)
  | [] => others []
  | c :: rest =>
    if c = '\x22' then stringLiteral? (c :: rest)
    else if c = '\\' ∨ letters.isStart c then identifierName? letters (c :: rest)
    else others (c :: rest)

section Reading

variable {letters : Letters} {others : List Char → Option (String × List Char)} {rest : List Char}

theorem character?_escape (c : Char) (rest : List Char) :
    character? (escape c ++ rest) = some ([c.toNat], rest) := by
  unfold escape
  split_ifs with isEscape isQuote isFeed isReturn
  · subst isEscape
    rfl
  · subst isQuote
    rfl
  · subst isFeed
    rfl
  · subst isReturn
    rfl
  · rw [List.singleton_append, character?]
    · rw [if_neg (by simp only [isQuote, isFeed, isReturn, or_self, not_false_eq_true])]
    · exact isEscape

/-- A literal is read as the text that it was written for. -/
theorem stringLiteral?_stringLiteral (s : String) (rest : List Char) :
    stringLiteral? (stringLiteral s.toList ++ rest) = some (s, rest) := by
  have quote : character.many ('\x22' :: rest) = ([], '\x22' :: rest) := CharReader.many_none rfl
  have body : character.many (s.toList.flatMap escape ++ '\x22' :: rest) =
      (s.toList.map fun c => [c.toNat], '\x22' :: rest) := by
    rw [CharReader.many_flatMap fun c _ => character?_escape c, quote, List.append_nil]
  have points : (s.toList.map fun c => [c.toNat]).flatten = s.toList.map Char.toNat := by
    rw [← List.flatMap_def, List.map_eq_flatMap]
  rw [stringLiteral, List.append_assoc, List.cons_append, List.cons_append, List.nil_append,
    stringLiteral?, body]
  simp only [points, Json.Token.join?_map_toNat, Option.map_some, String.ofList_toList]

-- Escapes that are never written are read as well.
example : stringLiteral? "\x22\\x41\\u0042\\ud83d\\ude00\\\n\x22;".toList = some ("AB😀", [';']) := by
  decide +kernel

theorem not_isPart_escape (letters : Letters) : letters.isPart '\\' = false :=
  letters.part_ascii '\\' (by decide)

theorem part?_cons {c : Char} (noEscape : c ≠ '\\') (rest : List Char) :
    part? letters (c :: rest) = if letters.isPart c then some (c.toNat, rest) else none := by
  rw [part?]
  rintro _ rfl
  exact absurd rfl noEscape

theorem part?_of_isPart {c : Char} (isPart : letters.isPart c) (rest : List Char) :
    part? letters (c :: rest) = some (c.toNat, rest) := by
  rw [part?_cons, if_pos isPart]
  rintro rfl
  rw [not_isPart_escape letters] at isPart
  cases isPart

/-- An identifier is read as it stands exactly if no character behind it goes on with it. -/
theorem identifierName?_append {name : String} (identifier : letters.IsIdentifier name) :
    identifierName? letters (name.toList ++ rest) = some (name, rest) ↔ part? letters rest = none := by
  obtain ⟨⟨c, first, start⟩, all⟩ := identifier
  have whole : name.toList.flatMap ([·]) = name.toList := List.flatMap_singleton' _
  have chars : (name.toList.map Char.toNat).map Char.ofNat = name.toList := by
    simp only [List.map_map, Function.comp_def, Char.ofNat_toNat, List.map_id_fun', id]
  have read : (part letters).many (name.toList ++ rest) =
      (name.toList.map Char.toNat ++ ((part letters).many rest).1, ((part letters).many rest).2) := by
    conv_lhs => rw [← whole]
    exact CharReader.many_flatMap fun c inside rest => part?_of_isPart (all c inside) rest
  have filled (more : List Char) : (name.toList ++ more).head?.any letters.isStart := by
    cases split : name.toList with
    | nil =>
      rw [split] at first
      cases first
    | cons d cs =>
      rw [split] at first
      cases first
      exact start
  unfold identifierName?
  simp only [read, List.map_append, chars, filled, Bool.true_and, List.all_append]
  constructor
  · intro same
    split at same
    · cases next : part? letters rest with
      | none => rfl
      | some item =>
        -- A further character would be in the name that is read.
        rw [CharReader.many_some next] at same
        have names := congrArg String.toList (Prod.mk.inj (Option.some.inj same)).1
        simp at names
    · cases same
  · intro ends
    have none : (part letters).read? rest = none := ends
    have parts : name.toList.all letters.isPart := List.all_eq_true.mpr all
    simp [CharReader.many_none none, parts]

theorem propertyName?_append {name : String} (identifier : letters.IsIdentifier name) :
    propertyName? letters others (name.toList ++ rest) =
      identifierName? letters (name.toList ++ rest) := by
  obtain ⟨c, first, start⟩ := identifier.1
  have noQuote : c ≠ '\x22' := by
    rintro rfl
    rw [(letters.apart_of_mark rfl).1] at start
    cases start
  cases split : name.toList with
  | nil =>
    rw [split] at first
    cases first
  | cons d cs =>
    rw [split] at first
    cases first
    rw [List.cons_append, propertyName?, if_neg noQuote, if_pos (.inr start)]

/-- A key is read as the name that it was written for, unless it stands without quotes and a character
    behind it goes on with it. -/
theorem propertyName?_keyText (name : String) :
    propertyName? letters others ((keyText name).toList ++ rest) = some (name, rest) ↔
      (isPlainKey name.toList → part? letters rest = none) := by
  rw [keyText, String.toList_ofList, propertyKey]
  split_ifs with plain
  · have identifier : letters.IsIdentifier name := isIdentifier_of_isPlainKey plain
    rw [propertyName?_append identifier, identifierName?_append identifier]
    exact (imp_iff_right plain).symm
  · simp only [plain, Bool.false_eq_true, false_imp_iff, iff_true]
    exact stringLiteral?_stringLiteral name rest

end Reading

end Literal
end SchemaSplit.TypeScript
