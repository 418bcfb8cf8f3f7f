import SchemaSplit.Proofs.TypeScript.Token

namespace SchemaSplit.TypeScript

inductive Link where
  | union
  | intersection
  deriving DecidableEq, Repr

def Link.mark : Link → Char
  | union => '|'
  | intersection => '&'

inductive TypeTree where
  | primitive (p : Primitive)
  | array (element : TypeTree)
  | linked (link : Link) (members : List TypeTree)
  | object (members : List (Member TypeTree))
  /-- A declared or a global type, with arguments if it is generic. -/
  | named (name : String) (arguments : List TypeTree)
  | text (value : String)
  /-- A number as written. -/
  | number (text : String)
  | boolean (value : Bool)
  deriving Inhabited

namespace TypeTree

def parts (link : Link) : TypeTree → List TypeTree
  | linked l ts => if l = link then ts else [linked l ts]
  | t => [t]

/-- Types combined. Those that are combined in the same way are taken apart, and one type alone stays
    as it is. -/
def combine (link : Link) (ts : List TypeTree) : TypeTree :=
  match ts.flatMap (parts link) with
  | [t] => t
  | ts => linked link ts

inductive IsFlat : TypeTree → Prop
  | single {t : TypeTree} (alone : ∀ link, t.parts link = [t]) : IsFlat t
  | linked {link : Link} {ts : List TypeTree} (members : ∀ t ∈ ts, IsFlat t)
      (apart : ∀ t ∈ ts, t.parts link = [t]) (several : ts.length ≠ 1) : IsFlat (linked link ts)

variable {link : Link} {t : TypeTree} {ts us : List TypeTree}

theorem IsFlat.parts (flat : t.IsFlat) (link : Link) :
    ∀ p ∈ t.parts link, p.IsFlat ∧ p.parts link = [p] := by
  cases flat with
  | single alone =>
    rw [alone link]
    intro p inside
    rw [List.mem_singleton.mp inside]
    exact ⟨.single alone, alone link⟩
  | @linked l ts members apart several =>
    rw [TypeTree.parts]
    split_ifs with same
    · intro p inside
      exact ⟨members p inside, same ▸ apart p inside⟩
    · intro p inside
      rw [List.mem_singleton.mp inside]
      refine ⟨.linked members apart several, ?_⟩
      rw [TypeTree.parts, if_neg same]

theorem combine_eq_of_parts (same : ts.flatMap (parts link) = us.flatMap (parts link)) :
    combine link ts = combine link us := by
  rw [combine, combine, same]

section Combine

variable (flat : ∀ t ∈ ts, t.IsFlat)
include flat

theorem flat_parts (link : Link) : ∀ p ∈ ts.flatMap (parts link), p.IsFlat ∧ p.parts link = [p] := by
  intro p inside
  obtain ⟨t, within, here⟩ := List.mem_flatMap.mp inside
  exact (flat t within).parts link p here

theorem isFlat_combine (link : Link) : (combine link ts).IsFlat := by
  have apart := flat_parts flat link
  unfold combine
  split
  · rename_i t alone
    rw [alone] at apart
    exact (apart t List.mem_cons_self).1
  · rename_i several
    refine .linked (fun p inside => (apart p inside).1) (fun p inside => (apart p inside).2) ?_
    intro one
    obtain ⟨t, alone⟩ := List.length_eq_one_iff.mp one
    exact several t alone

theorem parts_combine (link : Link) : (combine link ts).parts link = ts.flatMap (parts link) := by
  have apart := flat_parts flat link
  unfold combine
  split
  · rename_i t alone
    rw [alone] at apart ⊢
    exact (apart t List.mem_cons_self).2
  · rw [parts, if_pos rfl]

end Combine

theorem IsFlat.combine_singleton (flat : t.IsFlat) (link : Link) : combine link [t] = t := by
  unfold combine
  rw [List.flatMap_singleton]
  cases flat with
  | single alone => rw [alone link]
  | @linked l ts members apart several =>
    rw [TypeTree.parts]
    split_ifs with same
    · subst same
      split
      · simp at several
      · rfl
    · rfl

end TypeTree

abbrev Reader (α : Type) := List Token → Option (α × List Token)

def after? (mark : Char) : List Token → Option (List Token)
  | .mark c :: ts => if c = mark then some ts else none
  | _ => none

def separated {α : Type} (mark : Char) (item : Reader α) : (steps : Nat) → Reader (List α)
  | 0, _ => none
  | steps + 1, ts => do
    let (first, ts) ← item ts
    match after? mark ts with
    | none => return ([first], ts)
    | some ts =>
      let (others, ts) ← separated mark item steps ts
      return (first :: others, ts)

def wordTypes : List (String × TypeTree) :=
  [("string", .primitive .string), ("number", .primitive .number), ("boolean", .primitive .boolean),
   ("null", .primitive .null), ("undefined", .primitive .undefined),
   ("unknown", .primitive .unknown), ("true", .boolean true), ("false", .boolean false)]

/-- The keywords that name no declared type: they are reserved, or have a meaning of their own in
    types. -/
def keywords : List String :=
  ["any", "await", "bigint", "boolean", "break", "case", "catch", "class", "const", "continue",
   "debugger", "default", "delete", "do", "else", "enum", "export", "extends", "false", "finally",
   "for", "function", "if", "implements", "import", "in", "infer", "instanceof", "interface",
   "intrinsic", "keyof", "let", "never", "new", "null", "number", "object", "package", "private",
   "protected", "public", "readonly", "return", "static", "string", "super", "switch", "symbol",
   "this", "throw", "true", "try", "typeof", "undefined", "unique", "unknown", "var", "void",
   "while", "with", "yield"]

def Token.key? : Token → Option String
  | .word name => some name
  | .text value => some value
  | _ => none

section Reader

variable (type : Reader TypeTree)

def argumentsReader (steps : Nat) : Reader (List TypeTree) := fun ts =>
  match after? '<' ts with
  | none => some ([], ts)
  | some ts => do
    let (arguments, ts) ← separated ',' type steps ts
    return (arguments, ← after? '>' ts)

def memberReader : Reader (Member TypeTree)
  | [] => none
  | key :: ts => do
    let name ← key.key?
    let (isOptional, ts) := ((after? '?' ts).map (true, ·)).getD (false, ts)
    let ts ← after? ':' ts
    let (type, ts) ← type ts
    return ({ name, type, isOptional }, ts)

def membersReader : (steps : Nat) → Reader (List (Member TypeTree))
  | 0, _ => none
  | steps + 1, ts =>
    match after? '\x7d' ts with
    | some ts => some ([], ts)
    | none => do
      let (first, ts) ← memberReader type ts
      let ts ← (after? ';' ts).or ((after? ',' ts).or ((after? '\x7d' ts).map fun _ => ts))
      let (others, ts) ← membersReader steps ts
      return (first :: others, ts)

def primaryReader (steps : Nat) : Reader TypeTree
  | .word name :: ts =>
    match wordTypes.lookup name with
    | some t => some (t, ts)
    | none => do
      guard (name ∉ keywords)
      let (arguments, ts) ← argumentsReader type steps ts
      return (.named name arguments, ts)
  | .text value :: ts => some (.text value, ts)
  | .numeral digits :: ts => some (.number digits, ts)
  | .mark '-' :: .numeral digits :: ts => some (.number ("-" ++ digits), ts)
  | .mark '(' :: ts => do
    let (t, ts) ← type ts
    return (t, ← after? ')' ts)
  | .mark '\x7b' :: ts => do
    let (members, ts) ← membersReader type steps ts
    return (.object members, ts)
  | _ => none

def arrays (t : TypeTree) : List Token → TypeTree × List Token
  | .mark '[' :: .mark ']' :: ts => arrays (.array t) ts
  | ts => (t, ts)

def arrayReader (steps : Nat) : Reader TypeTree := fun ts => do
  let (t, ts) ← primaryReader type steps ts
  return arrays t ts

end Reader

def linkedReader (link : Link) (item : Reader TypeTree) (steps : Nat) : Reader TypeTree := fun ts => do
  let (members, ts) ← separated link.mark item steps ts
  return (.combine link members, ts)

def typeReader : (steps : Nat) → Reader TypeTree
  | 0 => fun _ => none
  | steps + 1 =>
    linkedReader .union
      (linkedReader .intersection (arrayReader (typeReader steps) (steps + 1)) (steps + 1)) (steps + 1)

def readType? (letters : Letters) (text : String) : Option TypeTree := do
  let tokens ← Token.lex? letters text.toList
  -- Each step of nesting takes a token.
  let (t, rest) ← typeReader tokens.length tokens
  guard rest.isEmpty
  return t

def Stops (marks : List Char) (rest : List Token) : Prop := ∀ c ∈ marks, after? c rest = none

theorem after?_mark (c : Char) (ts : List Token) : after? c (.mark c :: ts) = some ts := if_pos rfl

theorem after?_of_ne {c d : Char} (differ : d ≠ c) (ts : List Token) :
    after? c (.mark d :: ts) = none := if_neg differ

theorem Stops.mono {marks others : List Char} {rest : List Token} (stops : Stops marks rest)
    (fewer : others ⊆ marks) : Stops others rest := fun c inside => stops c (fewer inside)

theorem stops_mark {marks : List Char} {c : Char} (outside : c ∉ marks) (ts : List Token) :
    Stops marks (.mark c :: ts) := by
  intro d inside
  apply after?_of_ne
  rintro rfl
  exact outside inside

theorem stops_nil (marks : List Char) : Stops marks [] := fun _ _ => rfl

theorem separated_intercalate {α β : Type} {mark : Char} {item : Reader β} {marks : List Char}
    {spell : α → List Token} {value : α → β} (other : mark ∉ marks) {items : List α}
    (filled : items ≠ []) {steps : Nat} (enough : items.length ≤ steps)
    (reads : ∀ i ∈ items, ∀ rest, Stops marks rest → item (spell i ++ rest) = some (value i, rest))
    {rest : List Token} (stops : Stops (mark :: marks) rest) :
    separated mark item steps ([Token.mark mark].intercalate (items.map spell) ++ rest) =
      some (items.map value, rest) := by
  induction items generalizing steps with
  | nil => exact absurd rfl filled
  | cons i items ih =>
    rw [List.forall_mem_cons] at reads
    cases steps with
    | zero => simp at enough
    | succ steps =>
      cases items with
      | nil =>
        have last := reads.1 rest (stops.mono (List.subset_cons_self _ _))
        have ended := stops mark List.mem_cons_self
        simp [separated, last, ended]
      | cons j items =>
        have others := ih (List.cons_ne_nil _ _) (Nat.le_of_succ_le_succ enough) reads.2
        simp only [List.map_cons] at others ⊢
        rw [List.intercalate_cons_cons, List.append_assoc, List.append_assoc, List.singleton_append,
          separated, reads.1 _ (stops_mark other _)]
        simp [after?_mark, others]

theorem arrays_of_stops {marks : List Char} (bracket : '[' ∈ marks) {rest : List Token}
    (stops : Stops marks rest) (t : TypeTree) : arrays t rest = (t, rest) := by
  have noBracket := stops '[' bracket
  rw [arrays.eq_def]
  split
  · cases noBracket
  · rfl

end SchemaSplit.TypeScript
