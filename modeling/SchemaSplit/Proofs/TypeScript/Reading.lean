import SchemaSplit.Proofs.Lookup
import SchemaSplit.Proofs.TypeScript.Conversion
import SchemaSplit.Proofs.TypeScript.Spelling
import Mathlib.Data.List.Basic

namespace SchemaSplit.TypeScript

theorem intercalate_append {α : Type} (separator : List α) {xs ys : List (List α)} (left : xs ≠ [])
    (right : ys ≠ []) : separator.intercalate (xs ++ ys) =
      separator.intercalate xs ++ (separator ++ separator.intercalate ys) := by
  induction xs with
  | nil => exact absurd rfl left
  | cons x xs ih =>
    cases xs with
    | nil =>
      cases ys with
      | nil => exact absurd rfl right
      | cons y ys => simp
    | cons x' xs =>
      rw [List.cons_append, List.cons_append, List.intercalate_cons_cons,
        List.intercalate_cons_cons, ← List.cons_append, ih (List.cons_ne_nil _ _)]
      simp

theorem intercalate_flatMap {α β : Type} (separator : List β) {f : α → List (List β)}
    {items : List α} (filled : ∀ i ∈ items, f i ≠ []) :
    separator.intercalate (items.flatMap f) =
      separator.intercalate (items.map fun i => separator.intercalate (f i)) := by
  induction items with
  | nil => rfl
  | cons i items ih =>
    rw [List.forall_mem_cons] at filled
    cases items with
    | nil => simp
    | cons j items =>
      have others : (j :: items).flatMap f ≠ [] := by
        rw [List.flatMap_cons]
        exact List.append_ne_nil_of_left_ne_nil (filled.2 j List.mem_cons_self) _
      rw [List.flatMap_cons, intercalate_append separator filled.1 others, ih filled.2]
      simp only [List.map_cons]
      rw [List.intercalate_cons_cons, List.append_assoc]

namespace TypeExpr

variable {letters : Letters} {t : TypeExpr} {link : Link}

theorem isFlat_tree (writable : t.Writable letters) : t.tree.IsFlat := by
  induction writable with
  | union filled members ih | intersection filled members ih =>
    rw [tree, trees_eq_map]
    apply TypeTree.isFlat_combine
    intro u inside
    obtain ⟨t, within, rfl⟩ := List.mem_map.mp inside
    exact ih t within
  | @literal v finite => cases v <;> exact .single fun _ => rfl
  | _ => exact .single fun _ => rfl

def shown (link : Link) (t : TypeExpr) : List Token :=
  enclosed (link == .intersection && t.isUnion) t.tokens

/-- Members that are combined in the same way are written without parentheses, so their own parts
    stand there as if they were members. -/
structure Splits (letters : Letters) (link : Link) (t : TypeExpr) : Prop where
  filled : t.parts link ≠ []
  writable : ∀ p ∈ t.parts link, p.Writable letters ∧ p.link? ≠ some link
  shown : t.shown link = [Token.mark link.mark].intercalate ((t.parts link).map (shown link))
  tree : ((t.parts link).map tree).flatMap (TypeTree.parts link) = t.tree.parts link

theorem Splits.alone (writable : t.Writable letters) (other : t.link? ≠ some link)
    (whole : t.parts link = [t]) : t.Splits letters link where
  filled := by simp [whole]
  writable := by
    rw [whole]
    intro p inside
    rw [List.mem_singleton.mp inside]
    exact ⟨writable, other⟩
  shown := by simp [whole]
  tree := by simp [whole]

theorem Splits.members {ts : List TypeExpr} (filled : ts ≠ [])
    (members : ∀ m ∈ ts, m.Splits letters link) (flat : ∀ m ∈ ts, m.tree.IsFlat)
    (parts : t.parts link = ts.flatMap (parts link))
    (shown : t.shown link = [Token.mark link.mark].intercalate (ts.map (TypeExpr.shown link)))
    (tree : t.tree = .combine link (ts.map TypeExpr.tree)) : t.Splits letters link where
  filled := by
    rw [parts]
    cases ts with
    | nil => exact absurd rfl filled
    | cons m ts =>
      rw [List.flatMap_cons]
      exact List.append_ne_nil_of_left_ne_nil (members m List.mem_cons_self).filled _
  writable := by
    rw [parts]
    intro p inside
    obtain ⟨m, within, here⟩ := List.mem_flatMap.mp inside
    exact (members m within).writable p here
  shown := by
    have each : ∀ m ∈ ts, (m.parts link).map (TypeExpr.shown link) ≠ [] := by
      intro m within empty
      exact (members m within).filled (List.map_eq_nil_iff.mp empty)
    rw [parts, List.map_flatMap, intercalate_flatMap _ each, shown]
    congr 1
    exact List.map_congr_left fun m within => (members m within).shown
  tree := by
    have flatTrees : ∀ u ∈ ts.map TypeExpr.tree, u.IsFlat := by
      intro u inside
      obtain ⟨m, within, rfl⟩ := List.mem_map.mp inside
      exact flat m within
    rw [parts, tree, TypeTree.parts_combine flatTrees, List.map_flatMap, List.flatMap_assoc,
      List.flatMap_map]
    exact List.flatMap_congr fun m within => (members m within).tree

theorem splits (writable : t.Writable letters) (link : Link) : t.Splits letters link := by
  induction writable with
  | @union ts filled members ih =>
    have flat : ∀ m ∈ ts, m.tree.IsFlat := fun m within => isFlat_tree (members m within)
    cases link with
    | union =>
      apply Splits.members filled ih flat
      · rw [parts, if_pos rfl, partsOf_eq_flatMap]
      · show tokens (union ts) = _
        rw [tokens, memberTokens_eq_map]
        rfl
      · rw [tree, trees_eq_map]
    | intersection => exact .alone (.union filled members) (by simp [link?]) rfl
  | @intersection ts filled members ih =>
    have flat : ∀ m ∈ ts, m.tree.IsFlat := fun m within => isFlat_tree (members m within)
    cases link with
    | union => exact .alone (.intersection filled members) (by simp [link?]) rfl
    | intersection =>
      apply Splits.members filled ih flat
      · rw [parts, if_pos rfl, partsOf_eq_flatMap]
      · show tokens (intersection ts) = _
        rw [tokens, memberTokens_eq_map]
        rfl
      · rw [tree, trees_eq_map]
  | primitive p => exact .alone (.primitive p) (by simp [link?]) rfl
  | array element => exact .alone (.array element) (by simp [link?]) rfl
  | object members => exact .alone (.object members) (by simp [link?]) rfl
  | record key value => exact .alone (.record key value) (by simp [link?]) rfl
  | literal finite => exact .alone (.literal finite) (by simp [link?]) rfl
  | named identifier free => exact .alone (.named identifier free) (by simp [link?]) rfl

theorem combine_parts (writable : t.Writable letters) (link : Link) :
    TypeTree.combine link ((t.parts link).map tree) = t.tree := by
  rw [← (isFlat_tree writable).combine_singleton link]
  apply TypeTree.combine_eq_of_parts
  rw [(splits writable link).tree, List.flatMap_singleton]

theorem numberTokens_ne_nil (text : String) : numberTokens text ≠ [] := by
  unfold numberTokens
  split <;> exact List.cons_ne_nil _ _

theorem enclosed_ne_nil (isNeeded : Bool) {ts : List Token} (filled : ts ≠ []) :
    enclosed isNeeded ts ≠ [] := by
  cases isNeeded
  · exact filled
  · exact List.cons_ne_nil _ _

theorem tokens_ne_nil (writable : t.Writable letters) : t.tokens ≠ [] := by
  have ofMembers : ∀ (wrapped : Bool) (separator : List Token) {ts : List TypeExpr}, ts ≠ [] →
      (∀ m ∈ ts, m.tokens ≠ []) → separator.intercalate (memberTokens wrapped ts) ≠ [] := by
    intro wrapped separator ts filled members
    cases ts with
    | nil => exact absurd rfl filled
    | cons m ts =>
      have first := enclosed_ne_nil (wrapped && m.isUnion) (members m List.mem_cons_self)
      cases ts with
      | nil => simpa [memberTokens] using first
      | cons m' ts =>
        rw [memberTokens, memberTokens, List.intercalate_cons_cons, List.append_assoc]
        exact List.append_ne_nil_of_left_ne_nil first _
  induction writable with
  | union filled members ih | intersection filled members ih => exact ofMembers _ _ filled ih
  | array element ih =>
    rw [tokens]
    exact List.append_ne_nil_of_right_ne_nil _ (List.cons_ne_nil _ _)
  | @literal v finite =>
    cases v with
    | int n | double d => exact numberTokens_ne_nil _
    | null | bool b | string s => exact List.cons_ne_nil _ _
  | primitive | object | record | named => exact List.cons_ne_nil _ _

end TypeExpr

section Length

variable {α : Type} (separator : List α) {xs : List α} {xss : List (List α)}

theorem length_le_intercalate (inside : xs ∈ xss) :
    xs.length ≤ (separator.intercalate xss).length := by
  induction xss with
  | nil => cases inside
  | cons ys xss ih =>
    cases xss with
    | nil => simp [List.mem_singleton.mp inside]
    | cons zs xss =>
      rw [List.intercalate_cons_cons, List.length_append, List.length_append]
      rcases List.mem_cons.mp inside with rfl | later
      · omega
      · have within := ih later
        omega

theorem length_le_of_filled (filled : ∀ xs ∈ xss, xs ≠ []) :
    xss.length ≤ (separator.intercalate xss).length := by
  induction xss with
  | nil => exact Nat.zero_le _
  | cons ys xss ih =>
    rw [List.forall_mem_cons] at filled
    have first := List.length_pos_iff.mpr filled.1
    cases xss with
    | nil =>
      rw [List.intercalate_singleton]
      exact first
    | cons zs xss =>
      have others := ih filled.2
      rw [List.intercalate_cons_cons, List.length_append, List.length_append]
      rw [List.length_cons]
      omega

end Length

namespace TypeExpr

variable {letters : Letters} {t p : TypeExpr} {link : Link}

theorem Splits.length_le (splits : t.Splits letters link) (within : p ∈ t.parts link) :
    (p.shown link).length ≤ (t.shown link).length := by
  rw [splits.shown]
  exact length_le_intercalate _ (List.mem_map_of_mem within)

-- What is no union stands in a union as it would alone in an intersection.
theorem shown_of_not_union (noUnion : p.link? ≠ some .union) :
    p.shown .union = p.shown .intersection := by
  rw [shown, shown, isUnion_eq, beq_false_of_ne noUnion, Bool.and_false, Bool.and_false]

-- What is no intersection stands in an intersection as it would before brackets.
theorem shown_of_not_intersection (noIntersection : p.link? ≠ some .intersection) :
    p.shown .intersection = enclosed p.isCompound p.tokens := by
  have same : p.isUnion = p.isCompound := by
    rw [isUnion_eq, isCompound_eq]
    cases kind : p.link? with
    | none => rfl
    | some link =>
      cases link with
      | union => rfl
      | intersection => exact absurd kind noIntersection
  rw [shown, same]
  rfl

end TypeExpr

section Reading

open TypeExpr

variable {letters : Letters} {t : TypeExpr} {type : Reader TypeTree} {n : Nat} {rest : List Token}

def Reads (type : Reader TypeTree) (t : TypeExpr) : Prop :=
  ∀ rest, Stops ['|', '&', '[', '<'] rest → type (t.tokens ++ rest) = some (t.tree, rest)

theorem memberReader_property {m : Member TypeExpr} (reads : Reads type m.type)
    (stops : Stops ['|', '&', '[', '<'] rest) :
    memberReader type (onePropertyTokens m ++ rest) = some (memberTree m, rest) := by
  rcases m with ⟨name, t, isOptional, description⟩
  have key := key?_keyToken name
  have value := reads rest stops
  cases isOptional
  · have required : ∀ ts, after? '?' (.mark ':' :: ts) = none := fun _ => rfl
    simp [onePropertyTokens, memberReader, memberTree, key, after?_mark, required, value]
  · simp [onePropertyTokens, memberReader, memberTree, key, after?_mark, value]

theorem length_type_le (m : Member TypeExpr) :
    m.type.tokens.length ≤ (onePropertyTokens m).length := by
  rcases m with ⟨name, t, isOptional, description⟩
  rw [onePropertyTokens, List.length_cons, List.length_append]
  dsimp only
  omega

theorem membersReader_properties {ms : List (Member TypeExpr)}
    (reads : ∀ m ∈ ms, Reads type m.type) {steps : Nat} (enough : ms.length < steps) :
    membersReader type steps
      ([Token.mark ';'].intercalate (ms.map onePropertyTokens) ++ .mark '\x7d' :: rest) =
      some (ms.map memberTree, rest) := by
  have noEnd : ∀ (m : Member TypeExpr) ts, after? '\x7d' (onePropertyTokens m ++ ts) = none := by
    intro m ts
    rw [onePropertyTokens, keyToken]
    split_ifs <;> rfl
  induction ms generalizing steps with
  | nil =>
    cases steps with
    | zero => simp at enough
    | succ steps => rfl
  | cons m ms ih =>
    rw [List.forall_mem_cons] at reads
    cases steps with
    | zero => simp at enough
    | succ steps =>
      have fewer : ms.length < steps := Nat.lt_of_succ_lt_succ enough
      cases ms with
      | nil =>
        have closed : Stops ['|', '&', '[', '<'] (.mark '\x7d' :: rest) := stops_mark (by decide) rest
        have first := memberReader_property reads.1 closed
        have ended := ih reads.2 fewer
        have closing : after? ';' (.mark '\x7d' :: rest) = none ∧ after? ',' (.mark '\x7d' :: rest) = none :=
          ⟨rfl, rfl⟩
        rw [List.map_nil, List.intercalate_nil, List.nil_append] at ended
        simp [membersReader, noEnd, first, closing, after?_mark, ended]
      | cons m' ms =>
        have others := ih reads.2 fewer
        simp only [List.map_cons] at others ⊢
        rw [List.intercalate_cons_cons, List.append_assoc, List.append_assoc, List.singleton_append,
          membersReader, noEnd, memberReader_property reads.1 (stops_mark (by decide) _)]
        simp [after?_mark, others]

theorem primaryReader_number {text : String} (number : IsNumber text) (steps : Nat) :
    primaryReader type steps (numberTokens text ++ rest) = some (.number text, rest) := by
  cases number with
  | positive numeral =>
    rw [numberTokens_positive numeral]
    rfl
  | negative numeral =>
    rw [numberTokens_negative]
    rfl

theorem primaryReader_literal {v : Scalar} (finite : ∀ d, v = .double d → d.isFinite) (steps : Nat) :
    primaryReader type steps (literalTokens v ++ rest) = some (literalTree v, rest) := by
  cases v with
  | null => rfl
  | bool b => cases b <;> rfl
  | int n => exact primaryReader_number (isNumber_int n) steps
  | double d => exact primaryReader_number (Double.isNumber_text rfl rfl (finite d rfl)) steps
  | string s => rfl

theorem lookup_wordTypes {name : String} (free : name ∉ keywords) : wordTypes.lookup name = none := by
  have known : ∀ e ∈ wordTypes.map (·.1), e ∈ keywords := by decide
  rw [List.lookup_eq_none_iff]
  intro e inside
  rw [bne_iff_ne]
  rintro rfl
  exact free (known e.1 (List.mem_map_of_mem inside))

theorem primaryReader_object {ms : List (Member TypeExpr)}
    (inner : ∀ m ∈ ms, m.type.tokens.length ≤ n → Reads type m.type)
    (enough : (object ms).tokens.length ≤ n + 1) :
    primaryReader type (n + 1) ((object ms).tokens ++ rest) = some ((object ms).tree, rest) := by
  rw [tokens, propertyTokens_eq_map] at enough ⊢
  simp only [List.length_cons, List.length_append, List.length_nil] at enough
  have reads : ∀ m ∈ ms, Reads type m.type := by
    intro m within
    have inside : onePropertyTokens m ∈ ms.map onePropertyTokens := List.mem_map_of_mem within
    have fits := length_le_intercalate [.mark ';'] inside
    have shorter := length_type_le m
    exact inner m within (by omega)
  have count : ms.length < n + 1 := by
    have each : ∀ ts ∈ ms.map onePropertyTokens, ts ≠ [] := by
      intro ts inside
      obtain ⟨m, -, rfl⟩ := List.mem_map.mp inside
      cases m
      exact List.cons_ne_nil _ _
    have fits := length_le_of_filled [.mark ';'] each
    rw [List.length_map] at fits
    omega
  rw [tree, memberTrees_eq_map, List.cons_append, List.append_assoc, List.singleton_append,
    primaryReader, membersReader_properties reads count]
  rfl

theorem primaryReader_record {k v : TypeExpr} (keys : k.tokens.length ≤ n → Reads type k)
    (values : v.tokens.length ≤ n → Reads type v) (enough : (record k v).tokens.length ≤ n + 1) :
    primaryReader type (n + 1) ((record k v).tokens ++ rest) = some ((record k v).tree, rest) := by
  rw [tokens] at enough ⊢
  simp only [List.length_cons, List.length_append, List.length_nil] at enough
  have reads : ∀ u ∈ [k, v], Reads type u := by
    rw [List.forall_mem_cons, List.forall_mem_singleton]
    exact ⟨keys (by omega), values (by omega)⟩
  have closed : Stops [',', '|', '&', '[', '<'] (.mark '>' :: rest) := stops_mark (by decide) rest
  have two : [k, v].length ≤ n + 1 := by
    simp only [List.length_cons, List.length_nil]
    omega
  have read : separated ',' type (n + 1) _ = some ([k, v].map tree, _) :=
    separated_intercalate (by decide) (List.cons_ne_nil k [v]) two reads closed
  have text : k.tokens ++ Token.mark ',' :: (v.tokens ++ [.mark '>']) ++ rest =
      [Token.mark ','].intercalate ([k, v].map tokens) ++ .mark '>' :: rest := by simp
  have noType : wordTypes.lookup "Record" = none := rfl
  rw [tree, List.cons_append, List.cons_append, text, primaryReader, noType]
  simp only [argumentsReader, after?_mark, read]
  rfl

theorem primaryReader_tokens (writable : t.Writable letters) (noArray : ∀ u, t ≠ .array u)
    (noLink : t.link? = none)
    (inner : ∀ u : TypeExpr, u.Writable letters → u.tokens.length ≤ n → Reads type u)
    (enough : t.tokens.length ≤ n + 1) (stops : Stops ['<'] rest) :
    primaryReader type (n + 1) (t.tokens ++ rest) = some (t.tree, rest) := by
  have noArguments : after? '<' rest = none := stops '<' List.mem_cons_self
  cases writable with
  | primitive p => cases p <;> rfl
  | array element => exact absurd rfl (noArray _)
  | union filled members | intersection filled members => cases noLink
  | object members =>
    exact primaryReader_object (fun m within => inner m.type (members m within)) enough
  | @record k v key value => exact primaryReader_record (inner k key) (inner v value) enough
  | literal finite => exact primaryReader_literal finite (n + 1)
  | @named name identifier free =>
    simp [tokens, tree, primaryReader, lookup_wordTypes free, argumentsReader, noArguments, guard, free]

theorem arrayReader_of_primary {steps : Nat} {ts : List Token} {u : TypeTree}
    (read : primaryReader type steps ts = some (u, rest)) :
    arrayReader type steps ts = some (arrays u rest) := by
  rw [arrayReader, read]
  rfl

theorem arrayReader_compound (writable : t.Writable letters) (compound : t.isCompound = true)
    (inner : ∀ u : TypeExpr, u.Writable letters → u.tokens.length ≤ n → Reads type u)
    (enough : (enclosed t.isCompound t.tokens).length ≤ n + 1) :
    arrayReader type (n + 1) (enclosed t.isCompound t.tokens ++ rest) = some (arrays t.tree rest) := by
  have text : enclosed t.isCompound t.tokens = .mark '(' :: (t.tokens ++ [.mark ')']) := by
    rw [compound]
    rfl
  rw [text] at enough ⊢
  simp only [List.length_cons, List.length_append, List.length_nil] at enough
  have read := inner t writable (by omega) (.mark ')' :: rest) (stops_mark (by decide) rest)
  apply arrayReader_of_primary
  rw [List.cons_append, List.append_assoc, List.singleton_append, primaryReader, read]
  rfl

/-- Before brackets, unions and intersections stand in parentheses and all others as they are. -/
theorem arrayReader_enclosed (writable : t.Writable letters)
    (inner : ∀ u : TypeExpr, u.Writable letters → u.tokens.length ≤ n → Reads type u)
    (enough : (enclosed t.isCompound t.tokens).length ≤ n + 1) (stops : Stops ['<'] rest) :
    arrayReader type (n + 1) (enclosed t.isCompound t.tokens ++ rest) = some (arrays t.tree rest) := by
  have simple : ∀ {u : TypeExpr} {rest : List Token}, u.Writable letters → (∀ e, u ≠ .array e) →
      u.link? = none → u.tokens.length ≤ n + 1 → Stops ['<'] rest →
      arrayReader type (n + 1) (u.tokens ++ rest) = some (arrays u.tree rest) :=
    fun writable noArray noLink enough stops =>
      arrayReader_of_primary (primaryReader_tokens writable noArray noLink inner enough stops)
  induction writable generalizing rest with
  | @array e element ih =>
    have text : enclosed (array e).isCompound (array e).tokens =
        enclosed e.isCompound e.tokens ++ [.mark '[', .mark ']'] := rfl
    rw [text] at enough ⊢
    rw [List.length_append] at enough
    rw [List.append_assoc]
    have brackets : Stops ['<'] (.mark '[' :: .mark ']' :: rest) := stops_mark (by decide) _
    exact ih (by omega) brackets
  | union filled members => exact arrayReader_compound (.union filled members) rfl inner enough
  | intersection filled members =>
    exact arrayReader_compound (.intersection filled members) rfl inner enough
  | primitive p => exact simple (.primitive p) (by simp) rfl enough stops
  | object members => exact simple (.object members) (by simp) rfl enough stops
  | record key value => exact simple (.record key value) (by simp) rfl enough stops
  | literal finite => exact simple (.literal finite) (by simp) rfl enough stops
  | named identifier free => exact simple (.named identifier free) (by simp) rfl enough stops

theorem linkedReader_shown {link : Link} (writable : t.Writable letters) {item : Reader TypeTree}
    {marks : List Char} (other : link.mark ∉ marks) (enough : (t.shown link).length ≤ n)
    (reads : ∀ p ∈ t.parts link, ∀ rest, Stops marks rest →
      item (p.shown link ++ rest) = some (p.tree, rest))
    (stops : Stops (link.mark :: marks) rest) :
    linkedReader link item n (t.shown link ++ rest) = some (t.tree, rest) := by
  have splits := splits writable link
  have each : ∀ ts ∈ (t.parts link).map (shown link), ts ≠ [] := by
    intro ts inside
    obtain ⟨p, within, rfl⟩ := List.mem_map.mp inside
    exact enclosed_ne_nil _ (tokens_ne_nil (splits.writable p within).1)
  have count := length_le_of_filled [.mark link.mark] each
  rw [← splits.shown, List.length_map] at count
  have read := separated_intercalate other splits.filled (Nat.le_trans count enough) reads stops
  rw [splits.shown, linkedReader, read, Option.bind_eq_bind, Option.bind_some]
  dsimp only
  rw [combine_parts writable]
  rfl

theorem reads_typeReader (n : Nat) (t : TypeExpr) (writable : t.Writable letters)
    (enough : t.tokens.length ≤ n) : Reads (typeReader n) t := by
  induction n generalizing t with
  | zero => exact absurd (List.length_eq_zero_iff.mp (Nat.le_zero.mp enough)) (tokens_ne_nil writable)
  | succ n ih =>
    intro rest stops
    have others : Link.union.mark ∉ ['&', '[', '<'] := by decide
    apply linkedReader_shown writable others enough _ stops
    intro p within rest stops
    have members := splits writable .union
    obtain ⟨partWritable, noUnion⟩ := members.writable p within
    have partFits : (p.shown .union).length ≤ n + 1 := Nat.le_trans (members.length_le within) enough
    rw [shown_of_not_union noUnion] at partFits ⊢
    have brackets : Link.intersection.mark ∉ ['[', '<'] := by decide
    apply linkedReader_shown partWritable brackets partFits _ stops
    intro q inside rest stops
    have factors := splits partWritable .intersection
    obtain ⟨factorWritable, noIntersection⟩ := factors.writable q inside
    have factorFits : (q.shown .intersection).length ≤ n + 1 :=
      Nat.le_trans (factors.length_le inside) partFits
    rw [shown_of_not_intersection noIntersection] at factorFits ⊢
    have angle : Stops ['<'] rest := stops.mono (by simp)
    rw [arrayReader_enclosed factorWritable ih factorFits angle, arrays_of_stops (by simp) stops]

end Reading

theorem writable_typeOf {letters : Letters} {c : Context} {s : Schema} {t : TypeExpr}
    (names : ∀ e ∈ c.identifiers, letters.IsIdentifier e.2 ∧ e.2 ∉ keywords)
    (finite : ∀ node, Schema.Within node s → ∀ d, .double d ∈ node.enumValues → d.isFinite)
    (made : typeOf c s = .ok t) : t.Writable letters := by
  rw [Schema.forall_within_iff] at finite
  have formed := Context.formed_typeOf made
  clear made
  induction formed with
  | @child node u below made =>
    have smaller := Schema.sizeOf_child_lt below
    exact writable_typeOf names (finite.2 node below) made
  | primitive p => exact .primitive p
  | @global name known =>
    have globals : ∀ name ∈ writtenGlobals, isPlainKey name.toList ∧ name ∉ keywords := by decide
    exact .named (isIdentifier_of_isPlainKey (globals name known).1) (globals name known).2
  | reference refers resolved =>
    obtain ⟨definition, -, found⟩ := Context.resolve_eq_ok.mp resolved
    obtain ⟨identifier, free⟩ := names _ (mem_of_lookup found)
    exact .named identifier free
  | @listed value listed =>
    apply TypeExpr.Writable.literal
    rintro d rfl
    exact finite.1 d listed
  | tag value => exact .literal nofun
  | array element ih => exact .array ih
  | union filled members ih => exact .union filled ih
  | widened members p ih =>
    cases ih with
    | union filled members =>
      apply TypeExpr.Writable.union (by simp)
      intro t inside
      rcases List.mem_append.mp inside with before | last
      · exact members t before
      · rw [List.mem_singleton.mp last]
        exact .primitive p
  | intersection filled members ih => exact .intersection filled ih
  | object names members ih => exact .object ih
  | record keys values keyIh valueIh => exact .record keyIh valueIh
termination_by sizeOf s

/-- The text of a type is read as this type, to its end. -/
theorem readType?_text {letters : Letters} {t : TypeExpr} (writable : t.Writable letters) :
    readType? letters t.text = some t.tree := by
  have read := reads_typeReader t.tokens.length t writable (Nat.le_refl _) [] (stops_nil _)
  rw [List.append_nil] at read
  rw [readType?, Letters.lex?_of_spells (spells_text writable), Option.bind_eq_bind, Option.bind_some,
    read]
  rfl

def nestedType : TypeExpr :=
  .array (.intersection
    [.object [{ name := "a-b", type := .literal (.string "\x7d; \x22"), isOptional := true }],
     .union [.record (.primitive .string) (.named "Item"), .union [.literal (.int (-3)),
       .literal (.double (.finite true 1 0))], .literal .null]])

theorem readType?_text_nested :
    nestedType.Writable .ascii ∧ readType? .ascii nestedType.text = some (.array (.linked .intersection
      [.object [{ name := "a-b", type := .text "\x7d; \x22", isOptional := true }],
       .linked .union [.named "Record" [.primitive .string, .named "Item" []], .number "-3",
         .number ((Double.finite true 1 0).text doubleFormat), .primitive .null]])) := by
  have item : (TypeExpr.named "Item").Writable .ascii :=
    .named (isIdentifier_of_isPlainKey rfl) (by decide)
  have double : (TypeExpr.literal (.double (.finite true 1 0))).Writable .ascii := by
    apply TypeExpr.Writable.literal
    rintro d ⟨⟩
    rfl
  have numbers : (TypeExpr.union [.literal (.int (-3)), .literal (.double (.finite true 1 0))]).Writable
      .ascii := by
    apply TypeExpr.Writable.union (List.cons_ne_nil _ _)
    rw [List.forall_mem_cons, List.forall_mem_singleton]
    exact ⟨.literal nofun, double⟩
  have writable : nestedType.Writable .ascii := by
    apply TypeExpr.Writable.array
    apply TypeExpr.Writable.intersection (List.cons_ne_nil _ _)
    rw [List.forall_mem_cons, List.forall_mem_singleton]
    constructor
    · apply TypeExpr.Writable.object
      rw [List.forall_mem_singleton]
      exact .literal nofun
    · apply TypeExpr.Writable.union (List.cons_ne_nil _ _)
      rw [List.forall_mem_cons, List.forall_mem_cons, List.forall_mem_singleton]
      exact ⟨.record (.primitive _) item, numbers, .literal nofun⟩
  exact ⟨writable, readType?_text writable⟩

end SchemaSplit.TypeScript
