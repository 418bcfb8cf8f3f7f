import SchemaSplit.TypeScript.Conversion
import SchemaSplit.Proofs.Reference
import SchemaSplit.Proofs.Traversal
import SchemaSplit.Proofs.TypeScript.Pieces

namespace SchemaSplit.TypeScript

section Equations

variable (c : Context)

theorem typesOf_eq_mapM (ss : List Schema) : typesOf c ss = ss.mapM (typeOf c) := by
  induction ss with
  | nil => rfl
  | cons s rest ih => rw [typesOf, List.mapM_cons, ih]

def branchOf (d : Option Discriminator) (s : Schema) : Except ReferenceFault TypeExpr := do
  let type ← typeOf c s
  return match d.bind fun d => (s.ref.bind (discriminatorValue? c.scope.root d)).map (d, ·) with
    | some (d, value) => tagged d value type
    | none => type

theorem branchesOf_eq_mapM (d : Option Discriminator) (ss : List Schema) :
    branchesOf c d ss = ss.mapM (branchOf c d) := by
  induction ss with
  | nil => rfl
  | cons s rest ih =>
    rw [branchesOf, List.mapM_cons, ih, branchOf, bind_assoc]
    rfl

def memberOf (required : List String) (property : String × Schema) :
    Except ReferenceFault (Member TypeExpr) := do
  let type ← typeOf c property.2
  return {
    name := property.1, type, isOptional := !required.contains property.1,
    description := property.2.description }

theorem membersOf_eq_mapM (required : List String) (properties : List (String × Schema)) :
    membersOf c required properties = properties.mapM (memberOf c required) := by
  induction properties with
  | nil => rfl
  | cons property rest ih =>
    rw [membersOf, List.mapM_cons, ih, memberOf, bind_assoc]
    rfl

def objectTypeOf (s : Schema) : Except ReferenceFault TypeExpr := do
  let record ← recordTypeOf c s.additional
  match s.properties with
  | [] => return record.getD .unknownRecord
  | properties =>
    let object := TypeExpr.object (← membersOf c s.required properties)
    return match record with
      | some record => .intersection [object, record]
      | none => object

def statedTypeOf (s : Schema) (name : String) : Except ReferenceFault TypeExpr :=
  match name with
  | "string" => return c.stringType s.keywords.format
  | "number" | "integer" => return .primitive .number
  | "boolean" => return .primitive .boolean
  | "null" => return c.nullType
  | "file" => return .named "Blob"
  | "array" => return .array (← itemTypeOf c s.items)
  | "object" => objectTypeOf c s
  | _ => return .primitive .unknown

def plainTypeOf (s : Schema) : Except ReferenceFault TypeExpr :=
  match s.type with
  | some (.single name) => statedTypeOf c s name
  | some (.multiple names) => do
    match ← (names.filter (· != "null")).mapM (statedTypeOf c s) with
    | [] => pure c.nullType
    | [t] => pure t
    | ts => pure (.union ts)
  | none =>
    if !s.properties.isEmpty || s.additional.isSome then objectTypeOf c s
    else pure (.primitive .unknown)

def bareTypeOf (s : Schema) : Except ReferenceFault TypeExpr :=
  match s.ref with
  | some reference => TypeExpr.named <$> c.resolve reference
  | none =>
    if !s.allOf.isEmpty then do
      let types ← typesOf c s.allOf
      if s.properties.isEmpty then pure (intersectionOf types)
      else
        let object ← objectTypeOf c s
        pure (intersectionOf (types ++ [object]))
    else if !s.anyOf.isEmpty then TypeExpr.union <$> typesOf c s.anyOf
    else if !s.oneOf.isEmpty then
      TypeExpr.union <$> branchesOf c s.keywords.discriminator s.oneOf
    else
      match s.keywords.enum with
      | some (value :: values) => pure (.union ((value :: values).map .literal))
      | _ => plainTypeOf c s

theorem typeOf_eq (s : Schema) :
    typeOf c s = c.admitNull s.isNullable <$> bareTypeOf c s := by
  rcases s with ⟨⟨ref, type, format, description, required, enum, nullable, xNullable,
    discriminator, extra⟩, properties, items, additional, allOf, anyOf, oneOf⟩
  rw [map_eq_pure_bind, typeOf, bareTypeOf]
  rcases ref with _ | reference
  · rcases allOf with _ | ⟨member, members⟩
    · rcases anyOf with _ | ⟨branch, branches⟩
      · rcases oneOf with _ | ⟨branch, branches⟩
        · rcases type with _ | (name | names)
          · rcases enum with _ | (_ | ⟨value, values⟩) <;>
              rcases properties with _ | ⟨property, properties⟩ <;>
              rcases additional with _ | additional <;> rfl
          · rcases enum with _ | (_ | ⟨value, values⟩) <;> rfl
          · rcases enum with _ | (_ | ⟨value, values⟩)
            · refine Eq.trans ?_ (bind_assoc _ _ _).symm
              refine bind_congr fun types => ?_
              rcases types with _ | ⟨t, _ | ⟨u, rest⟩⟩ <;> rfl
            · refine Eq.trans ?_ (bind_assoc _ _ _).symm
              refine bind_congr fun types => ?_
              rcases types with _ | ⟨t, _ | ⟨u, rest⟩⟩ <;> rfl
            · rfl
        · rfl
      · rfl
    · refine Eq.trans ?_ (bind_assoc _ _ _).symm
      refine bind_congr fun types => ?_
      rcases properties with _ | ⟨property, properties⟩
      · rfl
      · exact (bind_assoc _ _ _).symm
  · rfl

end Equations

def writtenGlobals : List String := ["Date", "Blob", "Record"]

namespace Context

variable {c : Context} {s child : Schema} {name : String} {t : TypeExpr}

theorem resolve_eq_ok {reference identifier : String} :
    c.resolve reference = .ok identifier ↔
      ∃ name, referenceName? c.scope.root reference = some name ∧
        c.identifiers.lookup name = some identifier := by
  rw [resolve]
  cases referenceName? c.scope.root reference with
  | none => simp
  | some name => cases found : c.identifiers.lookup name <;> simp [found]

/-- How the type of a node is put together: from types of the nodes below it and from what the node
    says itself. -/
inductive Formed (c : Context) (s : Schema) : TypeExpr → Prop
  | child {node : Schema} {t : TypeExpr} (below : node ∈ s.children) (made : typeOf c node = .ok t) :
      Formed c s t
  | primitive (p : Primitive) : Formed c s (.primitive p)
  | global {name : String} (known : name ∈ writtenGlobals) : Formed c s (.named name)
  | reference {reference identifier : String} (refers : s.ref = some reference)
      (resolved : c.resolve reference = .ok identifier) : Formed c s (.named identifier)
  | listed {value : Scalar} (listed : value ∈ s.enumValues) : Formed c s (.literal value)
  | tag (value : String) : Formed c s (.literal (.string value))
  | array {t : TypeExpr} (element : Formed c s t) : Formed c s (.array t)
  | union {ts : List TypeExpr} (filled : ts ≠ []) (members : ∀ t ∈ ts, Formed c s t) :
      Formed c s (.union ts)
  | widened {ts : List TypeExpr} (members : Formed c s (.union ts)) (p : Primitive) :
      Formed c s (.union (ts ++ [.primitive p]))
  | intersection {ts : List TypeExpr} (filled : ts ≠ []) (members : ∀ t ∈ ts, Formed c s t) :
      Formed c s (.intersection ts)
  | object {ms : List (Member TypeExpr)}
      (names : ms.map (·.name) = s.properties.map (·.1) ∨ ms.length = 1)
      (members : ∀ m ∈ ms, Formed c s m.type) : Formed c s (.object ms)
  | record {key value : TypeExpr} (keys : Formed c s key) (values : Formed c s value) :
      Formed c s (.record key value)

section Clauses

theorem ne_nil_of_forall₂ {α β : Type} {R : α → β → Prop} {as : List α} {bs : List β}
    (related : List.Forall₂ R as bs) (filled : as ≠ []) : bs ≠ [] := by
  cases related with
  | nil => exact absurd rfl filled
  | cons => exact List.cons_ne_nil _ _

theorem formed_intersectionOf {ts : List TypeExpr} (filled : ts ≠ [])
    (all : ∀ t ∈ ts, c.Formed s t) : c.Formed s (intersectionOf ts) := by
  rw [intersectionOf.eq_def]
  split
  · exact all _ (List.mem_singleton_self _)
  · exact .intersection filled all

theorem formed_pair {t u : TypeExpr} (first : c.Formed s t) (second : c.Formed s u) :
    c.Formed s (.intersection [t, u]) := by
  apply Formed.intersection (List.cons_ne_nil _ _)
  rw [List.forall_mem_cons, List.forall_mem_singleton]
  exact ⟨first, second⟩

theorem formed_admitNull (formed : c.Formed s t) (isNullable : Bool) :
    c.Formed s (c.admitNull isNullable t) := by
  cases isNullable
  · exact formed
  · rw [admitNull, if_pos rfl]
    unfold TypeExpr.orPrimitive
    split
    · exact formed
    · split
      · split
        · exact formed
        · exact .widened formed _
      · apply Formed.union (List.cons_ne_nil _ _)
        rw [List.forall_mem_cons, List.forall_mem_singleton]
        exact ⟨formed, .primitive _⟩

theorem formed_stringType (format : Option String) : c.Formed s (c.stringType format) := by
  unfold stringType
  split
  · split
    · exact .global (by decide)
    · exact .primitive _
  · split
    · exact .global (by decide)
    · exact .primitive _
  · exact .global (by decide)
  · exact .primitive _

theorem formed_unknownRecord : c.Formed s .unknownRecord := .record (.primitive _) (.primitive _)

theorem formed_tagged {d : Discriminator} {value : String} (formed : c.Formed s t) :
    c.Formed s (tagged d value t) := by
  apply formed_pair _ formed
  apply Formed.object (.inr rfl)
  intro m inside
  rw [List.mem_singleton.mp inside]
  exact .tag value

theorem formed_typesOf {ss : List Schema} {ts : List TypeExpr} (inside : ss ⊆ s.children)
    (made : typesOf c ss = .ok ts) : ∀ t ∈ ts, c.Formed s t := by
  rw [typesOf_eq_mapM, List.mapM_eq_ok] at made
  intro t member
  obtain ⟨child, found, made⟩ := made.exists_left member
  exact .child (inside found) made

theorem formed_branchesOf {d : Option Discriminator} {ss : List Schema} {ts : List TypeExpr}
    (inside : ss ⊆ s.children) (made : branchesOf c d ss = .ok ts) : ∀ t ∈ ts, c.Formed s t := by
  rw [branchesOf_eq_mapM, List.mapM_eq_ok] at made
  intro t member
  obtain ⟨child, found, made⟩ := made.exists_left member
  rw [branchOf, Except.bind_eq_ok] at made
  obtain ⟨type, made, result⟩ := made
  have formed : c.Formed s type := .child (inside found) made
  split at result
  · cases result
    exact formed_tagged formed
  · cases result
    exact formed

theorem formed_membersOf {required : List String} {properties : List (String × Schema)}
    {ms : List (Member TypeExpr)} (inside : properties.map (·.2) ⊆ s.children)
    (made : membersOf c required properties = .ok ms) : ∀ m ∈ ms, c.Formed s m.type := by
  rw [membersOf_eq_mapM, List.mapM_eq_ok] at made
  intro m member
  obtain ⟨property, found, made⟩ := made.exists_left member
  rw [memberOf, Except.bind_eq_ok] at made
  obtain ⟨type, made, result⟩ := made
  cases result
  exact .child (inside (List.mem_map_of_mem found)) made

theorem names_membersOf {required : List String} {properties : List (String × Schema)}
    {ms : List (Member TypeExpr)} (made : membersOf c required properties = .ok ms) :
    ms.map (·.name) = properties.map (·.1) := by
  rw [membersOf_eq_mapM, List.mapM_eq_ok] at made
  induction made with
  | nil => rfl
  | cons made _ ih =>
    rw [memberOf, Except.bind_eq_ok] at made
    obtain ⟨type, -, result⟩ := made
    cases result
    rw [List.map_cons, List.map_cons, ih]

theorem formed_recordTypeOf {record : TypeExpr}
    (made : recordTypeOf c s.additional = .ok (some record)) : c.Formed s record := by
  cases further : s.additional with
  | none =>
    rw [further] at made
    cases made
  | some additional =>
    rw [further] at made
    cases additional with
    | any allowed =>
      cases allowed
      · cases made
      · cases made
        exact formed_unknownRecord
    | schema values =>
      rw [recordTypeOf, Except.bind_eq_ok] at made
      obtain ⟨type, made, result⟩ := made
      cases result
      have inside : values ∈ s.children := by simp [Schema.children, Schema.valueSchema, further]
      exact .record (.primitive _) (.child inside made)

theorem formed_objectTypeOf (made : objectTypeOf c s = .ok t) : c.Formed s t := by
  rw [objectTypeOf, Except.bind_eq_ok] at made
  obtain ⟨record, further, made⟩ := made
  have formed : ∀ u, record = some u → c.Formed s u := by
    rintro u rfl
    exact formed_recordTypeOf further
  split at made
  · cases made
    cases record with
    | none => exact formed_unknownRecord
    | some u => exact formed u rfl
  · rw [Except.bind_eq_ok] at made
    obtain ⟨members, made, result⟩ := made
    have object : c.Formed s (.object members) :=
      .object (.inl (names_membersOf made)) (formed_membersOf s.properties_subset_children made)
    cases result
    cases record with
    | none => exact object
    | some u => exact formed_pair object (formed u rfl)

theorem formed_statedTypeOf {name : String} (made : statedTypeOf c s name = .ok t) :
    c.Formed s t := by
  unfold statedTypeOf at made
  split at made
  · cases made
    exact formed_stringType _
  · cases made
    exact .primitive _
  · cases made
    exact .primitive _
  · cases made
    exact .primitive _
  · cases made
    exact .primitive _
  · cases made
    exact .global (by decide)
  · rw [Except.bind_eq_ok] at made
    obtain ⟨element, made, result⟩ := made
    cases result
    apply Formed.array
    cases item : s.items with
    | none =>
      rw [item] at made
      cases made
      exact .primitive _
    | some items =>
      rw [item] at made
      have inside : items ∈ s.children := by simp [Schema.children, item]
      exact .child inside made
  · exact formed_objectTypeOf made
  · cases made
    exact .primitive _

theorem formed_plainTypeOf (made : plainTypeOf c s = .ok t) : c.Formed s t := by
  unfold plainTypeOf at made
  split at made
  · exact formed_statedTypeOf made
  · rw [Except.bind_eq_ok] at made
    obtain ⟨types, stated, result⟩ := made
    rw [List.mapM_eq_ok] at stated
    have each : ∀ u ∈ types, c.Formed s u := by
      intro u member
      obtain ⟨name, -, made⟩ := stated.exists_left member
      exact formed_statedTypeOf made
    split at result
    · cases result
      exact .primitive _
    · cases result
      exact each _ (List.mem_singleton_self _)
    · rename_i several _
      cases result
      exact .union several each
  · split at made
    · exact formed_objectTypeOf made
    · cases made
      exact .primitive _

theorem formed_bareTypeOf (made : bareTypeOf c s = .ok t) : c.Formed s t := by
  unfold bareTypeOf at made
  split at made
  · rename_i reference refers
    rw [Except.map_eq_ok] at made
    obtain ⟨identifier, resolved, rfl⟩ := made
    exact .reference refers resolved
  · split at made
    · rename_i members
      rw [Except.bind_eq_ok] at made
      obtain ⟨types, made, result⟩ := made
      have each := formed_typesOf s.allOf_subset_children made
      split at result
      · cases result
        rw [typesOf_eq_mapM, List.mapM_eq_ok] at made
        exact formed_intersectionOf (ne_nil_of_forall₂ made (by simpa using members)) each
      · rw [Except.bind_eq_ok] at result
        obtain ⟨object, made, result⟩ := result
        cases result
        apply formed_intersectionOf (by simp)
        intro u member
        rcases List.mem_append.mp member with first | last
        · exact each u first
        · rw [List.mem_singleton.mp last]
          exact formed_objectTypeOf made
    · split at made
      · rename_i branches
        rw [Except.map_eq_ok] at made
        obtain ⟨types, made, rfl⟩ := made
        have each := formed_typesOf s.anyOf_subset_children made
        rw [typesOf_eq_mapM, List.mapM_eq_ok] at made
        exact .union (ne_nil_of_forall₂ made (by simpa using branches)) each
      · split at made
        · rename_i branches
          rw [Except.map_eq_ok] at made
          obtain ⟨types, made, rfl⟩ := made
          have each := formed_branchesOf s.oneOf_subset_children made
          rw [branchesOf_eq_mapM, List.mapM_eq_ok] at made
          exact .union (ne_nil_of_forall₂ made (by simpa using branches)) each
        · split at made
          · rename_i value values listed
            cases made
            apply Formed.union (List.cons_ne_nil _ _)
            intro u member
            rw [← List.map_cons, List.mem_map] at member
            obtain ⟨v, inside, rfl⟩ := member
            apply Formed.listed
            rw [Schema.enumValues, listed]
            exact inside
          · exact formed_plainTypeOf made

end Clauses

/-- Every type that a node is given is put together in these ways. -/
theorem formed_typeOf (made : typeOf c s = .ok t) : c.Formed s t := by
  rw [typeOf_eq, Except.map_eq_ok] at made
  obtain ⟨bare, made, rfl⟩ := made
  exact formed_admitNull (formed_bareTypeOf made) _

/-- A name that a node may be written with: a global one, or the identifier of a definition that the
    node refers to somewhere. -/
def MayWrite (c : Context) (s : Schema) (name : String) : Prop :=
  name ∈ writtenGlobals ∨
    ∃ definition, s.Mentions c.scope.root definition ∧ c.identifiers.lookup definition = some name

theorem MayWrite.of_child (below : child ∈ s.children) (may : c.MayWrite child name) :
    c.MayWrite s name := by
  rcases may with isGlobal | ⟨definition, mentions, found⟩
  · exact .inl isGlobal
  · exact .inr ⟨definition, Schema.mentions_iff.mpr (.inr ⟨child, below, mentions⟩), found⟩

def Covers (c : Context) (s : Schema) (t : TypeExpr) : Prop :=
  ∀ name ∈ t.names, c.MayWrite s name

theorem covers_of_formed
    (below : ∀ child ∈ s.children, ∀ t, typeOf c child = .ok t → c.Covers child t)
    (formed : c.Formed s t) : c.Covers s t := by
  intro name member
  induction formed with
  | child inside made => exact (below _ inside _ made name member).of_child inside
  | primitive p | listed listed | tag value => cases member
  | global known =>
    rw [List.mem_singleton.mp member]
    exact .inl known
  | @reference reference identifier refers resolved =>
    obtain ⟨definition, named, found⟩ := resolve_eq_ok.mp resolved
    rw [List.mem_singleton.mp member]
    right
    apply Exists.intro definition
    rw [Schema.mentions_iff, refers, Option.bind_some]
    exact ⟨.inl named, found⟩
  | array element ih =>
    rw [TypeExpr.names_array] at member
    exact ih member
  | union filled members ih =>
    rw [TypeExpr.names_union, List.mem_flatMap] at member
    obtain ⟨t, inside, member⟩ := member
    exact ih t inside member
  | widened members p ih =>
    rw [TypeExpr.names_union, List.flatMap_append, ← TypeExpr.names_union, List.flatMap_singleton,
      TypeExpr.names_primitive, List.append_nil] at member
    exact ih member
  | intersection filled members ih =>
    rw [TypeExpr.names_intersection, List.mem_flatMap] at member
    obtain ⟨t, inside, member⟩ := member
    exact ih t inside member
  | object names members ih =>
    rw [TypeExpr.names_object, List.mem_flatMap] at member
    obtain ⟨m, inside, member⟩ := member
    exact ih m inside member
  | record keys values keyIh valueIh =>
    rw [TypeExpr.names_record, List.cons_append, List.mem_cons, List.mem_append] at member
    rcases member with rfl | inKey | inValue
    · exact .inl (by decide)
    · exact keyIh inKey
    · exact valueIh inValue

/-- The type of a node is written with nothing else than the node may be. -/
theorem covers_typeOf {c : Context} {s : Schema} {t : TypeExpr} (made : typeOf c s = .ok t) :
    c.Covers s t := by
  have below : ∀ child ∈ s.children, ∀ t, typeOf c child = .ok t → c.Covers child t := by
    intro child inside u made
    have smaller := Schema.sizeOf_child_lt inside
    exact covers_typeOf made
  exact covers_of_formed below (formed_typeOf made)
termination_by sizeOf s

end Context
end SchemaSplit.TypeScript
