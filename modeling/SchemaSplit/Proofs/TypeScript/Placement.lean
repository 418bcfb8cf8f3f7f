import SchemaSplit.Proofs.TypeScript.Members
import SchemaSplit.Proofs.TypeScript.Success
import SchemaSplit.Proofs.TypeScript.Values

namespace SchemaSplit

/-- The nodes whose properties a definition with a shape declares: itself and its members that refer to
    nothing. -/
def Schema.parts (s : Schema) : List Schema := s :: s.allOf.filter (·.ref.isNone)

def Schema.declaredProperties (s : Schema) : List (Schema × String × Schema) :=
  s.parts.flatMap fun part => part.properties.map (part, ·)

namespace TypeScript

namespace TypeExpr

variable {t u v : TypeExpr} {p : Primitive}

theorem Within.trans (first : t.Within u) (second : u.Within v) : t.Within v := by
  induction second with
  | refl => exact first
  | child below _ ih => exact .child below (ih first)

theorem within_of_child (below : t ∈ u.children) : t.Within u := .child below (.refl t)

theorem within_orPrimitive (below : u ∈ t.children) (p : Primitive) :
    u.Within (t.orPrimitive p) := by
  unfold orPrimitive
  split
  · exact within_of_child below
  · split
    · split
      · exact within_of_child below
      · exact within_of_child (List.mem_append_left _ below)
    · exact .child List.mem_cons_self (within_of_child below)

def HasPrimitive (p : Primitive) (t : TypeExpr) : Prop :=
  t = primitive p ∨ ∃ members, t = union members ∧ primitive p ∈ members

theorem any_isPrimitive {members : List TypeExpr} :
    members.any (isPrimitive p) ↔ primitive p ∈ members := by
  rw [List.any_eq_true]
  constructor
  · rintro ⟨t, inside, same⟩
    rwa [← isPrimitive_iff.mp same]
  · exact fun inside => ⟨_, inside, isPrimitive_iff.mpr rfl⟩

theorem hasPrimitive_orPrimitive (p : Primitive) (t : TypeExpr) :
    (t.orPrimitive p).HasPrimitive p := by
  unfold orPrimitive
  split
  · rename_i same
    exact .inl (isPrimitive_iff.mp same)
  · split
    · rename_i members _
      split
      · rename_i there
        exact .inr ⟨members, rfl, any_isPrimitive.mp there⟩
      · exact .inr ⟨_, rfl, List.mem_append_right _ (List.mem_singleton_self _)⟩
    · exact .inr ⟨_, rfl, List.mem_cons_of_mem _ (List.mem_singleton_self _)⟩

theorem HasPrimitive.orPrimitive (has : t.HasPrimitive p) : t.orPrimitive p = t := by
  unfold TypeExpr.orPrimitive
  rcases has with rfl | ⟨members, rfl, inside⟩
  · exact if_pos (isPrimitive_iff.mpr rfl)
  · rw [if_neg (by simp [isPrimitive])]
    exact if_pos (any_isPrimitive.mpr inside)

theorem within_intersectionOf {ts : List TypeExpr} (inside : t ∈ ts) :
    t.Within (intersectionOf ts) := by
  unfold intersectionOf
  split
  · rw [List.mem_singleton.mp inside]
    exact .refl _
  · exact within_of_child inside

end TypeExpr

namespace Context

variable {c : Context} {s node child : Schema} {t u : TypeExpr}

theorem hasPrimitive_typeOf (nullable : s.isNullable) (made : typeOf c s = .ok t) :
    t.HasPrimitive c.nullPrimitive := by
  rw [typeOf_eq, Except.map_eq_ok] at made
  obtain ⟨bare, -, rfl⟩ := made
  rw [admitNull, if_pos nullable]
  exact TypeExpr.hasPrimitive_orPrimitive _ bare

/-- The type of a node stands in a type. Null may have been added to it there: the type of a node with
    a single member is that of the member, with null if the node allows it. -/
def Places (c : Context) (t : TypeExpr) (node : Schema) : Prop :=
  ∃ u, typeOf c node = .ok u ∧ ∃ isNullable, (c.admitNull isNullable u).Within t

theorem places_typeOf (made : typeOf c node = .ok t) : c.Places t node :=
  ⟨t, made, false, .refl t⟩

theorem Places.of_within (placed : c.Places t node) (inside : t.Within u) : c.Places u node := by
  obtain ⟨v, made, isNullable, here⟩ := placed
  exact ⟨v, made, isNullable, here.trans inside⟩

theorem Places.of_child (placed : c.Places t node) (below : t ∈ u.children) : c.Places u node :=
  placed.of_within (TypeExpr.within_of_child below)

theorem Places.admitNull (placed : c.Places t node) (isNullable : Bool) :
    c.Places (c.admitNull isNullable t) node := by
  cases isNullable with
  | false => exact placed
  | true =>
    obtain ⟨u, made, added, here⟩ := placed
    cases here with
    | refl =>
      refine ⟨u, made, true, ?_⟩
      cases added with
      | false => exact .refl _
      | true =>
        -- Null is added once only.
        have same : c.admitNull true (c.admitNull true u) = c.admitNull true u :=
          (TypeExpr.hasPrimitive_orPrimitive _ u).orPrimitive
        rw [same]
        exact .refl _
    | child below here =>
      exact ⟨u, made, added, here.trans (TypeExpr.within_orPrimitive below _)⟩

/-- If the node allows null, then its type stands there as it is. -/
theorem Places.within_of_nullable (placed : c.Places t node) (nullable : node.isNullable) :
    ∃ u, typeOf c node = .ok u ∧ u.Within t := by
  obtain ⟨u, made, added, here⟩ := placed
  refine ⟨u, made, ?_⟩
  cases added with
  | false => exact here
  | true => rwa [Context.admitNull, if_pos rfl, (hasPrimitive_typeOf nullable made).orPrimitive] at here

section Clauses

theorem places_typesOf {ss : List Schema} {ts : List TypeExpr} (made : typesOf c ss = .ok ts)
    (inside : child ∈ ss) : ∃ t ∈ ts, c.Places t child := by
  rw [typesOf_eq_mapM, List.mapM_eq_ok] at made
  obtain ⟨t, member, made⟩ := made.exists_right inside
  exact ⟨t, member, places_typeOf made⟩

theorem places_branchesOf {d : Option Discriminator} {ss : List Schema} {ts : List TypeExpr}
    (made : branchesOf c d ss = .ok ts) (inside : child ∈ ss) : ∃ t ∈ ts, c.Places t child := by
  rw [branchesOf_eq_mapM, List.mapM_eq_ok] at made
  obtain ⟨t, member, made⟩ := made.exists_right inside
  refine ⟨t, member, ?_⟩
  rw [branchOf, Except.bind_eq_ok] at made
  obtain ⟨type, made, result⟩ := made
  split at result
  · cases result
    exact (places_typeOf made).of_child (List.mem_cons_of_mem _ (List.mem_singleton_self type))
  · cases result
    exact places_typeOf made

theorem places_membersOf {required : List String} {properties : List (String × Schema)}
    {ms : List (Member TypeExpr)} (made : membersOf c required properties = .ok ms)
    (inside : child ∈ properties.map (·.2)) : ∃ m ∈ ms, c.Places m.type child := by
  obtain ⟨property, declared, rfl⟩ := List.mem_map.mp inside
  rw [membersOf_eq_mapM, List.mapM_eq_ok] at made
  obtain ⟨m, member, made⟩ := made.exists_right declared
  rw [memberOf, Except.bind_eq_ok] at made
  obtain ⟨type, made, result⟩ := made
  cases result
  exact ⟨_, member, places_typeOf made⟩

theorem places_recordTypeOf {record : Option TypeExpr}
    (made : recordTypeOf c s.additional = .ok record) (inside : s.valueSchema = some child) :
    ∃ t, record = some t ∧ c.Places t child := by
  rcases further : s.additional with _ | (allowed | values)
  · simp [Schema.valueSchema, further] at inside
  · simp [Schema.valueSchema, further] at inside
  · rw [Schema.valueSchema, further] at inside
    cases inside
    rw [further, recordTypeOf, Except.bind_eq_ok] at made
    obtain ⟨type, made, result⟩ := made
    cases result
    refine ⟨_, rfl, (places_typeOf made).of_child ?_⟩
    exact List.mem_cons_of_mem _ (List.mem_singleton_self type)

theorem places_objectTypeOf (made : objectTypeOf c s = .ok t) (inside : child ∈ s.entryNodes) :
    c.Places t child := by
  rw [objectTypeOf, Except.bind_eq_ok] at made
  obtain ⟨record, further, made⟩ := made
  rw [Schema.entryNodes, List.mem_append, Option.mem_toList] at inside
  split at made
  · rename_i none
    cases made
    rcases inside with value | property
    · obtain ⟨t, rfl, placed⟩ := places_recordTypeOf further value
      exact placed
    · simp [none] at property
  · rw [Except.bind_eq_ok] at made
    obtain ⟨members, made, result⟩ := made
    have object (property : child ∈ s.properties.map (·.2)) : c.Places (.object members) child := by
      obtain ⟨m, member, placed⟩ := places_membersOf made property
      exact placed.of_child (List.mem_map_of_mem member)
    cases result
    rcases inside with value | property
    · obtain ⟨t, rfl, placed⟩ := places_recordTypeOf further value
      exact placed.of_child (List.mem_cons_of_mem _ (List.mem_singleton_self t))
    · cases record with
      | none => exact object property
      | some record => exact (object property).of_child List.mem_cons_self

theorem places_statedTypeOf {name : String} (made : statedTypeOf c s name = .ok t)
    (inside : child ∈ s.statedNodes name) : c.Places t child := by
  unfold Schema.statedNodes at inside
  split at inside
  · rw [Option.mem_toList] at inside
    rw [statedTypeOf, inside, Except.bind_eq_ok] at made
    obtain ⟨element, made, result⟩ := made
    cases result
    exact (places_typeOf made).of_child (List.mem_singleton_self element)
  · exact places_objectTypeOf made inside
  · cases inside

theorem places_plainTypeOf (made : plainTypeOf c s = .ok t) (inside : child ∈ s.plainNodes) :
    c.Places t child := by
  unfold plainTypeOf at made
  rw [Schema.plainNodes] at inside
  split at made
  · rename_i name single
    rw [single] at inside
    exact places_statedTypeOf made inside
  · rename_i names multiple
    rw [multiple] at inside
    obtain ⟨name, listed, inside⟩ := List.mem_flatMap.mp inside
    obtain ⟨types, stated, result⟩ := Except.bind_eq_ok.mp made
    obtain ⟨u, member, typed⟩ := (List.mapM_eq_ok.mp stated).exists_right listed
    have placed := places_statedTypeOf typed inside
    split at result
    · cases member
    · cases result
      rwa [List.mem_singleton.mp member] at placed
    · cases result
      exact placed.of_child member
  · rename_i untyped
    rw [untyped] at inside
    dsimp only at inside
    split at made
    · rename_i entries
      rw [if_pos entries] at inside
      exact places_objectTypeOf made inside
    · rename_i none
      rw [if_neg none] at inside
      cases inside

theorem places_bareTypeOf (made : bareTypeOf c s = .ok t) (inside : child ∈ s.typeNodes) :
    c.Places t child := by
  unfold bareTypeOf at made
  rw [Schema.typeNodes] at inside
  split at made
  · rename_i reference refers
    rw [refers] at inside
    cases inside
  · rename_i inline
    rw [inline, Option.isSome_none, if_neg Bool.false_ne_true] at inside
    split at made
    · rename_i members
      rw [if_pos members] at inside
      obtain ⟨types, typed, result⟩ := Except.bind_eq_ok.mp made
      have member (below : child ∈ s.allOf) : ∃ u ∈ types, c.Places u child :=
        places_typesOf typed below
      split at result
      · rename_i none
        rw [if_pos none, List.append_nil] at inside
        obtain ⟨u, among, placed⟩ := member inside
        cases result
        exact placed.of_within (TypeExpr.within_intersectionOf among)
      · rename_i properties
        rw [if_neg properties, List.mem_append] at inside
        obtain ⟨object, typed, result⟩ := Except.bind_eq_ok.mp result
        cases result
        rcases inside with below | entry
        · obtain ⟨u, among, placed⟩ := member below
          exact placed.of_within (TypeExpr.within_intersectionOf (List.mem_append_left _ among))
        · refine (places_objectTypeOf typed entry).of_within (TypeExpr.within_intersectionOf ?_)
          exact List.mem_append_right _ (List.mem_singleton_self object)
    · rename_i noMembers
      rw [if_neg noMembers] at inside
      split at made
      · rename_i branches
        rw [if_pos branches] at inside
        obtain ⟨types, typed, rfl⟩ := Except.map_eq_ok.mp made
        obtain ⟨u, among, placed⟩ := places_typesOf typed inside
        exact placed.of_child among
      · rename_i noBranches
        rw [if_neg noBranches] at inside
        split at made
        · rename_i branches
          rw [if_pos branches] at inside
          obtain ⟨types, typed, rfl⟩ := Except.map_eq_ok.mp made
          obtain ⟨u, among, placed⟩ := places_branchesOf typed inside
          exact placed.of_child among
        · rename_i noBranches
          rw [if_neg noBranches, Schema.enumValues] at inside
          split at made
          · rename_i listing
            rw [listing] at inside
            cases inside
          · refine places_plainTypeOf made ?_
            rcases listing : s.keywords.enum with _ | (_ | ⟨value, values⟩)
            · rwa [listing] at inside
            · rwa [listing] at inside
            · rename_i unlisted
              exact absurd listing (unlisted value values)

end Clauses

theorem places_of_typeNodes (made : typeOf c s = .ok t) (below : child ∈ s.typeNodes) :
    c.Places t child := by
  rw [typeOf_eq, Except.map_eq_ok] at made
  obtain ⟨bare, made, rfl⟩ := made
  exact (places_bareTypeOf made below).admitNull _

theorem places_of_typeWithin (inside : Schema.TypeWithin node s) (made : typeOf c s = .ok t) :
    c.Places t node := by
  induction inside generalizing t with
  | refl => exact places_typeOf made
  | step below _ ih =>
    obtain ⟨u, typed, isNullable, here⟩ := places_of_typeNodes made below
    exact ((ih typed).admitNull isNullable).of_within here

end Context

/-- The nodes that a definition's types begin with where it is declared in this way: those of the
    properties that it declares, or itself, or none. -/
def Body.roots (s : Schema) : Body → List Schema
  | interfaceType .. | classType .. => s.declaredProperties.map (·.2.2)
  | aliasType _ => [s]
  | constants _ => []

def Body.Converts (body : Body) (s node : Schema) : Prop :=
  ∃ root ∈ body.roots s, node.TypeWithin root

theorem Body.roots_of_isObject {body : Body} (isObject : body.isObject) (s : Schema) :
    body.roots s = s.declaredProperties.map (·.2.2) := by
  cases body with
  | interfaceType | classType => rfl
  | aliasType | constants => cases isObject

section Bodies

variable {c : Context} {definition : String} {s : Schema} {body : Body}

theorem bodyOf_of_shapeless (noValues : s.enumValues = [])
    (shapeless : shape? c.scope c.settings.typeStyle [definition] s = none) :
    bodyOf c definition s = .aliasType <$> typeOf c s := by
  rw [bodyOf, noValues, shapeless]
  cases typeOf c s <;> rfl

theorem isObject_iff_shape (made : bodyOf c definition s = .ok body) :
    body.isObject ↔ s.enumValues = [] ∧
      (shape? c.scope c.settings.typeStyle [definition] s).isSome := by
  constructor
  · intro isObject
    cases bodyOf_cases made with
    | constants => cases isObject
    | aliasType => cases isObject
    | object noValues shaped => exact ⟨noValues, Option.isSome_of_eq_some shaped⟩
  · rintro ⟨noValues, shaped⟩
    obtain ⟨shape, shaped⟩ := Option.isSome_iff_exists.mp shaped
    exact (isObject_of_shape made noValues shaped).1

/-- The members of an interface or a class are those of the properties that its definition declares,
    each with what the node of the property requires. -/
theorem members_of_bodyOf (made : bodyOf c definition s = .ok body) (isObject : body.isObject) :
    List.Forall₂ (fun declared m => memberOf c declared.1.required declared.2 = .ok m)
      s.declaredProperties body.members := by
  cases bodyOf_cases made with
  | constants => cases isObject
  | aliasType => cases isObject
  | object noValues shaped extended declared =>
    rw [parts_of_shape shaped] at declared
    rw [members_objectBody, Schema.declaredProperties, List.flatMap_def]
    refine List.rel_flatten (List.forall₂_map_left_iff.mpr (declared.imp ?_))
    intro part ms made
    rw [membersOf_eq_mapM, List.mapM_eq_ok] at made
    exact List.forall₂_map_left_iff.mpr made

theorem types_of_isObject (isObject : body.isObject) : body.types = body.members.map (·.type) := by
  cases body with
  | interfaceType | classType => exact List.append_nil _
  | aliasType | constants => cases isObject

/-- The types of all nodes that are converted stand in what the definition is declared as. -/
theorem places_of_bodyOf {node : Schema} (made : bodyOf c definition s = .ok body)
    (converts : body.Converts s node) : ∃ t ∈ body.types, c.Places t node := by
  obtain ⟨root, isRoot, inside⟩ := converts
  by_cases isObject : body.isObject
  · rw [Body.roots_of_isObject isObject] at isRoot
    obtain ⟨declared, among, rfl⟩ := List.mem_map.mp isRoot
    obtain ⟨m, member, made⟩ := (members_of_bodyOf made isObject).exists_right among
    obtain ⟨type, typed, result⟩ := Except.bind_eq_ok.mp made
    cases result
    rw [types_of_isObject isObject]
    exact ⟨type, List.mem_map_of_mem member, Context.places_of_typeWithin inside typed⟩
  · cases bodyOf_cases made with
    | constants => cases isRoot
    | aliasType _ _ typed =>
      rw [Body.roots, List.mem_singleton] at isRoot
      exact ⟨_, List.mem_singleton_self _, Context.places_of_typeWithin (isRoot ▸ inside) typed⟩
    | object => exact absurd (isObject_objectBody _ _ _) isObject

end Bodies
end TypeScript
end SchemaSplit
