import SchemaSplit.Proofs.TypeScript.Placement

namespace SchemaSplit

namespace Schema

structure DeclaresProperties (s : Schema) : Prop where
  inline : s.ref = none
  unlisted : s.enumValues = []
  type : s.type = none ∨ s.type = some (.single "object")
  properties : s.properties ≠ []

def IsUnion (s : Schema) : Prop := s.allOf = [] ∧ (s.anyOf ≠ [] ∨ s.oneOf ≠ [])

end Schema

namespace TypeScript

namespace TypeExpr

/-- The objects of a type have a member: an object type has it, or one of the types that all objects of
    an intersection are of, or the type that a null value was added to. -/
inductive HasMember (m : Member TypeExpr) : TypeExpr → Prop
  | object {members : List (Member TypeExpr)} (inside : m ∈ members) : HasMember m (.object members)
  | intersection {ts : List TypeExpr} {t : TypeExpr} (inside : t ∈ ts) (has : HasMember m t) :
      HasMember m (.intersection ts)
  | orNull {t : TypeExpr} {p : Primitive} (has : HasMember m t) (isNull : p = .null ∨ p = .undefined) :
      HasMember m (.union [t, .primitive p])

def IsObjectType : TypeExpr → Prop
  | object _ | intersection _ => True
  | _ => False

theorem orPrimitive_of_isObjectType {t : TypeExpr} (isObject : t.IsObjectType) (p : Primitive) :
    t.orPrimitive p = union [t, primitive p] := by
  cases t with
  | object | intersection => rfl
  | primitive | array | union | record | literal | named => cases isObject

end TypeExpr

def Body.HasMember (m : Member TypeExpr) : Body → Prop
  | interfaceType _ members | classType _ members _ _ => m ∈ members
  | aliasType t => t.HasMember m
  | constants _ => False

namespace Context

variable {c : Context} {definition : String} {s : Schema} {t u : TypeExpr}

theorem isNull_nullPrimitive (c : Context) :
    c.nullPrimitive = .null ∨ c.nullPrimitive = .undefined := by
  unfold nullPrimitive
  split
  · exact .inl rfl
  · exact .inr rfl

def Shows (c : Context) (s : Schema) (has : Member TypeExpr → Prop) : Prop :=
  ∀ p ∈ s.properties, ∃ m, memberOf c s.required p = .ok m ∧ has m

theorem shows_membersOf {members : List (Member TypeExpr)}
    (made : membersOf c s.required s.properties = .ok members) : c.Shows s (· ∈ members) := by
  rw [membersOf_eq_mapM, List.mapM_eq_ok] at made
  intro p declared
  obtain ⟨m, inside, made⟩ := made.exists_right declared
  exact ⟨m, made, inside⟩

theorem Shows.mono {has other : Member TypeExpr → Prop} (shows : c.Shows s has)
    (weaker : ∀ m, has m → other m) : c.Shows s other := by
  intro p declared
  obtain ⟨m, made, here⟩ := shows p declared
  exact ⟨m, made, weaker m here⟩

theorem objectTypeOf_cases (properties : s.properties ≠ []) (made : objectTypeOf c s = .ok t) :
    ∃ members record, membersOf c s.required s.properties = .ok members ∧
      recordTypeOf c s.additional = .ok record ∧
      t = match record with
        | some record => .intersection [.object members, record]
        | none => .object members := by
  obtain ⟨record, further, made⟩ := Except.bind_eq_ok.mp made
  split at made
  · rename_i none
    exact absurd none properties
  · obtain ⟨members, declared, result⟩ := Except.bind_eq_ok.mp made
    cases result
    exact ⟨members, record, declared, further, rfl⟩

theorem shows_objectTypeOf (properties : s.properties ≠ []) (made : objectTypeOf c s = .ok t) :
    t.IsObjectType ∧ c.Shows s t.HasMember := by
  obtain ⟨members, record, declared, -, rfl⟩ := objectTypeOf_cases properties made
  have shows := (shows_membersOf declared).mono fun m => TypeExpr.HasMember.object
  cases record with
  | none => exact ⟨trivial, shows⟩
  | some record =>
    exact ⟨trivial, shows.mono fun m => .intersection List.mem_cons_self⟩

theorem bareTypeOf_of_declaresProperties (declares : s.DeclaresProperties) (alone : s.allOf = [])
    (notUnion : ¬ s.IsUnion) : bareTypeOf c s = objectTypeOf c s := by
  obtain ⟨noBranches, noOthers⟩ : s.anyOf = [] ∧ s.oneOf = [] := by
    rw [Schema.IsUnion, not_and, not_or, not_not, not_not] at notUnion
    exact notUnion alone
  have plain : plainTypeOf c s = objectTypeOf c s := by
    rw [plainTypeOf]
    rcases declares.type with untyped | typed
    · rw [untyped]
      exact if_pos (by simp [declares.properties])
    · rw [typed]
      rfl
  have unlisted := declares.unlisted
  rw [Schema.enumValues] at unlisted
  rw [bareTypeOf, declares.inline, alone, noBranches, noOthers]
  rcases listing : s.keywords.enum with _ | (_ | ⟨value, values⟩)
  · exact plain
  · exact plain
  · rw [listing] at unlisted
    cases unlisted

theorem typeOf_of_declaresProperties (declares : s.DeclaresProperties) (alone : s.allOf = [])
    (notUnion : ¬ s.IsUnion) : typeOf c s = c.admitNull s.isNullable <$> objectTypeOf c s := by
  rw [typeOf_eq, bareTypeOf_of_declaresProperties declares alone notUnion]

/-- The properties of a node are members of its type, unless it is a union of branches. -/
theorem shows_bareTypeOf (declares : s.DeclaresProperties) (notUnion : ¬ s.IsUnion)
    (made : bareTypeOf c s = .ok t) : t.IsObjectType ∧ c.Shows s t.HasMember := by
  by_cases alone : s.allOf = []
  · rw [bareTypeOf_of_declaresProperties declares alone notUnion] at made
    exact shows_objectTypeOf declares.properties made
  · have members : !s.allOf.isEmpty := by simpa using alone
    have properties : ¬ s.properties.isEmpty := by simpa using declares.properties
    rw [bareTypeOf, declares.inline] at made
    dsimp only at made
    rw [if_pos members, Except.bind_eq_ok] at made
    obtain ⟨types, typed, result⟩ := made
    rw [if_neg properties, Except.bind_eq_ok] at result
    obtain ⟨object, made, result⟩ := result
    cases result
    -- There is at least one member, so that the type is an intersection.
    have several : intersectionOf (types ++ [object]) = .intersection (types ++ [object]) := by
      rw [typesOf_eq_mapM, List.mapM_eq_ok] at typed
      obtain ⟨first, rest, split⟩ := List.exists_cons_of_ne_nil (ne_nil_of_forall₂ typed alone)
      rw [split]
      cases rest <;> rfl
    rw [several]
    refine ⟨trivial, (shows_objectTypeOf declares.properties made).2.mono fun m => ?_⟩
    exact .intersection (List.mem_append_right _ (List.mem_singleton_self object))

theorem shows_typeOf (declares : s.DeclaresProperties) (notUnion : ¬ s.IsUnion)
    (made : typeOf c s = .ok t) : c.Shows s t.HasMember := by
  rw [typeOf_eq, Except.map_eq_ok] at made
  obtain ⟨bare, made, rfl⟩ := made
  obtain ⟨isObject, shows⟩ := shows_bareTypeOf declares notUnion made
  rw [admitNull]
  split
  · rw [TypeExpr.orPrimitive_of_isObjectType isObject]
    exact shows.mono fun m has => .orNull has c.isNull_nullPrimitive
  · exact shows

theorem Places.within_of_declaresProperties (placed : c.Places u s)
    (declares : s.DeclaresProperties) (notUnion : ¬ s.IsUnion) (made : typeOf c s = .ok t) :
    t.Within u := by
  by_cases nullable : s.isNullable
  · obtain ⟨same, typed, here⟩ := placed.within_of_nullable nullable
    cases made.symm.trans typed
    exact here
  · obtain ⟨same, typed, added, here⟩ := placed
    cases made.symm.trans typed
    rw [typeOf_eq, Except.map_eq_ok] at made
    obtain ⟨bare, made, rfl⟩ := made
    have unchanged : c.admitNull s.isNullable bare = bare := if_neg nullable
    rw [unchanged] at here ⊢
    cases added with
    | false => exact here
    | true =>
      rw [Context.admitNull, if_pos rfl, TypeExpr.orPrimitive_of_isObjectType
        (shows_bareTypeOf declares notUnion made).1] at here
      exact (TypeExpr.within_of_child List.mem_cons_self).trans here

section Union

variable (inline : s.ref = none) (isUnion : s.IsUnion) (properties : List (String × Schema))
include isUnion

theorem shapeless_of_isUnion (scope : Scope) (style : TypeStyle) (onTheWay : List String) :
    shape? scope style onTheWay s = none := by
  rw [Option.eq_none_iff_forall_ne_some]
  intro shape shaped
  have plain := (plain_of_shape shaped).1
  rcases isUnion.2 with branches | branches
  · exact branches plain.anyOf
  · exact branches plain.oneOf

include inline

theorem typeOf_of_isUnion : typeOf c { s with properties } = typeOf c s := by
  obtain ⟨alone, branches⟩ := isUnion
  rw [typeOf_eq, typeOf_eq, bareTypeOf, bareTypeOf]
  dsimp only [Schema.ref, Schema.isNullable] at inline ⊢
  rw [inline, alone]
  by_cases anyOf : s.anyOf = []
  · have oneOf := branches.resolve_left (absurd anyOf)
    simp [anyOf, oneOf]
  · simp [anyOf]

theorem bodyOf_of_isUnion (unlisted : s.enumValues = []) :
    bodyOf c definition { s with properties } = bodyOf c definition s := by
  have other : Schema.IsUnion { s with properties } := isUnion
  calc bodyOf c definition { s with properties }
    _ = .aliasType <$> typeOf c { s with properties } :=
      bodyOf_of_shapeless unlisted (shapeless_of_isUnion other ..)
    _ = .aliasType <$> typeOf c s := by rw [typeOf_of_isUnion inline isUnion]
    _ = bodyOf c definition s :=
      (bodyOf_of_shapeless unlisted (shapeless_of_isUnion isUnion ..)).symm

end Union
end Context

section Bodies

variable {c : Context} {definition : String} {s : Schema} {body : Body}

theorem Body.hasMember_of_isObject (isObject : body.isObject) {m : Member TypeExpr}
    (inside : m ∈ body.members) : body.HasMember m := by
  cases body with
  | interfaceType | classType => exact inside
  | aliasType | constants => cases isObject

/-- An interface or a class has the properties of all nodes that it is made of. -/
theorem shows_parts_of_bodyOf (made : bodyOf c definition s = .ok body) (isObject : body.isObject)
    {part : Schema} (isPart : part ∈ s.parts) : c.Shows part (· ∈ body.members) := by
  intro p declared
  have among : (part, p) ∈ s.declaredProperties :=
    List.mem_flatMap.mpr ⟨part, isPart, List.mem_map_of_mem declared⟩
  obtain ⟨m, inside, made⟩ := (members_of_bodyOf made isObject).exists_right among
  exact ⟨m, made, inside⟩

/-- The properties of a definition are members of what it is declared as, unless it is a union of
    branches. -/
theorem shows_bodyOf (made : bodyOf c definition s = .ok body) (declares : s.DeclaresProperties)
    (notUnion : ¬ s.IsUnion) : c.Shows s body.HasMember := by
  by_cases isObject : body.isObject
  · have shows := shows_parts_of_bodyOf made isObject (List.mem_cons_self : s ∈ s.parts)
    exact shows.mono fun m => body.hasMember_of_isObject isObject
  · cases bodyOf_cases made with
    | constants values => exact absurd declares.unlisted values
    | aliasType _ _ typed => exact Context.shows_typeOf declares notUnion typed
    | object => exact absurd (isObject_objectBody _ _ _) isObject

end Bodies
end TypeScript

namespace Generator

open TypeScript

/-- The properties of a node are members of its type, which stands in what the definition is declared
    as. Only where a node is a union of branches, the type is the same for all properties. -/
theorem typeScript_properties_shown {settings : Settings} {d : IsolatedDocument}
    {fileName text : String} (made : (typeScript settings).generate d fileName = .ok text) :
    let c := Context.ofDocument settings d
    ∃ m : Module, moduleOf settings d fileName = .ok m ∧ text = m.text ∧
      List.Forall₂ (fun definition declaration =>
          bodyOf c definition.1 definition.2 = .ok declaration.body ∧
          (definition.2.DeclaresProperties →
            (¬ definition.2.IsUnion → c.Shows definition.2 declaration.body.HasMember) ∧
            (definition.2.IsUnion → ∀ properties,
              bodyOf c definition.1 { definition.2 with properties } = .ok declaration.body)) ∧
          (declaration.body.isObject → ∀ part ∈ definition.2.parts,
            c.Shows part (· ∈ declaration.body.members)) ∧
          ∀ node, declaration.body.Converts definition.2 node → node.DeclaresProperties →
            ∃ t, typeOf c node = .ok t ∧
              (¬ node.IsUnion → c.Shows node t.HasMember ∧
                ∃ u ∈ declaration.body.types, t.Within u) ∧
              (node.IsUnion → ∀ properties, typeOf c { node with properties } = .ok t))
        d.definitions m.declarations := by
  intro c
  obtain ⟨m, converted, rfl⟩ := Except.map_eq_ok.mp made
  refine ⟨m, converted, rfl, (declarations_of_moduleOf converted).2.imp ?_⟩
  rintro definition declaration ⟨madeBody, -⟩
  refine ⟨madeBody,
    fun declares => ⟨shows_bodyOf madeBody declares, fun isUnion properties => ?_⟩,
    fun isObject part => shows_parts_of_bodyOf madeBody isObject, ?_⟩
  · rw [Context.bodyOf_of_isUnion declares.inline isUnion _ declares.unlisted, madeBody]
  · intro node converts declares
    obtain ⟨u, inside, placed⟩ := places_of_bodyOf madeBody converts
    have ⟨t, typed, _⟩ := placed
    refine ⟨t, typed, fun notUnion => ?_, fun isUnion properties => ?_⟩
    · refine ⟨Context.shows_typeOf declares notUnion typed, u, inside, ?_⟩
      exact placed.within_of_declaresProperties declares notUnion typed
    · rw [Context.typeOf_of_isUnion declares.inline isUnion, typed]

/-- A definition with properties beside a member, further entries and null, and an interface whose
    property has properties. -/
theorem typeScript_properties_shown_pets :
    let text := Schema.ofType "string"
    let base := Schema.ofType "object"
    let pet : Schema := {
      keywords := { nullable := some true }
      properties := [("name", text)]
      allOf := [.reference "#/definitions/A.Base"]
      additional := some (.schema (.ofType "integer")) }
    let inner : Schema := { Schema.ofType "object" with properties := [("size", text)] }
    let box : Schema := { properties := [("inner", inner)] }
    let d : IsolatedDocument := ⟨"A", {}, .swagger2, "2.0",
      [("A.Base", base), ("A.Pet", pet), ("A.Box", box)]⟩
    let c := Context.ofDocument {} d
    ∃ m, moduleOf {} d "A" = .ok m ∧
      (∃ declaration ∈ m.declarations, bodyOf c "A.Pet" pet = .ok declaration.body ∧
        c.Shows pet declaration.body.HasMember) ∧
      ∃ declaration ∈ m.declarations, bodyOf c "A.Box" box = .ok declaration.body ∧
        ∃ t, typeOf c inner = .ok t ∧ c.Shows inner t.HasMember ∧
          ∃ u ∈ declaration.body.types, t.Within u := by
  intro text base pet inner box d c
  obtain ⟨written, made⟩ := Except.isOk_iff.mp
    (by decide +kernel : ((typeScript {}).generate d "A").isOk)
  obtain ⟨m, converted, -, each⟩ := typeScript_properties_shown made
  refine ⟨m, converted, ?_, ?_⟩
  · obtain ⟨declaration, inside, madeBody, own, -⟩ :=
      each.exists_right (List.mem_cons_of_mem _ List.mem_cons_self)
    have declares : pet.DeclaresProperties := ⟨rfl, rfl, .inl rfl, List.cons_ne_nil _ _⟩
    have notUnion : ¬ pet.IsUnion := by simp [Schema.IsUnion, pet]
    exact ⟨declaration, inside, madeBody, (own declares).1 notUnion⟩
  · obtain ⟨declaration, inside, madeBody, -, -, below⟩ :=
      each.exists_right (List.mem_cons_of_mem _ (List.mem_cons_of_mem _ List.mem_cons_self))
    have isObject := (isObject_iff_shape madeBody).mpr ⟨rfl, by decide +kernel⟩
    have converts : declaration.body.Converts box inner := by
      refine ⟨inner, ?_, .refl inner⟩
      rw [Body.roots_of_isObject isObject]
      exact List.mem_singleton_self inner
    have declares : inner.DeclaresProperties := ⟨rfl, rfl, .inr rfl, List.cons_ne_nil _ _⟩
    have notUnion : ¬ inner.IsUnion := by simp [Schema.IsUnion, inner, Schema.ofType]
    obtain ⟨t, typed, shows, -⟩ := below inner converts declares
    exact ⟨declaration, inside, madeBody, t, typed, shows notUnion⟩

/-- A node with a property and a branch is declared as the branch alone. -/
theorem typeScript_properties_lost :
    let branch : Schema := {
      Schema.ofType "object" with properties := [("a", .ofType "string")] }
    let s : Schema := { properties := [("b", .ofType "string")], oneOf := [branch] }
    let d : IsolatedDocument := ⟨"A", {}, .openapi3, "3.0.1", [("A.X", s)]⟩
    s.DeclaresProperties ∧ ∃ m, moduleOf {} d "A" = .ok m ∧
      ∃ declaration ∈ m.declarations,
        bodyOf (.ofDocument {} d) "A.X" s = .ok declaration.body ∧
          ∀ member, ¬ declaration.body.HasMember member := by
  intro branch s d
  refine ⟨⟨rfl, rfl, .inl rfl, List.cons_ne_nil _ _⟩, ?_⟩
  obtain ⟨m, made⟩ := Except.isOk_iff.mp (by decide +kernel : (moduleOf {} d "A").isOk)
  obtain ⟨declaration, inside, madeBody, -⟩ :=
    (declarations_of_moduleOf made).2.exists_right (List.mem_singleton_self ("A.X", s))
  refine ⟨m, made, declaration, inside, madeBody, ?_⟩
  have same : bodyOf (.ofDocument {} d) "A.X" s =
      .ok (.aliasType (.union [.object [⟨"a", .primitive .string, true, none⟩]])) := by
    have isUnion : s.IsUnion := ⟨rfl, .inr (List.cons_ne_nil _ _)⟩
    rw [bodyOf_of_shapeless rfl (Context.shapeless_of_isUnion isUnion ..)]
    rfl
  rw [Except.ok.inj (madeBody.symm.trans same)]
  intro member has
  cases has

end Generator
end SchemaSplit
