import SchemaSplit.Proofs.TypeScript.Properties

namespace SchemaSplit

structure Schema.IsOneOf (s : Schema) : Prop where
  inline : s.ref = none
  noMembers : s.allOf = []
  noBranches : s.anyOf = []
  filled : s.oneOf ≠ []

namespace TypeScript

inductive IsBranch (c : Context) (d : Option Discriminator) (member : Schema) : TypeExpr → Prop
  | alone {type : TypeExpr} (made : typeOf c member = .ok type)
      (noValue : ∀ d', d = some d' → member.ref.bind (discriminatorValue? c.scope.root d') = none) :
      IsBranch c d member type
  | tagged {type : TypeExpr} {d' : Discriminator} {value : String}
      (made : typeOf c member = .ok type) (discriminated : d = some d')
      (known : member.ref.bind (discriminatorValue? c.scope.root d') = some value) :
      IsBranch c d member (tagged d' value type)

/-- Among the branches of some members, one for a reference lets a value of the discriminator through:
    it is tagged with this value or not tagged at all. -/
def LetsThrough (c : Context) (d : Discriminator) (members : List Schema) (branches : List TypeExpr)
    (value reference : String) : Prop :=
  ∃ pair ∈ members.zip branches, pair.1.ref = some reference ∧ ∃ type,
    typeOf c pair.1 = .ok type ∧ (pair.2 = type ∨ pair.2 = tagged d value type)

theorem tagged_ne (d : Discriminator) (value : String) (t : TypeExpr) : tagged d value t ≠ t := by
  intro same
  have sizes := congrArg sizeOf same
  simp [tagged] at sizes
  omega

theorem tagged_inj {d : Discriminator} {a b : String} {t : TypeExpr} :
    tagged d a t = tagged d b t ↔ a = b := by
  constructor
  · intro same
    simp [tagged] at same
    exact same
  · rintro rfl
    rfl

section Branches

variable {c : Context} {s : Schema} {t : TypeExpr}

theorem isBranch_of_branchOf {d : Option Discriminator} {member : Schema} {branch : TypeExpr}
    (made : branchOf c d member = .ok branch) : IsBranch c d member branch := by
  obtain ⟨type, typed, result⟩ := Except.bind_eq_ok.mp made
  cases d with
  | none =>
    cases result
    exact .alone typed nofun
  | some d =>
    rw [Option.bind_some] at result
    cases known : member.ref.bind (discriminatorValue? c.scope.root d) with
    | none =>
      rw [known] at result
      cases result
      refine .alone typed ?_
      rintro _ ⟨⟩
      exact known
    | some value =>
      rw [known] at result
      cases result
      exact .tagged typed rfl known

theorem branches_of_isOneOf (isOneOf : s.IsOneOf) (made : typeOf c s = .ok t) :
    ∃ branches, t = c.admitNull s.isNullable (.union branches) ∧
      List.Forall₂ (IsBranch c s.keywords.discriminator) s.oneOf branches := by
  rw [typeOf_eq, Except.map_eq_ok] at made
  obtain ⟨bare, made, rfl⟩ := made
  have filled : (!s.oneOf.isEmpty) = true := by simpa using isOneOf.filled
  rw [bareTypeOf, isOneOf.inline, isOneOf.noMembers, isOneOf.noBranches] at made
  dsimp only at made
  rw [if_neg (by decide), if_neg (by decide), if_pos filled] at made
  obtain ⟨branches, each, rfl⟩ := Except.map_eq_ok.mp made
  rw [branchesOf_eq_mapM, List.mapM_eq_ok] at each
  exact ⟨branches, rfl, each.imp fun _ _ => isBranch_of_branchOf⟩

theorem bodyOf_of_isOneOf {definition : String} (noValues : s.enumValues = [])
    (isOneOf : s.IsOneOf) : bodyOf c definition s = .aliasType <$> typeOf c s :=
  bodyOf_of_shapeless noValues
    (Context.shapeless_of_isUnion ⟨isOneOf.noMembers, .inr isOneOf.filled⟩ ..)

/-- Behind a reference, members of `allOf` or branches of `anyOf` a node has no branch for those of
    `oneOf`, whatever they are. -/
theorem typeOf_of_not_isOneOf (filled : s.oneOf ≠ []) (other : ¬ s.IsOneOf) (oneOf : List Schema) :
    typeOf c { s with oneOf } = typeOf c s := by
  rw [typeOf_eq, typeOf_eq, bareTypeOf, bareTypeOf]
  dsimp only [Schema.ref, Schema.isNullable]
  cases inline : s.keywords.ref with
  | some reference => rfl
  | none =>
    by_cases noMembers : s.allOf = []
    · have branches : s.anyOf ≠ [] := fun none => other ⟨inline, noMembers, none, filled⟩
      simp [noMembers, branches]
    · have object : objectTypeOf c { s with oneOf } = objectTypeOf c s := rfl
      simp [noMembers, object]

end Branches

theorem find?_of_mem {mapping : List (String × String)} {entry : String × String}
    (mapped : entry ∈ mapping) :
    ∃ e ∈ mapping, mapping.find? (·.2 == entry.2) = some e ∧ e.2 = entry.2 := by
  have listed : (mapping.find? (·.2 == entry.2)).isSome :=
    List.find?_isSome.mpr ⟨entry, mapped, beq_self_eq_true entry.2⟩
  obtain ⟨e, first⟩ := Option.isSome_iff_exists.mp listed
  exact ⟨e, List.mem_of_find?_eq_some first, first, by simpa using List.find?_some first⟩

section Mapping

variable {c : Context} {property : String} {mapping : List (String × String)} {members : List Schema}
  {branches : List TypeExpr}
  (each : List.Forall₂ (IsBranch c (some (.object property (some mapping)))) members branches)
include each

/-- The branches of members with a reference are tagged with its first value. -/
theorem tagged_of_find? {e : String × String} {reference : String}
    (first : mapping.find? (·.2 == reference) = some e) {pair : Schema × TypeExpr}
    (inside : pair ∈ members.zip branches) (refers : pair.1.ref = some reference) :
    ∃ type, typeOf c pair.1 = .ok type ∧
      pair.2 = tagged (.object property (some mapping)) e.1 type := by
  have value : pair.1.ref.bind (discriminatorValue? c.scope.root (.object property (some mapping))) =
      some e.1 := by
    rw [refers, Option.bind_some, discriminatorValue?, first, Option.map_some]
  have isBranch := (List.forall₂_iff_zip.mp each).2 inside
  rcases pair with ⟨member, branch⟩
  cases isBranch with
  | alone made noValue =>
    rw [noValue _ rfl] at value
    cases value
  | tagged made discriminated known =>
    cases discriminated
    cases known.symm.trans value
    exact ⟨_, made, rfl⟩

/-- Of the values for one reference, exactly the first is let through. -/
theorem letsThrough_iff {entry : String × String} (mapped : entry ∈ mapping)
    (refers : some entry.2 ∈ members.map (·.ref)) :
    LetsThrough c (.object property (some mapping)) members branches entry.1 entry.2 ↔
      mapping.find? (·.2 == entry.2) = some entry := by
  constructor
  · rintro ⟨pair, inside, refers, type, typed, taken⟩
    obtain ⟨e, -, first, reference⟩ := find?_of_mem mapped
    obtain ⟨_, typed', tag⟩ := tagged_of_find? each first inside refers
    cases typed.symm.trans typed'
    rw [tag] at taken
    have value := tagged_inj.mp (taken.resolve_left (tagged_ne _ _ _))
    rw [first, Prod.ext value reference]
  · intro first
    obtain ⟨member, inside, refers⟩ := List.mem_map.mp refers
    rw [← List.map_fst_zip (Nat.le_of_eq each.length_eq)] at inside
    obtain ⟨pair, among, rfl⟩ := List.mem_map.mp inside
    obtain ⟨type, typed, tag⟩ := tagged_of_find? each first among refers
    exact ⟨pair, among, refers, type, typed, .inr tag⟩

/-- All values for members are let through exactly if no two of them are for the same member. -/
theorem forall_letsThrough_iff :
    (∀ entry ∈ mapping, some entry.2 ∈ members.map (·.ref) →
        LetsThrough c (.object property (some mapping)) members branches entry.1 entry.2) ↔
      ∀ e ∈ mapping, ∀ e' ∈ mapping, e.2 = e'.2 → some e.2 ∈ members.map (·.ref) → e.1 = e'.1 := by
  constructor
  · intro all e mapped e' mapped' same refers
    have first := (letsThrough_iff each mapped refers).mp (all e mapped refers)
    have first' := (letsThrough_iff each mapped' (same ▸ refers)).mp (all e' mapped' (same ▸ refers))
    rw [← same, first] at first'
    rw [Option.some.inj first']
  · intro unambiguous entry mapped refers
    obtain ⟨e, among, first, reference⟩ := find?_of_mem mapped
    have value := unambiguous entry mapped e among reference.symm refers
    rw [letsThrough_iff each mapped refers, first, Prod.ext value.symm reference]

end Mapping
end TypeScript

namespace Generator

open TypeScript

/-- Wherever a union of `oneOf` members stands in a module, it has one branch for each member, in their
    order. With a mapping, the branches let the first value for each of their references through and no
    other value for it. So all mapped values of the members are let through exactly if no member has
    two. Where something else goes before `oneOf`, its members count for nothing. -/
theorem typeScript_branches_iff {settings : Settings} {d : IsolatedDocument}
    {fileName text : String} (made : (typeScript settings).generate d fileName = .ok text) :
    let c := Context.ofDocument settings d
    ∃ m : Module, moduleOf settings d fileName = .ok m ∧ text = m.text ∧
      List.Forall₂ (fun definition declaration =>
          bodyOf c definition.1 definition.2 = .ok declaration.body ∧
          ∀ node, declaration.body.Converts definition.2 node → node.oneOf ≠ [] →
            (¬ node.IsOneOf → ∀ oneOf, typeOf c { node with oneOf } = typeOf c node) ∧
            (node.IsOneOf → ∃ branches,
              typeOf c node = .ok (c.admitNull node.isNullable (.union branches)) ∧
              (∃ u ∈ declaration.body.types, c.Places u node) ∧
              List.Forall₂ (IsBranch c node.keywords.discriminator) node.oneOf branches ∧
              ∀ property mapping,
                let discriminator := Discriminator.object property (some mapping)
                let letsThrough := LetsThrough c discriminator node.oneOf branches
                node.keywords.discriminator = some discriminator →
                  (∀ entry ∈ mapping, some entry.2 ∈ node.oneOf.map (·.ref) →
                    (letsThrough entry.1 entry.2 ↔
                      mapping.find? (·.2 == entry.2) = some entry)) ∧
                  ((∀ entry ∈ mapping, some entry.2 ∈ node.oneOf.map (·.ref) →
                      letsThrough entry.1 entry.2) ↔
                    ∀ e ∈ mapping, ∀ e' ∈ mapping, e.2 = e'.2 →
                      some e.2 ∈ node.oneOf.map (·.ref) → e.1 = e'.1)))
        d.definitions m.declarations := by
  intro c
  obtain ⟨m, converted, rfl⟩ := Except.map_eq_ok.mp made
  refine ⟨m, converted, rfl, (declarations_of_moduleOf converted).2.imp ?_⟩
  rintro definition declaration ⟨madeBody, -⟩
  refine ⟨madeBody, fun node converts filled => ⟨typeOf_of_not_isOneOf filled, fun isOneOf => ?_⟩⟩
  obtain ⟨u, inside, placed⟩ := places_of_bodyOf madeBody converts
  have ⟨t, typed, _⟩ := placed
  obtain ⟨branches, rfl, each⟩ := branches_of_isOneOf isOneOf typed
  refine ⟨branches, typed, ⟨u, inside, placed⟩, each, ?_⟩
  intro property mapping discriminator letsThrough discriminated
  rw [discriminated] at each
  exact ⟨fun entry => letsThrough_iff each, forall_letsThrough_iff each⟩

/-- A member that is listed twice, one without a value, and a value for no member. -/
theorem typeScript_branches_iff_pets :
    let mapping := [("dog", "#/components/schemas/A.Dog"), ("bird", "#/components/schemas/A.Bird")]
    let dog := Schema.reference "#/components/schemas/A.Dog"
    let cat := Schema.reference "#/components/schemas/A.Cat"
    let pet : Schema := {
      keywords := { discriminator := some (.object "kind" (some mapping)) }, oneOf := [dog, cat, dog] }
    let d : IsolatedDocument := ⟨"A", {}, .openapi3, "3.0.1",
      [("A.Pet", pet), ("A.Dog", .ofType "object"), ("A.Cat", .ofType "object")]⟩
    let c := Context.ofDocument {} d
    ∃ m, moduleOf {} d "A" = .ok m ∧ ∃ declaration ∈ m.declarations, ∃ branches,
      declaration.body = .aliasType (.union branches) ∧
        List.Forall₂ (IsBranch c (some (.object "kind" (some mapping)))) [dog, cat, dog] branches ∧
        LetsThrough c (.object "kind" (some mapping)) [dog, cat, dog] branches "dog"
          "#/components/schemas/A.Dog" := by
  intro mapping dog cat pet d c
  obtain ⟨written, made⟩ := Except.isOk_iff.mp
    (by decide +kernel : ((typeScript {}).generate d "A").isOk)
  obtain ⟨m, converted, -, each⟩ := typeScript_branches_iff made
  obtain ⟨declaration, inside, madeBody, nodes⟩ := each.exists_right List.mem_cons_self
  have isOneOf : pet.IsOneOf := ⟨rfl, rfl, rfl, List.cons_ne_nil _ _⟩
  rw [bodyOf_of_isOneOf rfl isOneOf, Except.map_eq_ok] at madeBody
  obtain ⟨t, typed, isAlias⟩ := madeBody
  have converts : declaration.body.Converts pet pet :=
    ⟨pet, isAlias ▸ List.mem_singleton_self pet, .refl pet⟩
  obtain ⟨branches, typed', -, each, values⟩ :=
    (nodes pet converts isOneOf.filled).2 isOneOf
  cases typed.symm.trans typed'
  refine ⟨m, converted, declaration, inside, branches, isAlias.symm, each, ?_⟩
  exact ((values "kind" mapping rfl).1 _ List.mem_cons_self List.mem_cons_self).mpr rfl

/-- Two values for one member: the union has no branch for the second. -/
theorem typeScript_mapped_value_lost :
    let mapping := [("cat", "#/components/schemas/A.Cat"), ("kitten", "#/components/schemas/A.Cat")]
    let cat := Schema.reference "#/components/schemas/A.Cat"
    let pet : Schema := {
      keywords := { discriminator := some (.object "kind" (some mapping)) }, oneOf := [cat] }
    let d : IsolatedDocument := ⟨"A", {}, .openapi3, "3.0.1",
      [("A.Pet", pet), ("A.Cat", .ofType "object")]⟩
    let c := Context.ofDocument {} d
    ("kitten", "#/components/schemas/A.Cat") ∈ mapping ∧
      cat.ref = some "#/components/schemas/A.Cat" ∧
      ∃ m, moduleOf {} d "A" = .ok m ∧ ∃ declaration ∈ m.declarations, ∃ branches,
        declaration.body = .aliasType (.union branches) ∧
          ¬ LetsThrough c (.object "kind" (some mapping)) [cat] branches "kitten"
            "#/components/schemas/A.Cat" := by
  intro mapping cat pet d c
  refine ⟨List.mem_cons_of_mem _ List.mem_cons_self, rfl, ?_⟩
  obtain ⟨m, made⟩ := Except.isOk_iff.mp (by decide +kernel : (moduleOf {} d "A").isOk)
  obtain ⟨declaration, inside, madeBody, -⟩ :=
    (declarations_of_moduleOf made).2.exists_right List.mem_cons_self
  have isOneOf : pet.IsOneOf := ⟨rfl, rfl, rfl, List.cons_ne_nil _ _⟩
  rw [bodyOf_of_isOneOf rfl isOneOf, Except.map_eq_ok] at madeBody
  obtain ⟨t, typed, isAlias⟩ := madeBody
  obtain ⟨branches, rfl, each⟩ := branches_of_isOneOf isOneOf typed
  refine ⟨m, made, declaration, inside, branches, isAlias.symm, fun passes => ?_⟩
  have first := (letsThrough_iff each (List.mem_cons_of_mem _ List.mem_cons_self)
    List.mem_cons_self).mp passes
  exact absurd first (by decide)

end Generator
end SchemaSplit
