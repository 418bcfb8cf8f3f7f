import SchemaSplit.Proofs.Schema.Restating

namespace SchemaSplit.Schema

open Json (Same)
open Restatement (faithful modelled discriminatorNames)

inductive SchemaIn (node : Json) : Json → Prop
  | here : SchemaIn node node
  | property {fields ps : List (String × Json)} {e : String × Json}
      (keyword : ("properties", .object ps) ∈ fields) (inside : e ∈ ps)
      (below : SchemaIn node e.2) : SchemaIn node (.object fields)
  | single {fields : List (String × Json)} {name : String} {j : Json}
      (known : name = "items" ∨ name = "additionalProperties") (keyword : (name, j) ∈ fields)
      (below : SchemaIn node j) : SchemaIn node (.object fields)
  | member {fields : List (String × Json)} {name : String} {items : List Json} {j : Json}
      (known : name = "allOf" ∨ name = "anyOf" ∨ name = "oneOf")
      (keyword : (name, .array items) ∈ fields) (inside : j ∈ items)
      (below : SchemaIn node j) : SchemaIn node (.object fields)

structure Kept (fields : List (String × Json)) : Prop where
  listed : ∀ items, ("enum", .array items) ∈ fields → ∀ n, .scalar (.int n) ∈ items →
    fitsSigned 64 n
  told : ∀ entries, ("discriminator", .object entries) ∈ fields → ∀ e ∈ entries,
    e.1 ∈ discriminatorNames

def Lossless (j : Json) : Prop := ∀ fields, SchemaIn (.object fields) j → Kept fields

section Faithful

variable {fields : List (String × Json)} {j : Json}

theorem enum_of_listed {items : List Json}
    (listed : ∀ n, .scalar (.int n) ∈ items → fitsSigned 64 n) :
    faithful.enum (.array items) = modelled.enum (.array items) := by
  rw [Restatement.enum, Restatement.enum]
  congr 1
  apply List.map_congr_left
  intro item inside
  cases item with
  | scalar v =>
    cases v with
    | int n =>
      have fits := listed n inside
      show Json.scalar (.int n) = .scalar (Scalar.enumValue (.int n))
      rw [Scalar.enumValue, if_pos fits]
    | _ => rfl
  | _ => rfl

theorem discriminator_of_told {entries : List (String × Json)}
    (told : ∀ e ∈ entries, e.1 ∈ discriminatorNames) :
    faithful.discriminator (.object entries) = modelled.discriminator (.object entries) := by
  rw [Restatement.discriminator, Restatement.discriminator]
  congr 1
  apply List.filter_congr
  intro e inside
  have kept : modelled.keeps e.1 = true := List.contains_iff_mem.mpr (told e inside)
  rw [kept]
  rfl

theorem plain_of_kept {name : String} (kept : Kept fields) (inside : (name, j) ∈ fields) :
    faithful.plain name j = modelled.plain name j := by
  unfold Restatement.plain
  split
  · cases j with
    | array items => exact enum_of_listed (kept.listed items inside)
    | _ => rfl
  · cases j with
    | object entries => exact discriminator_of_told (kept.told entries inside)
    | _ => rfl
  · rfl

theorem properties_congr
    (each : ∀ ps, j = .object ps → ∀ e ∈ ps, faithful.schema e.2 = modelled.schema e.2) :
    faithful.properties j = modelled.properties j := by
  cases j with
  | object ps =>
    rw [Restatement.properties, Restatement.properties, Restatement.propertyFields_eq,
      Restatement.propertyFields_eq]
    congr 1
    apply List.map_congr_left
    intro e member
    rw [each ps rfl e member]
  | _ => rfl

theorem members_congr
    (each : ∀ items, j = .array items → ∀ item ∈ items,
      faithful.schema item = modelled.schema item) :
    faithful.members j = modelled.members j := by
  cases j with
  | array items =>
    rw [Restatement.members, Restatement.members, Restatement.memberItems_eq,
      Restatement.memberItems_eq]
    congr 1
    apply List.map_congr_left
    exact each items rfl
  | _ => rfl

theorem value_of_lossless {name : String} (lossless : Lossless (.object fields))
    (inside : (name, j) ∈ fields)
    (smaller : ∀ k, sizeOf k ≤ sizeOf j → Lossless k → faithful.schema k = modelled.schema k) :
    faithful.value name j = modelled.value name j := by
  have members (known : name = "allOf" ∨ name = "anyOf" ∨ name = "oneOf") :
      faithful.members j = modelled.members j := by
    apply members_congr
    rintro items rfl item member
    apply smaller item (Json.sizeOf_item_lt member).le
    exact fun gs below => lossless gs (.member known inside member below)
  unfold Restatement.value
  split
  · apply properties_congr
    rintro ps rfl e member
    apply smaller e.2 (Json.sizeOf_field_lt member).le
    exact fun gs below => lossless gs (.property inside member below)
  · apply smaller j le_rfl
    exact fun gs below => lossless gs (.single (.inl rfl) inside below)
  · apply smaller j le_rfl
    exact fun gs below => lossless gs (.single (.inr rfl) inside below)
  · exact members (.inl rfl)
  · exact members (.inr (.inl rfl))
  · exact members (.inr (.inr rfl))
  · exact plain_of_kept (lossless fields .here) inside

theorem schema_of_lossless (j : Json) (lossless : Lossless j) :
    faithful.schema j = modelled.schema j := by
  cases j with
  | scalar v => rfl
  | array items => rfl
  | object fields =>
    rw [Restatement.schema, Restatement.schema, Restatement.schemaFields_eq,
      Restatement.schemaFields_eq]
    congr 1
    apply List.filterMap_congr
    intro f inside
    have size := Json.sizeOf_field_lt inside
    have smaller (k : Json) (small : sizeOf k ≤ sizeOf f.2) (lossless : Lossless k) :
        faithful.schema k = modelled.schema k := schema_of_lossless k lossless
    rw [Restatement.field?, Restatement.field?, value_of_lossless lossless inside smaller]
termination_by sizeOf j

end Faithful

section Lost

variable {fields : List (String × Json)} {j : Json}

theorem lookup_stated (distinct : (fields.map (·.1)).Nodup) {name : String}
    (inside : (name, j) ∈ fields) (spoken : isSilent name j = false) (r : Restatement) :
    (fields.filterMap r.field?).lookup name = some (r.value name j) := by
  apply lookup_of_mem (distinct.sublist (names_stated r fields))
  apply List.mem_filterMap.mpr
  refine ⟨(name, j), inside, ?_⟩
  rw [Restatement.field?, spoken]
  rfl

theorem value_of_same (proper : (Json.object fields).settled = .object fields)
    (same : (faithful.schema (.object fields)).Same (modelled.schema (.object fields)))
    {name : String} (inside : (name, j) ∈ fields) (spoken : isSilent name j = false) :
    (faithful.value name j).Same (modelled.value name j) := by
  have distinct := (Json.settled_object.mp proper).1
  rw [Restatement.schema, Restatement.schema, Restatement.schemaFields_eq,
    Restatement.schemaFields_eq] at same
  exact same.field (lookup_stated distinct inside spoken faithful)
    (lookup_stated distinct inside spoken modelled)

theorem kept_of_same (proper : (Json.object fields).settled = .object fields)
    (same : (faithful.schema (.object fields)).Same (modelled.schema (.object fields))) :
    Kept fields := by
  constructor
  case listed =>
    intro items inside n member
    have values := value_of_same proper same inside (by cases items <;> rfl)
    have each := Json.same_array.mp values
    rw [List.forall₂_map_left_iff, List.forall₂_map_right_iff] at each
    have here := List.forall₂_same.mp each _ member []
    have listed : some (Json.Tip.scalar (.int n)) = some (.scalar (Scalar.int n).enumValue) := here
    rw [Scalar.enumValue] at listed
    split at listed
    · rename_i fits
      exact fits
    · cases listed
  case told =>
    intro entries inside e member
    have values := value_of_same proper same inside (by cases entries <;> rfl)
    have names := Same.names values
    by_contra unknown
    have kept : e.1 ∈ List.map (·.1) (entries.filter fun f =>
        faithful.keeps f.1 && !(f.2.isNull && f.1 == "mapping")) := by
      apply List.mem_map_of_mem
      apply List.mem_filter.mpr
      refine ⟨member, ?_⟩
      have other : e.1 ≠ "mapping" := by
        intro same
        rw [same] at unknown
        exact unknown (by decide)
      simp [faithful, other]
    obtain ⟨g, among, same⟩ := List.mem_map.mp (names.subset kept)
    have known := (List.mem_filter.mp among).2
    rw [Bool.and_eq_true] at known
    exact unknown (same ▸ List.contains_iff_mem.mp known.1)

theorem same_of_schemaIn {node : Json} (inside : SchemaIn node j) (proper : j.settled = j)
    (same : (faithful.schema j).Same (modelled.schema j)) :
    node.settled = node ∧ (faithful.schema node).Same (modelled.schema node) := by
  induction inside with
  | here => exact ⟨proper, same⟩
  | @property fields ps e keyword inside _ ih =>
    obtain ⟨distinct, settled⟩ := Json.settled_object.mp proper
    obtain ⟨apart, settledProperties⟩ := Json.settled_object.mp (settled _ keyword)
    apply ih (settledProperties e inside)
    have filled : isSilent "properties" (.object ps) = false := by
      cases ps with
      | nil => cases inside
      | cons => rfl
    have values : (Json.object (faithful.propertyFields ps)).Same
        (.object (modelled.propertyFields ps)) := value_of_same proper same keyword filled
    have stated (r : Restatement) :
        (r.propertyFields ps).lookup e.1 = some (r.schema e.2) := by
      rw [Restatement.propertyFields_eq]
      apply lookup_of_mem
      · rw [List.map_map]
        exact apart
      · exact List.mem_map_of_mem (f := fun f => (f.1, r.schema f.2)) inside
    exact values.field (stated faithful) (stated modelled)
  | @single fields name j known keyword _ ih =>
    obtain ⟨-, settled⟩ := Json.settled_object.mp proper
    apply ih (settled _ keyword)
    by_cases absent : j.isNull
    · cases j with
      | scalar v => exact Same.refl _
      | _ => cases absent
    · rcases known with rfl | rfl
      · have spoken : isSilent "items" j = false := by
          rw [isSilent_of_optional (by decide) (by decide)]
          simpa using absent
        exact value_of_same proper same keyword spoken
      · have spoken : isSilent "additionalProperties" j = false := by
          rw [isSilent_of_optional (by decide) (by decide)]
          simpa using absent
        exact value_of_same proper same keyword spoken
  | @member fields name items j known keyword inside _ ih =>
    obtain ⟨-, settled⟩ := Json.settled_object.mp proper
    apply ih (Json.settled_array.mp (settled _ keyword) j inside)
    have filled : isSilent name (.array items) = false := by
      cases items with
      | nil => cases inside
      | cons => rfl
    have values : (Json.array (faithful.memberItems items)).Same
        (.array (modelled.memberItems items)) := by
      have stated := value_of_same proper same keyword filled
      rcases known with rfl | rfl | rfl <;> exact stated
    rw [Restatement.memberItems_eq, Restatement.memberItems_eq] at values
    have each := Json.same_array.mp values
    rw [List.forall₂_map_left_iff, List.forall₂_map_right_iff] at each
    exact List.forall₂_same.mp each j inside

theorem same_iff_lossless (proper : j.settled = j) :
    (faithful.schema j).Same (modelled.schema j) ↔ Lossless j := by
  constructor
  · intro same fields inside
    obtain ⟨proper', same'⟩ := same_of_schemaIn inside proper same
    exact kept_of_same proper' same'
  · intro lossless
    rw [schema_of_lossless j lossless]
    exact Same.refl _

theorem faithful_iff (proper : j.settled = j) {settled : Bool} {s : Schema}
    (accepted : ofNode? settled (.ofJson j) = some s) :
    (faithful.schema j).Same s.toJson ↔ Lossless j := by
  have written := stated j j le_rfl proper settled s accepted
  rw [← same_iff_lossless proper]
  exact ⟨fun same => same.trans written.symm, fun same => same.trans written⟩

/-- A schema is written as it is stated again: without the fields that say nothing, in another order,
    and otherwise as it stood there, exactly if nothing in it is lost. -/
theorem toJson_faithful_iff (proper : j.settled = j) {settled : Bool} {s : Schema}
    (accepted : ofNode? settled (.ofJson j) = some s) :
    (modelled.schema j).Same s.toJson ∧ ((faithful.schema j).Same s.toJson ↔ Lossless j) :=
  ⟨stated j j le_rfl proper settled s accepted, faithful_iff proper accepted⟩

theorem toJson_faithful_iff_nested :
    let kind (silent : List (String × Json)) : Json :=
      .object (("enum", .array [.scalar (.int 1)]) :: silent)
    let j : Json := .object [("nullable", .scalar .null), ("required", .array []),
      ("x-tag", .object [("required", .array [])]),
      ("properties", .object [("kind", kind [("format", .scalar .null)])])]
    j.settled = j ∧ ∃ s, ofNode? false (.ofJson j) = some s ∧
      (Json.object [("properties", .object [("kind", kind [])]),
        ("x-tag", .object [("required", .array [])])]).Same s.toJson := by
  intro kind j
  have proper : j.settled = j := rfl
  obtain ⟨s, accepted⟩ : ∃ s, ofNode? false (.ofJson j) = some s := ⟨_, rfl⟩
  refine ⟨proper, s, accepted, ?_⟩
  apply Same.trans _ (toJson_faithful_iff proper accepted).1
  apply Same.object (by decide) (by decide)
  · intro f member
    simp only [List.mem_cons, List.not_mem_nil, or_false] at member
    rcases member with rfl | rfl
    · exact ⟨_, List.mem_cons_of_mem _ List.mem_cons_self, Same.refl _⟩
    · exact ⟨_, List.mem_cons_self, Same.refl _⟩
  · intro f member
    rcases List.mem_cons.mp member with rfl | later
    · exact ⟨_, List.mem_cons_of_mem _ List.mem_cons_self⟩
    · rw [List.mem_singleton.mp later]
      exact ⟨_, List.mem_cons_self⟩

/-- A key that is not known beside the property of a discriminator, and a listed number that does not
    fit into 64 signed bits. -/
theorem toJson_loses :
    let tagged : Json := .object [("discriminator",
      .object [("propertyName", .text "kind"), ("x-kind", .scalar (.int 1))])]
    let listed : Json := .object [("enum", .array [.scalar (.int 9223372036854775809)])]
    ∀ j ∈ [tagged, listed], j.settled = j ∧
      ∃ s, ofNode? false (.ofJson j) = some s ∧ ¬ (faithful.schema j).Same s.toJson := by
  intro tagged listed j member
  simp only [List.mem_cons, List.not_mem_nil, or_false] at member
  rcases member with rfl | rfl
  · have proper : tagged.settled = tagged := rfl
    obtain ⟨s, accepted⟩ : ∃ s, ofNode? false (.ofJson tagged) = some s := ⟨_, rfl⟩
    refine ⟨proper, s, accepted, ?_⟩
    intro same
    have kept := (faithful_iff proper accepted).mp same _ .here
    have known := kept.told _ List.mem_cons_self _ (List.mem_cons_of_mem _ List.mem_cons_self)
    exact absurd known (by decide)
  · have proper : listed.settled = listed := rfl
    obtain ⟨s, accepted⟩ : ∃ s, ofNode? false (.ofJson listed) = some s := ⟨_, rfl⟩
    refine ⟨proper, s, accepted, ?_⟩
    intro same
    have kept := (faithful_iff proper accepted).mp same _ .here
    have fits := kept.listed _ List.mem_cons_self _ List.mem_cons_self
    exact absurd fits (by decide)

end Lost
end SchemaSplit.Schema
