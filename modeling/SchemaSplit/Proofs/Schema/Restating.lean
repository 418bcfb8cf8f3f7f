import SchemaSplit.Proofs.Json.Same
import SchemaSplit.Proofs.Schema.Entries
import SchemaSplit.Proofs.Schema.Reader

/-!
What is lost when a schema is read and written again. Fields that say nothing are left out: optional
keywords that are null, and empty lists and properties. Beside these the writer gives back what was
read, except for two things: a listed number that does not fit into 64 signed bits becomes a double,
and an object that tells union members apart keeps its two known keys only.
-/

namespace SchemaSplit

namespace Json

def isNull : Json → Bool
  | scalar .null => true
  | _ => false

def isEmpty : Json → Bool
  | array items => items.isEmpty
  | object fields => fields.isEmpty
  | _ => false

theorem sizeOf_field_lt {fields : List (String × Json)} {f : String × Json} (inside : f ∈ fields) :
    sizeOf f.2 < sizeOf (object fields) := by
  have small := List.sizeOf_lt_of_mem inside
  rcases f with ⟨name, j⟩
  simp only [Prod.mk.sizeOf_spec, object.sizeOf_spec] at small ⊢
  omega

theorem sizeOf_item_lt {items : List Json} {j : Json} (inside : j ∈ items) :
    sizeOf j < sizeOf (array items) := by
  have small := List.sizeOf_lt_of_mem inside
  simp only [array.sizeOf_spec]
  omega

end Json

namespace Schema

open Json (Same)

def optionalNames : List String :=
  ["$ref", "type", "format", "description", "items", "additionalProperties", "enum", "nullable",
   "x-nullable", "discriminator"]

def listNames : List String := ["properties", "required", "allOf", "anyOf", "oneOf"]

def isSilent (name : String) (j : Json) : Bool :=
  (j.isNull && optionalNames.contains name) || (j.isEmpty && listNames.contains name)

/-- What is done to a schema when it is stated again: to each listed value, and to an object that
    tells union members apart, which keeps some of its keys. -/
structure Restatement where
  listed : Scalar → Scalar
  keeps : String → Bool

namespace Restatement

def faithful : Restatement := ⟨id, fun _ => true⟩

def discriminatorNames : List String := ["propertyName", "mapping"]

def modelled : Restatement := ⟨Scalar.enumValue, discriminatorNames.contains⟩

def enum (r : Restatement) : Json → Json
  | .array items => .array (items.map fun | .scalar v => .scalar (r.listed v) | j => j)
  | j => j

def discriminator (r : Restatement) : Json → Json
  | .object fields =>
    .object (fields.filter fun f => r.keeps f.1 && !(f.2.isNull && f.1 == "mapping"))
  | j => j

def plain (r : Restatement) (name : String) (j : Json) : Json :=
  match name with
  | "enum" => r.enum j
  | "discriminator" => r.discriminator j
  | _ => j

mutual

def schema (r : Restatement) : Json → Json
  | .object fields => .object (schemaFields r fields)
  | j => j
termination_by structural j => j

def schemaFields (r : Restatement) : List (String × Json) → List (String × Json)
  | [] => []
  | (name, j) :: rest =>
    let value := match name with
      | "properties" => properties r j
      | "items" | "additionalProperties" => schema r j
      | "allOf" | "anyOf" | "oneOf" => members r j
      | _ => plain r name j
    if isSilent name j then schemaFields r rest else (name, value) :: schemaFields r rest
termination_by structural fs => fs

def properties (r : Restatement) : Json → Json
  | .object fields => .object (propertyFields r fields)
  | j => j
termination_by structural j => j

def propertyFields (r : Restatement) : List (String × Json) → List (String × Json)
  | [] => []
  | (name, j) :: rest => (name, schema r j) :: propertyFields r rest
termination_by structural fs => fs

def members (r : Restatement) : Json → Json
  | .array items => .array (memberItems r items)
  | j => j
termination_by structural j => j

def memberItems (r : Restatement) : List Json → List Json
  | [] => []
  | j :: rest => schema r j :: memberItems r rest
termination_by structural js => js

end

def value (r : Restatement) (name : String) (j : Json) : Json :=
  match name with
  | "properties" => properties r j
  | "items" | "additionalProperties" => schema r j
  | "allOf" | "anyOf" | "oneOf" => members r j
  | _ => plain r name j

def field? (r : Restatement) (f : String × Json) : Option (String × Json) :=
  if isSilent f.1 f.2 then none else some (f.1, r.value f.1 f.2)

theorem schemaFields_eq (r : Restatement) (fs : List (String × Json)) :
    r.schemaFields fs = fs.filterMap r.field? := by
  induction fs with
  | nil => rfl
  | cons f rest ih =>
    rcases f with ⟨name, j⟩
    unfold schemaFields field?
    rw [List.filterMap_cons, ih]
    dsimp only
    by_cases silent : isSilent name j
    · rw [if_pos silent, if_pos silent]
      rfl
    · rw [if_neg silent, if_neg silent]
      unfold value
      split <;> rfl

theorem propertyFields_eq (r : Restatement) (fs : List (String × Json)) :
    r.propertyFields fs = fs.map fun f => (f.1, r.schema f.2) := by
  induction fs with
  | nil => rfl
  | cons f rest ih => rw [propertyFields, ih, List.map_cons]

theorem memberItems_eq (r : Restatement) (js : List Json) :
    r.memberItems js = js.map r.schema := by
  induction js with
  | nil => rfl
  | cons j rest ih => rw [memberItems, ih, List.map_cons]

end Restatement

section Values

variable {settled : Bool} {j : Json}

theorem optional_cases {α : Type} {read : Node → Option α} {v : Option α}
    (known : (Node.ofJson j).optional settled read = some v) :
    (j.isNull ∧ v = none) ∨ (¬ j.isNull ∧ ∃ x, v = some x ∧ read (.ofJson j) = some x) := by
  by_cases isNull : j.isNull
  · left
    cases j with
    | scalar s =>
      cases s with
      | null =>
        rw [Node.ofJson, Node.optional, Leaf.under_ofScalar] at known
        exact ⟨isNull, (Option.some.inj known).symm⟩
      | _ => cases isNull
    | _ => cases isNull
  · right
    have present : j ≠ .scalar .null := by
      rintro rfl
      exact isNull rfl
    rw [Node.optional_ofJson present] at known
    obtain ⟨x, read, rfl⟩ := Option.map_eq_some_iff.mp known
    exact ⟨isNull, x, rfl, read⟩

theorem eq_of_text? {t : String} (known : (Node.ofJson j).text? settled = some t) : j = .text t := by
  cases j with
  | scalar s =>
    rw [Node.ofJson, Node.text?, Leaf.under_ofScalar] at known
    cases s <;> cases known
    rfl
  | array items => cases known
  | object fields => cases known

theorem eq_of_flag? {b : Bool} (known : (Node.ofJson j).flag? settled = some b) :
    j = .scalar (.bool b) := by
  cases j with
  | scalar s =>
    rw [Node.ofJson, Node.flag?, Leaf.under_ofScalar] at known
    cases s <;> cases known
    rfl
  | array items => cases known
  | object fields => cases known

theorem eq_texts {items : List Json} {names : List String} {read : Json → Option String}
    (only : ∀ j t, read j = some t → j = .text t) (known : items.mapM read = some names) :
    items = names.map .text := by
  rw [List.mapM_eq_some] at known
  induction known with
  | nil => rfl
  | cons here _ ih => rw [only _ _ here, ih, List.map_cons]

theorem eq_of_type? {t : SchemaType} (known : SchemaType.ofJson? j = some t) : j = t.toJson := by
  unfold SchemaType.ofJson? at known
  split at known
  · cases known
    rfl
  · obtain ⟨names, read, rfl⟩ := Option.map_eq_some_iff.mp known
    rw [eq_texts ?_ read]
    · rfl
    · intro item text told
      split at told <;> cases told
      rfl
  · cases known

theorem eq_of_texts? {names : List String} (known : (Node.ofJson j).texts? settled = some names) :
    j = .texts names := by
  cases j with
  | scalar s =>
    rw [Node.ofJson, Node.texts?, Leaf.under_ofScalar] at known
    cases known
  | array items =>
    rw [Node.ofJson, Node.texts?, Node.ofJsonItems_eq_map] at known
    rw [List.mapM_map] at known
    rw [eq_texts (fun _ _ => eq_of_text?) known]
    rfl
  | object fields => cases known

theorem eq_of_enum? {values : List Scalar} (known : enum? (.ofJson j) = some values) :
    Restatement.modelled.enum j = .array (values.map .scalar) := by
  cases j with
  | scalar s => cases known
  | object fields => cases known
  | array items =>
    rw [Node.ofJson, enum?, Node.ofJsonItems_eq_map, List.mapM_map, List.mapM_eq_some] at known
    rw [Restatement.enum]
    congr 1
    induction known with
    | nil => rfl
    | @cons item v items values here _ ih =>
      rw [List.map_cons, List.map_cons, ih]
      cases item with
      | scalar s =>
        cases here
        rfl
      | _ => cases here

theorem eq_of_mapping? {m : Json} {mapping : Option (List (String × String))}
    (proper : m.settled = m) (known : Discriminator.mapping? m = some mapping) :
    (m.isNull ∧ mapping = none) ∨ ¬ m.isNull ∧
      ∃ entries, mapping = some entries ∧ m = .object (entries.map fun e => (e.1, .text e.2)) := by
  unfold Discriminator.mapping? at known
  split at known
  · cases known
    exact .inl ⟨rfl, rfl⟩
  · rename_i fields
    right
    obtain ⟨entries, read, told⟩ := Option.bind_eq_some_iff.mp known
    rw [List.mapM_eq_some] at read
    have same : fields = entries.map fun e => (e.1, Json.text e.2) := by
      clear proper known told
      induction read with
      | nil => rfl
      | cons here _ ih =>
        rw [List.map_cons, ← ih]
        split at here <;> cases here
        rfl
    have distinct := (Json.settled_object.mp proper).1
    rw [same, List.map_map] at distinct
    have whole : lastWins entries = entries := lastWins_of_nodup distinct
    rw [whole] at told
    exact ⟨nofun, entries, (Option.some.inj told).symm, congrArg Json.object same⟩
  · cases known

theorem fields_of_discriminator? {fields : List (String × Json)} {d : Discriminator}
    (known : Discriminator.ofJson? (.object fields) = some d) :
    ∃ name mapping, d = .object name mapping ∧ ("propertyName", .text name) ∈ fields ∧
      ((∀ f ∈ fields, f.1 ≠ "mapping") ∧ mapping = none ∨
        ∃ m, ("mapping", m) ∈ fields ∧ Discriminator.mapping? m = some mapping) := by
  have of_filter {key : String} {f : String × Json} {rest : List (String × Json)}
      (found : fields.filter (·.1 == key) = f :: rest) : f.1 = key ∧ f ∈ fields := by
    have member : f ∈ fields.filter (·.1 == key) := found ▸ List.mem_cons_self
    rw [List.mem_filter, beq_iff_eq] at member
    exact member.symm
  unfold Discriminator.ofJson? at known
  simp only [Option.bind_eq_bind, Option.pure_def] at known
  split at known
  · rename_i key name names
    obtain ⟨rfl, named⟩ := of_filter names
    rw [Option.bind_some] at known
    split at known
    · rename_i missing
      rw [List.filter_eq_nil_iff] at missing
      cases known
      refine ⟨name, none, rfl, named, .inl ⟨?_, rfl⟩⟩
      intro f inside
      simpa using missing f inside
    · rename_i key m mappings
      obtain ⟨rfl, mapped⟩ := of_filter mappings
      obtain ⟨mapping, read, same⟩ := Option.bind_eq_some_iff.mp known
      cases same
      exact ⟨name, mapping, rfl, named, .inr ⟨m, mapped, read⟩⟩
    · cases known
  · cases known

theorem same_of_discriminator? {d : Discriminator} (proper : j.settled = j)
    (known : Discriminator.ofJson? j = some d) :
    (Restatement.modelled.discriminator j).Same d.toJson := by
  cases j with
  | scalar s =>
    cases s <;> cases known
    exact Same.refl _
  | array items => cases known
  | object fields =>
    obtain ⟨distinct, settled⟩ := Json.settled_object.mp proper
    obtain ⟨name, mapping, rfl, named, mapped⟩ := fields_of_discriminator? known
    have value {key : String} {k l : Json} (left : (key, k) ∈ fields) (right : (key, l) ∈ fields) :
        k = l := by
      have first := lookup_of_mem distinct left
      rw [lookup_of_mem distinct right] at first
      exact (Option.some.inj first).symm
    have keeps (key : String) : Restatement.modelled.keeps key = true ↔
        key = "propertyName" ∨ key = "mapping" := by
      simp [Restatement.modelled, Restatement.discriminatorNames]
    -- The mapping is absent from what is written if it is absent or null.
    have written : (∀ m, ("mapping", m) ∈ fields → m.isNull) ∧ mapping = none ∨
        ∃ entries, mapping = some entries ∧
          ("mapping", .object (entries.map fun e => (e.1, .text e.2))) ∈ fields := by
      rcases mapped with ⟨missing, absent⟩ | ⟨m, inside, read⟩
      · exact .inl ⟨fun m inside => absurd rfl (missing _ inside), absent⟩
      · rcases eq_of_mapping? (settled _ inside) read with ⟨isNull, absent⟩ | ⟨-, entries, told, same⟩
        · refine .inl ⟨?_, absent⟩
          intro k other
          rw [value other inside]
          exact isNull
        · exact .inr ⟨entries, told, same ▸ inside⟩
    rw [Restatement.discriminator, Discriminator.toJson]
    apply Same.object
    case distinct => exact distinct.sublist (List.filter_sublist.map _)
    case distinct' =>
      cases mapping with
      | none => exact List.nodup_singleton _
      | some entries => exact (by decide : ["propertyName", "mapping"].Nodup)
    case left =>
      intro f member
      obtain ⟨inside, kept⟩ := List.mem_filter.mp member
      rcases f with ⟨key, k⟩
      rw [Bool.and_eq_true, keeps] at kept
      rcases kept.1 with rfl | rfl
      · rw [value inside named]
        exact ⟨_, List.mem_cons_self, Same.refl _⟩
      · rcases written with ⟨silent, -⟩ | ⟨entries, rfl, there⟩
        · simp [silent k inside] at kept
        · rw [value inside there]
          exact ⟨_, List.mem_cons_of_mem _ (List.mem_singleton_self _), Same.refl _⟩
    case right =>
      intro g member
      rcases List.mem_cons.mp member with rfl | later
      · refine ⟨_, List.mem_filter.mpr ⟨named, ?_⟩⟩
        simp [keeps]
      · rcases written with ⟨-, rfl⟩ | ⟨entries, rfl, there⟩
        · cases later
        · rw [List.mem_singleton.mp later]
          refine ⟨_, List.mem_filter.mpr ⟨there, ?_⟩⟩
          simp [keeps, Json.isNull]

end Values

section Fields

open Restatement (modelled)

variable {settled : Bool} {name : String} {j : Json}

def Matches (stated written : Option (String × Json)) : Prop :=
  Option.Rel (fun f g => f.1 = g.1 ∧ f.2.Same g.2) stated written

theorem isSilent_of_optional (isOptional : name ∈ optionalNames) (single : name ∉ listNames) :
    isSilent name j = j.isNull := by
  simp [isSilent, isOptional, single]

theorem isSilent_of_list (notOptional : name ∉ optionalNames) (isList : name ∈ listNames) :
    isSilent name j = j.isEmpty := by
  simp [isSilent, isList, notOptional]

theorem matches_option {α : Type} {v : Option α} {write : α → Json}
    (isOptional : name ∈ optionalNames) (single : name ∉ listNames)
    (told : (j.isNull ∧ v = none) ∨
      ¬ j.isNull ∧ ∃ x, v = some x ∧ (modelled.value name j).Same (write x)) :
    Matches (modelled.field? (name, j)) (v.map fun x => (name, write x)) := by
  rw [Restatement.field?, isSilent_of_optional isOptional single]
  rcases told with ⟨isNull, rfl⟩ | ⟨present, x, rfl, same⟩
  · rw [if_pos isNull]
    exact .none
  · rw [if_neg present]
    exact .some ⟨rfl, same⟩

theorem matches_list {α : Type} {v : List α} {written : Json}
    (notOptional : name ∉ optionalNames) (isList : name ∈ listNames)
    (empty : j.isEmpty = v.isEmpty) (same : (modelled.value name j).Same written) :
    Matches (modelled.field? (name, j)) (if v.isEmpty then none else some (name, written)) := by
  rw [Restatement.field?, isSilent_of_list notOptional isList, empty]
  cases v.isEmpty with
  | true => exact .none
  | false => exact .some ⟨rfl, same⟩

theorem matches_extra (unknown : name ∉ keywordNames) :
    Matches (modelled.field? (name, j)) (some (name, j)) := by
  have value : modelled.value name j = j := by
    simp only [keywordNames, List.mem_cons, List.not_mem_nil, or_false, not_or] at unknown
    unfold Restatement.value Restatement.plain
    split <;> simp_all
  have subset : optionalNames ⊆ keywordNames ∧ listNames ⊆ keywordNames := by decide
  have notOptional : name ∉ optionalNames := fun inside => unknown (subset.1 inside)
  have notList : name ∉ listNames := fun inside => unknown (subset.2 inside)
  rw [Restatement.field?, value, if_neg (by simp [isSilent, notOptional, notList])]
  exact .some ⟨rfl, Same.refl j⟩

def Stated (j : Json) : Prop :=
  ∀ k, sizeOf k ≤ sizeOf j → k.settled = k → ∀ settled s, ofNode? settled (.ofJson k) = some s →
    (modelled.schema k).Same s.toJson

theorem namedSchema?_ofJson (f : String × Json) :
    namedSchema? settled (.leaf (.ofScalar (.string f.1)), .ofJson f.2) =
      (ofNode? settled (.ofJson f.2)).map (f.1, ·) := by
  unfold namedSchema?
  dsimp only
  rw [Node.key?_ofString]
  cases ofNode? settled (.ofJson f.2) <;> rfl

theorem stated_properties {ps : List (String × Schema)} (proper : j.settled = j) (below : Stated j)
    (known : properties? settled (.ofJson j) = some ps) :
    j.isEmpty = ps.isEmpty ∧
      (modelled.properties j).Same (.object (ps.map fun p => (p.1, p.2.toJson))) := by
  cases j with
  | scalar s =>
    rw [Node.ofJson, properties?, Leaf.under_ofScalar] at known
    cases known
  | array items => cases known
  | object fields =>
    obtain ⟨distinct, settledFields⟩ := Json.settled_object.mp proper
    rw [Node.ofJson, properties?, Node.ofJsonFields_eq_map, entries?_eq_mapM, List.mapM_map] at known
    obtain ⟨qs, read, told⟩ := Option.map_eq_some_iff.mp known
    rw [List.mapM_eq_some] at read
    have each : List.Forall₂ (fun f q => f.1 = q.1 ∧ ofNode? settled (.ofJson f.2) = some q.2)
        fields qs := by
      apply read.imp
      intro f q here
      rw [Function.comp_apply, namedSchema?_ofJson] at here
      obtain ⟨s, known, rfl⟩ := Option.map_eq_some_iff.mp here
      exact ⟨rfl, known⟩
    have names : fields.map (·.1) = qs.map (·.1) := by
      apply List.forall₂_eq_eq_eq ▸ List.forall₂_map_left_iff.mpr _
      apply List.forall₂_map_right_iff.mpr
      exact each.imp fun _ _ here => here.1
    have whole : lastWins qs = qs := lastWins_of_nodup (names ▸ distinct)
    rw [whole] at told
    subst told
    have empty : fields.isEmpty = qs.isEmpty := by
      cases each <;> rfl
    refine ⟨empty, ?_⟩
    rw [Restatement.properties, Restatement.propertyFields_eq]
    apply Same.object
    case distinct =>
      rw [List.map_map]
      exact distinct
    case distinct' =>
      rw [List.map_map]
      exact names ▸ distinct
    case left =>
      intro g member
      obtain ⟨f, inside, rfl⟩ := List.mem_map.mp member
      obtain ⟨q, there, same, read⟩ := each.exists_right inside
      have small := (Json.sizeOf_field_lt inside).le
      refine ⟨q.2.toJson, List.mem_map.mpr ⟨q, there, ?_⟩, ?_⟩
      · rw [same]
      · exact below f.2 small (settledFields f inside) settled q.2 read
    case right =>
      intro g member
      obtain ⟨q, there, rfl⟩ := List.mem_map.mp member
      obtain ⟨f, inside, same, -⟩ := each.exists_left there
      exact ⟨_, List.mem_map.mpr ⟨f, inside, by rw [same]⟩⟩

theorem stated_members {ss : List Schema} (proper : j.settled = j) (below : Stated j)
    (known : members? settled (.ofJson j) = some ss) :
    j.isEmpty = ss.isEmpty ∧ (modelled.members j).Same (.array (ss.map toJson)) := by
  cases j with
  | scalar s =>
    rw [Node.ofJson, members?, Leaf.under_ofScalar] at known
    cases known
  | object fields => cases known
  | array items =>
    have settledItems := Json.settled_array.mp proper
    rw [Node.ofJson, members?, Node.ofJsonItems_eq_map, schemas?_eq_mapM, List.mapM_map,
      List.mapM_eq_some] at known
    have empty : items.isEmpty = ss.isEmpty := by
      cases known <;> rfl
    refine ⟨empty, ?_⟩
    rw [Restatement.members, Restatement.memberItems_eq, Json.same_array, List.forall₂_map_left_iff,
      List.forall₂_map_right_iff]
    have each : ∀ item ∈ items, ∀ s, ofNode? settled (.ofJson item) = some s →
        (modelled.schema item).Same s.toJson := fun item inside s read =>
      below item (Json.sizeOf_item_lt inside).le (settledItems item inside) settled s read
    apply ((List.forall₂_and_left _ _).mpr ⟨each, known⟩).imp
    intro item s here
    exact here.1 s here.2

theorem stated_items {s? : Option Schema} (proper : j.settled = j) (below : Stated j)
    (known : items? settled (.ofJson j) = some s?) :
    (j.isNull ∧ s? = none) ∨
      ¬ j.isNull ∧ ∃ s, s? = some s ∧ (modelled.schema j).Same s.toJson := by
  cases j with
  | scalar v =>
    rw [Node.ofJson, items?, Leaf.under_ofScalar] at known
    cases v <;> cases known
    exact .inl ⟨rfl, rfl⟩
  | array items => cases known
  | object fields =>
    obtain ⟨s, read, rfl⟩ := Option.map_eq_some_iff.mp known
    exact .inr ⟨nofun, s, rfl, below _ le_rfl proper settled s read⟩

theorem stated_additional {a? : Option (Additional Schema)} (proper : j.settled = j)
    (below : Stated j) (known : additional? settled (.ofJson j) = some a?) :
    (j.isNull ∧ a? = none) ∨
      ¬ j.isNull ∧ ∃ a, a? = some a ∧ (modelled.schema j).Same (additionalValue a) := by
  cases j with
  | scalar v =>
    rw [Node.ofJson, additional?, Leaf.under_ofScalar] at known
    cases v <;> cases known
    · exact .inl ⟨rfl, rfl⟩
    · exact .inr ⟨nofun, _, rfl, Same.refl _⟩
  | array items => cases known
  | object fields =>
    obtain ⟨_, _, made⟩ := Option.bind_eq_some_iff.mp known
    obtain ⟨s, read, same⟩ := Option.bind_eq_some_iff.mp made
    cases same
    exact .inr ⟨nofun, _, rfl, below _ le_rfl proper true s read⟩

theorem matches_optional {α : Type} {read : Node → Option α} {v : Option α} {write : α → Json}
    (isOptional : name ∈ optionalNames) (single : name ∉ listNames)
    (known : (Node.ofJson j).optional settled read = some v)
    (back : ∀ x, read (.ofJson j) = some x → (modelled.value name j).Same (write x)) :
    Matches (modelled.field? (name, j)) (v.map fun x => (name, write x)) := by
  apply matches_option isOptional single
  rcases optional_cases known with absent | ⟨present, x, told, here⟩
  · exact .inl absent
  · exact .inr ⟨present, x, told, back x here⟩

theorem matches_of_readsTo {f : String × Json} {field : Field} (proper : f.2.settled = f.2)
    (below : Stated f.2) (reads : ReadsTo settled f field) :
    Matches (modelled.field? f) field.entry := by
  rcases f with ⟨name, j⟩
  dsimp only at proper below
  by_cases unknown : name ∉ keywordNames
  · rw [ReadsTo, field?_of_extra unknown, Node.json?_ofJson] at reads
    have same : field = .extra name j := by
      rw [← proper]
      exact (Option.some.inj reads).symm
    subst same
    exact matches_extra unknown
  have keyword := not_not.mp unknown
  simp only [keywordNames, List.mem_cons, List.not_mem_nil, or_false] at keyword
  -- One goal for each keyword, in the order of `keywordNames`.
  rcases keyword with rfl | rfl | rfl | rfl | rfl | rfl | rfl | rfl | rfl | rfl | rfl | rfl | rfl |
    rfl | rfl
  all_goals obtain ⟨v, known, rfl⟩ := Option.map_eq_some_iff.mp reads
  · apply matches_optional (by decide) (by decide) known
    intro t read
    rw [eq_of_text? read]
    exact Same.refl _
  · apply matches_optional (by decide) (by decide) known
    intro t read
    rw [Node.json?_ofJson, Option.bind_eq_bind, Option.bind_some] at read
    rw [eq_of_type? read]
    exact Same.refl _
  · apply matches_optional (by decide) (by decide) known
    intro t read
    rw [eq_of_text? read]
    exact Same.refl _
  · apply matches_optional (by decide) (by decide) known
    intro t read
    rw [eq_of_text? read]
    exact Same.refl _
  · obtain ⟨empty, same⟩ := stated_properties proper below known
    exact matches_list (by decide) (by decide) empty same
  · have same : j = .texts v := eq_of_texts? known
    have empty : j.isEmpty = v.isEmpty := by
      rw [same]
      exact List.isEmpty_map
    apply matches_list (by decide) (by decide) empty
    rw [same]
    exact Same.refl _
  · exact matches_option (by decide) (by decide) (stated_items proper below known)
  · exact matches_option (by decide) (by decide) (stated_additional proper below known)
  · obtain ⟨empty, same⟩ := stated_members proper below known
    exact matches_list (by decide) (by decide) empty same
  · obtain ⟨empty, same⟩ := stated_members proper below known
    exact matches_list (by decide) (by decide) empty same
  · obtain ⟨empty, same⟩ := stated_members proper below known
    exact matches_list (by decide) (by decide) empty same
  · apply matches_optional (by decide) (by decide) known
    intro values read
    have same := eq_of_enum? read
    show (modelled.enum j).Same _
    rw [same]
    exact Same.refl _
  · apply matches_optional (by decide) (by decide) known
    intro b read
    rw [eq_of_flag? read]
    exact Same.refl _
  · apply matches_optional (by decide) (by decide) known
    intro b read
    rw [eq_of_flag? read]
    exact Same.refl _
  · apply matches_optional (by decide) (by decide) known
    intro d read
    rw [Node.json?_ofJson, Option.bind_eq_bind, Option.bind_some] at read
    exact same_of_discriminator? proper read

theorem name_of_extra {f : String × Json} (reads : ReadsTo settled f (.extra name j)) :
    name = f.1 ∧ f.1 ∉ keywordNames := by
  rcases f with ⟨key, k⟩
  by_cases unknown : key ∉ keywordNames
  · rw [ReadsTo, field?_of_extra unknown, Node.json?_ofJson] at reads
    cases reads
    exact ⟨rfl, unknown⟩
  · have keyword := not_not.mp unknown
    simp only [keywordNames, List.mem_cons, List.not_mem_nil, or_false] at keyword
    rcases keyword with rfl | rfl | rfl | rfl | rfl | rfl | rfl | rfl | rfl | rfl | rfl | rfl | rfl |
      rfl | rfl
    all_goals
      obtain ⟨v, _, same⟩ := Option.map_eq_some_iff.mp reads
      cases same

theorem names_extras {fields : List (String × Json)} {fs : List Field}
    (read : List.Forall₂ (ReadsTo settled) fields fs) :
    ((extras fs).map (·.1)).Sublist (fields.map (·.1)) := by
  induction read with
  | nil => exact List.Sublist.refl _
  | @cons f field fields fs here _ ih =>
    cases field with
    | extra name j =>
      obtain ⟨rfl, -⟩ := name_of_extra here
      exact ih.cons_cons f.1
    | _ => exact ih.cons f.1

theorem names_stated (r : Restatement) (fields : List (String × Json)) :
    ((fields.filterMap r.field?).map (·.1)).Sublist (fields.map (·.1)) := by
  induction fields with
  | nil => exact List.Sublist.refl _
  | cons f rest ih =>
    rw [List.filterMap_cons, Restatement.field?]
    split
    · rename_i silent
      exact ih.cons f.1
    · rename_i g spoken
      split at spoken <;> cases spoken
      exact ih.cons_cons f.1

theorem same_of_fields {fields : List (String × Json)} {fs : List Field} {s : Schema}
    (distinct : (fields.map (·.1)).Nodup) (read : List.Forall₂ (ReadsTo settled) fields fs)
    (made : ofFields? fs = some s)
    (each : ∀ f ∈ fields, ∀ field, ReadsTo settled f field →
      Matches (modelled.field? f) field.entry) :
    (modelled.schema (.object fields)).Same s.toJson := by
  unfold ofFields? at made
  split at made
  case isFalse => cases made
  rename_i slots
  cases made
  have apart := distinct.sublist (names_extras read)
  have extra : (ofFields fs).keywords.extra = extras fs := lastWins_of_nodup apart
  have entries {e : String × Json} := mem_fieldsJson_ofFields (e := e) slots apart
  rw [toJson_eq, Restatement.schema, Restatement.schemaFields_eq]
  apply Same.object
  case distinct => exact distinct.sublist (names_stated modelled fields)
  case distinct' =>
    apply nodup_fieldsJson
    · rw [extra]
      intro e inside
      obtain ⟨f, -, reads⟩ := read.exists_left (mem_extras.mp inside)
      obtain ⟨same, unknown⟩ := name_of_extra reads
      exact same ▸ unknown
    · exact extra ▸ apart
  case left =>
    intro g member
    obtain ⟨f, inside, stated⟩ := List.mem_filterMap.mp member
    obtain ⟨field, there, reads⟩ := read.exists_right inside
    have here := each f inside field reads
    rw [stated] at here
    cases written : field.entry with
    | none =>
      rw [written] at here
      cases here
    | some e =>
      rw [written] at here
      cases here with
      | some same =>
        have listed := entries.mpr ⟨field, there, written⟩
        exact ⟨e.2, same.1 ▸ listed, same.2⟩
  case right =>
    intro e member
    obtain ⟨field, there, written⟩ := entries.mp member
    obtain ⟨f, inside, reads⟩ := read.exists_left there
    have here := each f inside field reads
    rw [written] at here
    cases stated : modelled.field? f with
    | none =>
      rw [stated] at here
      cases here
    | some g =>
      rw [stated] at here
      cases here with
      | some same =>
        have listed := List.mem_filterMap.mpr ⟨f, inside, stated⟩
        exact ⟨g.2, same.1 ▸ listed⟩

theorem stated (j : Json) : Stated j := by
  intro k size proper settled s read
  cases k with
  | scalar v =>
    rw [Node.ofJson, ofNode?, Leaf.under_ofScalar] at read
    cases read
  | array items => cases read
  | object fields =>
    obtain ⟨distinct, settledFields⟩ := Json.settled_object.mp proper
    obtain ⟨fs, known, made⟩ := Option.bind_eq_some_iff.mp read
    apply same_of_fields distinct (fields?_ofJsonFields.mp known) made
    intro f inside field reads
    have small := Json.sizeOf_field_lt inside
    exact matches_of_readsTo (settledFields f inside) (stated f.2) reads
termination_by sizeOf j

end Fields
end Schema
end SchemaSplit
