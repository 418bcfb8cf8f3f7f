import SchemaSplit.Artifact
import SchemaSplit.Proofs.Group
import SchemaSplit.Proofs.Json.Reader
import SchemaSplit.Proofs.Schema.Writer

namespace SchemaSplit

/-- A text stands under `$ref` at some place in a value. -/
inductive Json.Refers (reference : String) : Json → Prop
  | here {fields : List (String × Json)} (member : ("$ref", .text reference) ∈ fields) :
      Refers reference (.object fields)
  | item {items : List Json} {j : Json} (member : j ∈ items) (below : Refers reference j) :
      Refers reference (.array items)
  | field {fields : List (String × Json)} {f : String × Json} (member : f ∈ fields)
      (below : Refers reference f.2) : Refers reference (.object fields)

namespace Json

variable {reference : String}

def FieldRefers (reference : String) (f : String × Json) : Prop :=
  f = ("$ref", .text reference) ∨ Refers reference f.2

theorem refers_object {fields : List (String × Json)} :
    Refers reference (.object fields) ↔ ∃ f ∈ fields, FieldRefers reference f := by
  constructor
  · intro refers
    cases refers with
    | here member => exact ⟨_, member, .inl rfl⟩
    | field member below => exact ⟨_, member, .inr below⟩
  · rintro ⟨f, member, rfl | below⟩
    · exact .here member
    · exact .field member below

theorem refers_array {items : List Json} :
    Refers reference (.array items) ↔ ∃ j ∈ items, Refers reference j := by
  constructor
  · intro refers
    cases refers with
    | item member below => exact ⟨_, member, below⟩
  · rintro ⟨j, member, below⟩
    exact .item member below

theorem fieldRefers_of_ne {name : String} {j : Json} (other : name ≠ "$ref") :
    FieldRefers reference (name, j) ↔ Refers reference j := by
  simp [FieldRefers, other]

end Json

def Discriminator.targets : Discriminator → List String
  | object _ (some mapping) => mapping.map (·.2)
  | _ => []

namespace Schema

/-- A reference that a node carries beside its own. -/
def CarriesAside (s : Schema) (reference : String) : Prop :=
  (∃ d, s.keywords.discriminator = some d ∧ reference ∈ d.targets) ∨
    (Json.object s.keywords.extra).Refers reference

/-- A reference that is written somewhere in a schema, or stands for a value of a discriminator. -/
def Writes (s : Schema) (reference : String) : Prop :=
  s.toJson.Refers reference ∨
    ∃ node, Within node s ∧
      ∃ d, node.keywords.discriminator = some d ∧ reference ∈ d.targets

section Fields
open Json (optionalField listField FieldRefers)

variable {s : Schema} {reference name : String}

theorem exists_optionalField {α : Type} {write : α → Json} {value : Option α}
    {Q : String × Json → Prop} :
    (∃ f ∈ optionalField name write value, Q f) ↔ ∃ v, value = some v ∧ Q (name, write v) := by
  cases value <;> simp [optionalField]

theorem exists_listField {α : Type} {write : List α → Json} {value : List α}
    {Q : String × Json → Prop} :
    (∃ f ∈ listField name write value, Q f) ↔ value ≠ [] ∧ Q (name, write value) := by
  cases value <;> simp [listField]

theorem fieldRefers_ref {t : String} : FieldRefers reference ("$ref", .text t) ↔ t = reference := by
  constructor
  · rintro (same | below)
    · cases same
      rfl
    · cases below
  · rintro rfl
    exact .inl rfl

theorem not_refers_scalar (v : Scalar) : ¬ (Json.scalar v).Refers reference := nofun

theorem not_refers_text (t : String) : ¬ (Json.text t).Refers reference := nofun

theorem not_refers_scalars (vs : List Scalar) :
    ¬ (Json.array (vs.map .scalar)).Refers reference := by
  rw [Json.refers_array]
  rintro ⟨j, member, refers⟩
  obtain ⟨v, -, rfl⟩ := List.mem_map.mp member
  cases refers

theorem not_refers_texts (names : List String) : ¬ (Json.texts names).Refers reference := by
  have same : Json.texts names = .array ((names.map Scalar.string).map .scalar) := by
    rw [Json.texts, List.map_map]
    rfl
  rw [same]
  exact not_refers_scalars _

theorem not_refers_type (t : SchemaType) : ¬ t.toJson.Refers reference := by
  cases t with
  | single name => exact not_refers_text name
  | multiple names => exact not_refers_texts names

theorem refers_required {names : List String} (other : name ≠ "$ref") :
    ¬ ∃ f ∈ listField name .texts names, FieldRefers reference f := by
  rw [exists_listField, Json.fieldRefers_of_ne other]
  exact fun refers => not_refers_texts names refers.2

theorem refers_members {ss : List Schema} (other : name ≠ "$ref") :
    (∃ f ∈ listField name .array (ss.map toJson), FieldRefers reference f) ↔
      ∃ c ∈ ss, c.toJson.Refers reference := by
  simp only [exists_listField, Json.fieldRefers_of_ne other, Json.refers_array, List.mem_map,
    exists_exists_and_eq_and]
  refine and_iff_right_of_imp ?_
  rintro ⟨c, member, -⟩ none
  rw [List.map_eq_nil_iff.mp none] at member
  cases member

theorem fieldRefers_toJson (c : Schema) :
    FieldRefers reference (name, c.toJson) ↔ c.toJson.Refers reference := by
  simp [FieldRefers, toJson_eq, Json.text]

theorem refers_properties {ps : List (String × Schema)} (other : name ≠ "$ref") :
    (∃ f ∈ listField name .object (ps.map fun p => (p.1, p.2.toJson)), FieldRefers reference f) ↔
      ∃ c ∈ ps.map (·.2), c.toJson.Refers reference := by
  simp only [exists_listField, Json.fieldRefers_of_ne other, Json.refers_object, List.mem_map,
    exists_exists_and_eq_and, fieldRefers_toJson]
  refine and_iff_right_of_imp ?_
  rintro ⟨p, member, -⟩ none
  rw [List.map_eq_nil_iff.mp none] at member
  cases member

theorem refers_additional :
    (∃ a, s.additional = some a ∧ (additionalValue a).Refers reference) ↔
      ∃ c, s.valueSchema = some c ∧ c.toJson.Refers reference := by
  rw [valueSchema]
  rcases s.additional with _ | (allowed | c) <;> simp [additionalValue, not_refers_scalar]

theorem refers_toJson :
    s.toJson.Refers reference ↔ s.ref = some reference ∨
      (∃ c ∈ s.children, c.toJson.Refers reference) ∨
      (∃ d, s.keywords.discriminator = some d ∧ d.toJson.Refers reference) ∨
      (Json.object s.keywords.extra).Refers reference := by
  rw [toJson_eq, Json.refers_object, Json.refers_object, fieldsJson]
  -- One field for each keyword. Those that hold only names, texts and scalars drop out.
  simp (disch := decide) only [List.mem_append, or_and_right, exists_or, mem_children,
    exists_optionalField, fieldRefers_ref, Json.fieldRefers_of_ne, not_refers_scalar,
    not_refers_text, not_refers_scalars, not_refers_type, refers_required, refers_members,
    refers_properties, refers_additional, exists_eq_right, and_false, exists_false, false_or,
    or_assoc]

theorem targets_of_refers {d : Discriminator} (refers : d.toJson.Refers reference) :
    reference ∈ d.targets := by
  rcases d with property | ⟨property, _ | mapping⟩
  · cases refers
  · obtain ⟨f, member, refers⟩ := Json.refers_object.mp refers
    rw [List.mem_singleton.mp member, Json.fieldRefers_of_ne (by decide)] at refers
    cases refers
  · obtain ⟨f, member, refers⟩ := Json.refers_object.mp refers
    rcases List.mem_pair.mp member with rfl | rfl
    · rw [Json.fieldRefers_of_ne (by decide)] at refers
      cases refers
    · rw [Json.fieldRefers_of_ne (by decide), Json.refers_object] at refers
      obtain ⟨f, member, refers⟩ := refers
      obtain ⟨e, mapped, rfl⟩ := List.mem_map.mp member
      rcases refers with same | below
      · simp only [Json.text, Prod.mk.injEq, Json.scalar.injEq, Scalar.string.injEq] at same
        rw [← same.2]
        exact List.mem_map_of_mem mapped
      · cases below

end Fields

variable {s node : Schema} {reference : String}

theorem refers_of_within (inside : Within node s) (refers : node.toJson.Refers reference) :
    s.toJson.Refers reference := by
  induction inside with
  | refl => exact refers
  | child below _ ih => exact refers_toJson.mpr (.inr (.inl ⟨_, below, ih⟩))

theorem within_of_refers (s : Schema) (refers : s.toJson.Refers reference) :
    ∃ node, Within node s ∧ (node.ref = some reference ∨ node.CarriesAside reference) := by
  rcases refers_toJson.mp refers with own | ⟨c, below, refers⟩ | ⟨d, known, refers⟩ | further
  · exact ⟨s, .refl s, .inl own⟩
  · have smaller := sizeOf_child_lt below
    obtain ⟨node, inside, carried⟩ := within_of_refers c refers
    exact ⟨node, .child below inside, carried⟩
  · exact ⟨s, .refl s, .inr (.inl ⟨d, known, targets_of_refers refers⟩)⟩
  · exact ⟨s, .refl s, .inr (.inr further)⟩
termination_by sizeOf s

theorem writes_iff :
    s.Writes reference ↔
      ∃ node, Within node s ∧ (node.ref = some reference ∨ node.CarriesAside reference) := by
  constructor
  · rintro (refers | ⟨node, inside, target⟩)
    · exact within_of_refers s refers
    · exact ⟨node, inside, .inr (.inl target)⟩
  -- A mapping has its references under the values they stand for, so a target counts by itself.
  · rintro ⟨node, inside, own | target | further⟩
    · exact .inl (refers_of_within inside (refers_toJson.mpr (.inl own)))
    · exact .inr ⟨node, inside, target⟩
    · exact .inl (refers_of_within inside (refers_toJson.mpr (.inr (.inr (.inr further)))))

end Schema

open Definitions

namespace IsolatedDocument

def Resolves (i : IsolatedDocument) (source : Definitions) (reference : String) : Prop :=
  ∀ name, referenceName? i.dialect.referenceRoot reference = some name →
    name ∈ Definitions.names source → name ∈ Definitions.names i.definitions

def SelfContained (i : IsolatedDocument) (source : Definitions) : Prop :=
  ∀ e ∈ i.definitions, ∀ reference, e.2.Writes reference → i.Resolves source reference

/-- The references of a document are those of its definitions, whatever their names. -/
theorem refers_toJson {i : IsolatedDocument} {reference : String} :
    i.toJson.Refers reference ↔ ∃ e ∈ i.definitions, e.2.toJson.Refers reference := by
  have schemas : (Json.object (i.definitions.map fun e => (e.1, e.2.toJson))).Refers reference ↔
      ∃ e ∈ i.definitions, e.2.toJson.Refers reference := by
    simp only [Json.refers_object, List.mem_map, exists_exists_and_eq_and, Schema.fieldRefers_toJson]
  have text (t : String) : ¬ (Json.text t).Refers reference := Schema.not_refers_text t
  unfold toJson
  cases i.dialect with
  | swagger2 =>
    rw [Json.refers_object]
    simp (disch := decide) [Json.fieldRefers_of_ne, Json.refers_object, text, schemas]
  | openapi3 =>
    rw [Json.refers_object]
    simp (disch := decide) [Json.fieldRefers_of_ne, Json.refers_object, text, schemas]

end IsolatedDocument

namespace Generator

section
variable {d : Document} {separator : Char} {g : Group} (member : g ∈ d.groups separator)
  (distinct : (names d.definitions).Nodup)
include member distinct

theorem resolves_of_ref {e : String × Schema} (inside : e ∈ (d.isolate g).definitions)
    {node : Schema} (within : Schema.Within node e.2) {reference : String}
    (refers : node.ref = some reference) : (d.isolate g).Resolves d.definitions reference := by
  intro name named defined
  obtain ⟨rfl, nonempty⟩ := referenceName?_eq_some.mp named
  exact Document.mem_isolate_of_mentions member distinct inside ⟨node, within, refers, nonempty⟩
    defined

/-- The JSON artifact of a group is self-contained exactly if what its nodes carry aside resolves:
    the targets of discriminators, and the references inside keywords that are kept as written. The
    artifact is read as what was written, and each text under `$ref` in it belongs to a definition. -/
theorem json_selfContained_iff (fileName : String) :
    (∃ artifact, json.generate (d.isolate g) fileName = .ok artifact ∧
        artifact = (d.isolate g).toJson.pretty 0 ++ "\n" ∧
        ((∀ v ∈ (d.isolate g).toJson.scalars, v.ReadsBack) →
          Json.node? artifact.toList = some (.ofJson (d.isolate g).toJson)) ∧
        ∀ reference, (d.isolate g).toJson.Refers reference ↔
          ∃ e ∈ (d.isolate g).definitions, e.2.toJson.Refers reference) ∧
      ((d.isolate g).SelfContained d.definitions ↔
        ∀ e ∈ (d.isolate g).definitions, ∀ node, Schema.Within node e.2 →
          ∀ reference, node.CarriesAside reference →
            (d.isolate g).Resolves d.definitions reference) := by
  refine ⟨⟨_, rfl, rfl, Json.node?_pretty _, fun _ => IsolatedDocument.refers_toJson⟩, ?_⟩
  constructor
  · intro contained e inside node within reference aside
    exact contained e inside reference (Schema.writes_iff.mpr ⟨node, within, .inr aside⟩)
  · intro resolved e inside reference writes
    obtain ⟨node, within, own | aside⟩ := Schema.writes_iff.mp writes
    · exact resolves_of_ref member distinct inside within own
    · exact resolved e inside node within reference aside

/-- A group whose nodes refer to nothing is on its own in its document, which lacks what they carry
    aside. -/
theorem not_selfContained_of_silent {e : String × Schema} (inside : e ∈ g.members)
    (silent : ∀ e ∈ g.members, e.2.refTree.names d.dialect.referenceRoot = [])
    (name : String) (writes : e.2.Writes (d.dialect.referenceRoot ++ name)) (nonempty : name ≠ "")
    (defined : name ∈ names d.definitions) (foreign : name ∉ names g.members) :
    ¬ (d.isolate g).SelfContained d.definitions := by
  have alone : (d.isolate g).definitions = g.members := by
    rw [Document.isolate_of_closed member distinct]
    intro e given name listed
    rw [silent e given] at listed
    cases listed
  intro contained
  have known := contained e (alone ▸ inside) _ writes name
    (referenceName?_eq_some.mpr ⟨rfl, nonempty⟩) defined
  rw [alone] at known
  exact foreign known

end

/-- Two namespaces that need each other, so that the document of either has both. -/
theorem json_selfContained_iff_cycle :
    let pet : Schema := { properties := [("dog", .reference "#/definitions/B.Dog")] }
    let dog : Schema := { allOf := [.reference "#/definitions/A.Pet"] }
    let d : Document := { definitions := [("A.Pet", pet), ("B.Dog", dog)] }
    let g : Group := ⟨"A", [("A.Pet", pet)]⟩
    g ∈ d.groups '.' ∧ (names d.definitions).Nodup ∧ (d.isolate g).SelfContained d.definitions := by
  intro pet dog d g
  have distinct : (names d.definitions).Nodup := by decide
  have keys : ["A.Pet", "B.Dog"].map (namespaceKey '.') = ["A", "B"] := by decide +kernel
  simp only [List.map_cons, List.map_nil, List.cons.injEq, and_true] at keys
  have member : g ∈ d.groups '.' := Group.mem_ofDefinitions.mpr ⟨by simp [d, g, keys], nofun⟩
  refine ⟨member, distinct, (json_selfContained_iff member distinct "A.json").2.mpr ?_⟩
  have plain : ∀ e ∈ d.definitions, ∀ node, Schema.Within node e.2 →
      node.keywords.discriminator = none ∧ node.keywords.extra = [] := by
    have leaf : ∀ t node, Schema.Within node (.reference t) →
        node.keywords.discriminator = none ∧ node.keywords.extra = [] := fun t =>
      Schema.forall_within_iff.mpr ⟨⟨rfl, rfl⟩, nofun⟩
    simp only [d, List.forall_mem_cons, List.not_mem_nil, false_imp_iff, implies_true, and_true]
    constructor
    · exact Schema.forall_within_iff.mpr ⟨⟨rfl, rfl⟩, List.forall_mem_singleton.mpr (leaf _)⟩
    · exact Schema.forall_within_iff.mpr ⟨⟨rfl, rfl⟩, List.forall_mem_singleton.mpr (leaf _)⟩
  intro e inside node within reference aside
  have part := Document.partOf_isolate member distinct
  obtain ⟨none, nothing⟩ := plain e (part.subset inside) node within
  rcases aside with ⟨discriminator, known, -⟩ | refers
  · rw [none] at known
    cases known
  · rw [nothing, Json.refers_object] at refers
    obtain ⟨f, absurd, -⟩ := refers
    cases absurd

/-- A definition that excludes another one, and one with another one as a value of its
    discriminator: neither artifact has the other definition. -/
theorem json_dangling_aside :
    let dog := "#/components/schemas/B.Dog"
    let notDog : Schema :=
      { keywords := { extra := [("not", .object [("$ref", .text dog)])] } }
    let kinds : Schema :=
      { keywords := { type := some (.single "object"),
                      discriminator := some (.object "kind" (some [("dog", dog)])) } }
    let d : Document :=
      { dialect := .openapi3, definitions := [("A.Pet", notDog), ("B.Dog", .ofType "object")] }
    let e : Document :=
      { dialect := .openapi3, definitions := [("A.Pet", kinds), ("B.Dog", .ofType "object")] }
    let g : Group := ⟨"A", [("A.Pet", notDog)]⟩
    let h : Group := ⟨"A", [("A.Pet", kinds)]⟩
    (names d.definitions).Nodup ∧ g ∈ d.groups '.' ∧ ¬ (d.isolate g).SelfContained d.definitions ∧
      (names e.definitions).Nodup ∧ h ∈ e.groups '.' ∧
      ¬ (e.isolate h).SelfContained e.definitions := by
  intro dog notDog kinds d e g h
  have keys : ["A.Pet", "B.Dog"].map (namespaceKey '.') = ["A", "B"] := by decide +kernel
  simp only [List.map_cons, List.map_nil, List.cons.injEq, and_true] at keys
  have distinct : (names d.definitions).Nodup := by decide
  have member : g ∈ d.groups '.' := Group.mem_ofDefinitions.mpr ⟨by simp [d, g, keys], nofun⟩
  have distinct' : (names e.definitions).Nodup := by decide
  have member' : h ∈ e.groups '.' := Group.mem_ofDefinitions.mpr ⟨by simp [e, h, keys], nofun⟩
  refine ⟨distinct, member, ?_, distinct', member', ?_⟩
  · have excludes : notDog.Writes dog := Schema.writes_iff.mpr
      ⟨notDog, .refl _, .inr (.inr (.field (List.mem_singleton_self _)
        (.here (List.mem_singleton_self _))))⟩
    have silent : ∀ x ∈ g.members, x.2.refTree.names "#/components/schemas/" = [] := by
      decide +kernel
    exact not_selfContained_of_silent member distinct (List.mem_singleton_self _) silent
      "B.Dog" excludes (by decide) (by decide) (by decide)
  · have stands : kinds.Writes dog := Schema.writes_iff.mpr
      ⟨kinds, .refl _, .inr (.inl ⟨_, rfl, List.mem_singleton_self _⟩)⟩
    have silent : ∀ x ∈ h.members, x.2.refTree.names "#/components/schemas/" = [] := by
      decide +kernel
    exact not_selfContained_of_silent member' distinct' (List.mem_singleton_self _) silent
      "B.Dog" stands (by decide) (by decide) (by decide)

end Generator
end SchemaSplit
