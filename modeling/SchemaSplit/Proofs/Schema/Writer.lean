import SchemaSplit.Proofs.Json.Token
import SchemaSplit.Proofs.Schema.Fields

namespace SchemaSplit

theorem SchemaType.ofJson?_toJson (t : SchemaType) : ofJson? t.toJson = some t := by
  cases t with
  | single name => rfl
  | multiple names =>
    unfold toJson Json.texts ofJson?
    dsimp only
    rw [List.mapM_map_eq_some names]
    · rfl
    · exact fun _ _ => rfl

theorem fitsEither_of_fitsSigned {n : Int} (fits : fitsSigned 64 n) : fitsEither 64 n := by
  cases n with
  | ofNat n =>
    simp only [fitsSigned, fitsEither, fitsUnsigned, decide_eq_true_eq] at fits ⊢
    exact fits.trans (by decide)
  | negSucc n => exact fits

theorem fitsEither_of_enumValue {n : Int} (listed : (Scalar.int n).enumValue = .int n) :
    fitsEither 64 n := by
  unfold Scalar.enumValue at listed
  dsimp only at listed
  split at listed
  · rename_i fits
    exact fitsEither_of_fitsSigned fits
  · cases listed

namespace Discriminator

def Distinct : Discriminator → Prop
  | object _ (some mapping) => (mapping.map (·.1)).Nodup
  | _ => True

theorem ofJson?_toJson {d : Discriminator} (distinct : d.Distinct) : ofJson? d.toJson = some d := by
  cases d with
  | property name => rfl
  | object name mapping =>
    cases mapping with
    | none => rfl
    | some m =>
      have back : mapping? (.object (m.map fun e => (e.1, Json.text e.2))) = some (some m) := by
        unfold mapping?
        dsimp only
        rw [List.mapM_map_eq_some m]
        · exact congrArg (fun kept => some (some kept)) (lastWins_of_nodup distinct)
        · exact fun _ _ => rfl
      show (mapping? (.object (m.map fun e => (e.1, Json.text e.2)))).bind
        (fun mapping => some (object name mapping)) = _
      rw [back]
      rfl

end Discriminator

namespace Schema

/-- What a node keeps to in its own keywords once it was read: each name stands once, every further
keyword is settled, and every listed number fits. -/
structure Tidy (s : Schema) : Prop where
  properties : (s.properties.map (·.1)).Nodup
  extraNames : (s.keywords.extra.map (·.1)).Nodup
  extraUnknown : ∀ e ∈ s.keywords.extra, e.1 ∉ keywordNames
  extraSettled : ∀ e ∈ s.keywords.extra, e.2.settled = e.2
  extraFits : ∀ e ∈ s.keywords.extra, ∀ n, .int n ∈ e.2.scalars → fitsEither 64 n
  enum : ∀ v ∈ s.enumValues, v.enumValue = v
  discriminator : ∀ d, s.keywords.discriminator = some d → d.Distinct

def Sound (s : Schema) : Prop := ∀ node, Within node s → node.Tidy

theorem Sound.tidy {s : Schema} (sound : s.Sound) : s.Tidy := sound s (.refl s)

theorem Sound.child {s c : Schema} (sound : s.Sound) (below : c ∈ s.children) : c.Sound :=
  fun node inside => sound node (.child below inside)

theorem sound_iff {s : Schema} : s.Sound ↔ s.Tidy ∧ ∀ c ∈ s.children, c.Sound :=
  forall_within_iff

section Fields
open Json (optionalField listField)
open Schema.Field

variable {settled : Bool} {α : Type} {name : String}

def ReadsTo (settled : Bool) (written : String × Json) (field : Field) : Prop :=
  field? settled written.1 (.ofJson written.2) = some field

theorem readsTo_optional {write : α → Json} {make : Option α → Field} (value : Option α)
    (back : ∀ v, value = some v → ReadsTo settled (name, write v) (make (some v))) :
    List.Forall₂ (ReadsTo settled) (optionalField name write value) (ofOption make value) := by
  cases value with
  | none => exact .nil
  | some v => exact .cons (back v rfl) .nil

theorem readsTo_list {β : Type} {write : List β → Json} {written : List β}
    {make : List α → Field} {value : List α} (empty : written.isEmpty = value.isEmpty)
    (back : ReadsTo settled (name, write written) (make value)) :
    List.Forall₂ (ReadsTo settled) (listField name write written) (ofList make value) := by
  unfold listField ofList
  rw [empty]
  split
  · exact .nil
  · exact .cons back .nil

theorem fields?_ofJsonFields {written : List (String × Json)} {fields : List Field} :
    fields? settled (Node.ofJsonFields written) = some fields ↔
      List.Forall₂ (ReadsTo settled) written fields := by
  rw [fields?_eq_mapM, Node.ofJsonFields_eq_map, List.mapM_eq_some, List.forall₂_map_left_iff]
  have same (f : String × Json) :
      entryField? settled (.leaf (.ofScalar (.string f.1)), .ofJson f.2) =
        field? settled f.1 (.ofJson f.2) := by
    rw [entryField?, Node.key?_ofString]
    rfl
  simp only [same]
  rfl

theorem items?_toJson (settled : Bool) (s : Schema) :
    items? settled (.ofJson s.toJson) = some <$> ofNode? settled (.ofJson s.toJson) := by
  rw [toJson_eq]
  rfl

theorem additional?_toJson (settled : Bool) (s : Schema) :
    additional? settled (.ofJson s.toJson) =
      (fun values => some (.schema values)) <$> ofNode? true (.ofJson s.toJson) := by
  have readable := Node.json?_ofJson s.toJson
  rw [toJson_eq, Node.ofJson] at *
  unfold additional? ofNode?
  rw [readable]
  cases fields? true (Node.ofJsonFields (fieldsJson s)) with
  | none => rfl
  | some fields => cases read : ofFields? fields <;> simp [read]

theorem readsTo_text (settled : Bool) (v : String) :
    ReadsTo settled ("$ref", .text v) (.ref (some v)) ∧
      ReadsTo settled ("format", .text v) (.format (some v)) ∧
      ReadsTo settled ("description", .text v) (.description (some v)) := by
  cases settled <;> exact ⟨rfl, rfl, rfl⟩

theorem readsTo_flag (settled : Bool) (b : Bool) :
    ReadsTo settled ("nullable", .scalar (.bool b)) (.nullable (some b)) ∧
      ReadsTo settled ("x-nullable", .scalar (.bool b)) (.xNullable (some b)) := by
  cases settled <;> exact ⟨rfl, rfl⟩

theorem readsTo_type (settled : Bool) (t : SchemaType) :
    ReadsTo settled ("type", t.toJson) (.type (some t)) := by
  have present : t.toJson ≠ .scalar .null := by cases t <;> intro none <;> cases none
  show Field.type <$> (Node.ofJson t.toJson).optional settled (fun n => n.json? >>= _) = _
  rw [Node.optional_ofJson present, Node.json?_ofJson]
  simp only [Option.bind_eq_bind, Option.bind_some, SchemaType.ofJson?_toJson]
  rfl

theorem readsTo_discriminator (settled : Bool) {d : Discriminator} (distinct : d.Distinct) :
    ReadsTo settled ("discriminator", d.toJson) (.discriminator (some d)) := by
  have present : d.toJson ≠ .scalar .null := by cases d <;> intro none <;> cases none
  show Field.discriminator <$>
    (Node.ofJson d.toJson).optional settled (fun n => n.json? >>= _) = _
  rw [Node.optional_ofJson present, Node.json?_ofJson]
  simp only [Option.bind_eq_bind, Option.bind_some, Discriminator.ofJson?_toJson distinct]
  rfl

theorem readsTo_enum (settled : Bool) {values : List Scalar}
    (listed : ∀ v ∈ values, v.enumValue = v) :
    ReadsTo settled ("enum", .array (values.map .scalar)) (.enum (some values)) := by
  have read : enum? (.ofJson (.array (values.map .scalar))) = some values := by
    rw [Node.ofJson, Node.ofJsonItems_eq_map, List.map_map]
    unfold enum?
    dsimp only
    rw [List.mapM_map_eq_some values]
    intro v inside
    exact congrArg some (listed v inside)
  show Field.enum <$> (Node.ofJson (.array (values.map .scalar))).optional settled enum? = _
  rw [Node.optional_ofJson (fun none => by cases none), read]
  rfl

theorem readsTo_required (settled : Bool) (names : List String) :
    ReadsTo settled ("required", .texts names) (.required names) := by
  have read : (Node.ofJson (.texts names)).texts? settled = some names := by
    rw [Json.texts, Node.ofJson, Node.ofJsonItems_eq_map, List.map_map]
    unfold Node.texts?
    dsimp only
    rw [List.mapM_map_eq_some names]
    intro name _
    exact Node.key?_ofString settled name
  show Field.required <$> (Node.ofJson (.texts names)).texts? settled = _
  rw [read]
  rfl

theorem readsTo_extra (settled : Bool) {e : String × Json} (unknown : e.1 ∉ keywordNames)
    (same : e.2.settled = e.2) : ReadsTo settled e (.extra e.1 e.2) := by
  rw [ReadsTo, field?_of_extra unknown, Node.json?_ofJson]
  exact congrArg (fun j => some (Field.extra e.1 j)) same

theorem namedSchemas?_toJson {ps : List (String × Schema)}
    (below : ∀ p ∈ ps, ofNode? settled (.ofJson p.2.toJson) = some p.2) :
    (Node.ofJsonFields (ps.map fun p => (p.1, p.2.toJson))).mapM (namedSchema? settled) =
      some ps := by
  rw [Node.ofJsonFields_eq_map, List.map_map, List.mapM_map_eq_some ps]
  intro p inside
  unfold namedSchema?
  dsimp only [Function.comp_apply]
  rw [Node.key?_ofString, below p inside]
  rfl

theorem readsTo_properties {properties : List (String × Schema)}
    (distinct : (properties.map (·.1)).Nodup)
    (below : ∀ p ∈ properties, ofNode? settled (.ofJson p.2.toJson) = some p.2) :
    ReadsTo settled ("properties", .object (properties.map fun p => (p.1, p.2.toJson)))
      (.properties properties) := by
  show Field.properties <$> lastWins <$> entries? settled (Node.ofJsonFields _) = _
  rw [entries?_eq_mapM, namedSchemas?_toJson below]
  exact congrArg (fun kept => some (Field.properties kept)) (lastWins_of_nodup distinct)

theorem schemas?_toJson {members : List Schema}
    (below : ∀ c ∈ members, ofNode? settled (.ofJson c.toJson) = some c) :
    members? settled (.ofJson (.array (members.map toJson))) = some members := by
  rw [Node.ofJson, Node.ofJsonItems_eq_map, List.map_map]
  unfold members?
  rw [schemas?_eq_mapM, List.mapM_map_eq_some members]
  exact below

theorem readsTo_members {members : List Schema}
    (below : ∀ c ∈ members, ofNode? settled (.ofJson c.toJson) = some c) :
    ReadsTo settled ("allOf", .array (members.map toJson)) (.allOf members) ∧
      ReadsTo settled ("anyOf", .array (members.map toJson)) (.anyOf members) ∧
      ReadsTo settled ("oneOf", .array (members.map toJson)) (.oneOf members) := by
  have read := schemas?_toJson below
  exact ⟨congrArg (Option.map Field.allOf) read, congrArg (Option.map Field.anyOf) read,
    congrArg (Option.map Field.oneOf) read⟩

theorem readsTo_items {c : Schema} (below : ofNode? settled (.ofJson c.toJson) = some c) :
    ReadsTo settled ("items", c.toJson) (.items (some c)) := by
  show Field.items <$> items? settled (.ofJson c.toJson) = _
  rw [items?_toJson, below]
  rfl

theorem readsTo_additional {a : Additional Schema}
    (below : ∀ c, a = .schema c → ofNode? true (.ofJson c.toJson) = some c) :
    ReadsTo settled ("additionalProperties", additionalValue a) (.additional (some a)) := by
  show Field.additional <$> additional? settled (.ofJson (additionalValue a)) = _
  cases a with
  | any allowed => cases settled <;> cases allowed <;> rfl
  | schema c =>
    rw [additionalValue, additional?_toJson, below c rfl]
    rfl

/-- Every field of a tidy schema is read back, if the schemas below it are. -/
theorem readsTo_fields {s : Schema} (tidy : s.Tidy) (settled : Bool)
    (below : ∀ c ∈ s.children, ∀ settled, ofNode? settled (.ofJson c.toJson) = some c) :
    List.Forall₂ (ReadsTo settled) (fieldsJson s) (fields s) := by
  unfold fieldsJson fields
  -- One goal for each keyword, in the order of writing, and the last for the further keywords.
  repeat' refine List.rel_append ?_ ?_
  · exact readsTo_optional _ fun v _ => (readsTo_text settled v).1
  · exact readsTo_optional _ fun t _ => readsTo_type settled t
  · exact readsTo_optional _ fun v _ => (readsTo_text settled v).2.1
  · exact readsTo_optional _ fun v _ => (readsTo_text settled v).2.2
  · refine readsTo_list List.isEmpty_map (readsTo_properties tidy.properties ?_)
    intro p inside
    exact below _ (properties_subset_children s (List.mem_map_of_mem inside)) settled
  · exact readsTo_list rfl (readsTo_required settled _)
  · refine readsTo_optional _ fun c items => readsTo_items (below c ?_ settled)
    exact mem_children.mpr (.inr (.inl items))
  · refine readsTo_optional _ fun a additional => readsTo_additional fun c same => below c ?_ true
    refine mem_children.mpr (.inr (.inr (.inl ?_)))
    rw [valueSchema, additional, same]
  · refine readsTo_list List.isEmpty_map (readsTo_members fun c inside => ?_).1
    exact below c (allOf_subset_children s inside) settled
  · refine readsTo_list List.isEmpty_map (readsTo_members fun c inside => ?_).2.1
    exact below c (anyOf_subset_children s inside) settled
  · refine readsTo_list List.isEmpty_map (readsTo_members fun c inside => ?_).2.2
    exact below c (oneOf_subset_children s inside) settled
  · refine readsTo_optional _ fun values listed => readsTo_enum settled fun v inside => ?_
    refine tidy.enum v ?_
    rw [enumValues, listed]
    exact inside
  · exact readsTo_optional _ fun b _ => (readsTo_flag settled b).1
  · exact readsTo_optional _ fun b _ => (readsTo_flag settled b).2
  · exact readsTo_optional _ fun d some => readsTo_discriminator settled (tidy.discriminator d some)
  · rw [List.forall₂_map_right_iff]
    refine List.forall₂_same.mpr fun e inside => ?_
    exact readsTo_extra settled (tidy.extraUnknown e inside) (tidy.extraSettled e inside)

theorem ofNode?_toJson {s : Schema} (sound : s.Sound) (settled : Bool) :
    ofNode? settled (.ofJson s.toJson) = some s := by
  have below : ∀ c ∈ s.children, ∀ settled, ofNode? settled (.ofJson c.toJson) = some c :=
    fun c member settled => ofNode?_toJson (sound.child member) settled
  have read := fields?_ofJsonFields.mpr (readsTo_fields sound.tidy settled below)
  rw [toJson_eq, Node.ofJson]
  unfold ofNode?
  rw [read, Option.bind_eq_bind, Option.bind_some, ofFields?_fields sound.tidy.extraNames]
termination_by sizeOf s
decreasing_by exact sizeOf_child_lt member

def Holds (s : Schema) (v : Scalar) : Prop :=
  v ∈ s.enumValues ∨ ∃ e ∈ s.keywords.extra, v ∈ e.2.scalars

theorem forall_optionalField {Q : String × Json → Prop} {write : α → Json} {value : Option α} :
    (∀ f ∈ optionalField name write value, Q f) ↔ ∀ v, value = some v → Q (name, write v) := by
  cases value <;> simp [optionalField]

theorem forall_listField {Q : String × Json → Prop} {write : List α → Json} {value : List α}
    (whole : Q (name, write value)) : ∀ f ∈ listField name write value, Q f := by
  intro f member
  unfold listField at member
  split at member
  · cases member
  · exact List.mem_singleton.mp member ▸ whole

section Scalars

variable {P : Scalar → Prop}

theorem forall_scalars_texts (text : ∀ t, P (.string t)) (names : List String) :
    ∀ v ∈ (Json.texts names).scalars, P v := by
  rw [Json.texts, Json.forall_scalars_array, List.forall_mem_map]
  intro name _ v member
  exact List.mem_singleton.mp member ▸ text name

theorem forall_scalars_type (text : ∀ t, P (.string t)) (t : SchemaType) :
    ∀ v ∈ t.toJson.scalars, P v := by
  cases t with
  | single name => exact fun v member => List.mem_singleton.mp member ▸ text name
  | multiple names => exact forall_scalars_texts text names

theorem forall_scalars_discriminator (text : ∀ t, P (.string t)) (d : Discriminator) :
    ∀ v ∈ d.toJson.scalars, P v := by
  have single (t : String) : ∀ v ∈ (Json.text t).scalars, P v :=
    fun v member => List.mem_singleton.mp member ▸ text t
  cases d with
  | property name => exact single name
  | object name mapping =>
    rw [Discriminator.toJson, Json.forall_scalars_object, List.forall_mem_cons,
      forall_optionalField]
    refine ⟨single name, fun m _ => ?_⟩
    rw [Json.forall_scalars_object, List.forall_mem_map]
    exact fun e _ => single e.2

theorem forall_scalars_toJson (text : ∀ t, P (.string t)) (flag : ∀ b, P (.bool b)) {s : Schema}
    (held : ∀ node, Within node s → ∀ v, node.Holds v → P v) : ∀ v ∈ s.toJson.scalars, P v := by
  have below : ∀ c ∈ s.children, ∀ v ∈ c.toJson.scalars, P v := fun c member =>
    forall_scalars_toJson text flag fun node inside => held node (.child member inside)
  have here := held s (.refl s)
  have single {v : Scalar} (known : P v) : ∀ u ∈ (Json.scalar v).scalars, P u :=
    fun u member => List.mem_singleton.mp member ▸ known
  have members {cs : List Schema} (inside : cs ⊆ s.children) :
      ∀ v ∈ (Json.array (cs.map toJson)).scalars, P v := by
    rw [Json.forall_scalars_array, List.forall_mem_map]
    exact fun c member => below c (inside member)
  rw [toJson_eq, Json.forall_scalars_object]
  unfold fieldsJson
  simp only [List.forall_mem_append, forall_optionalField, and_assoc]
  refine ⟨fun t _ => single (text t), fun t _ => forall_scalars_type text t,
    fun t _ => single (text t), fun t _ => single (text t), forall_listField ?properties,
    forall_listField (forall_scalars_texts text _), fun c items => below c ?items,
    fun a additional => ?additional, forall_listField (members (allOf_subset_children s)),
    forall_listField (members (anyOf_subset_children s)),
    forall_listField (members (oneOf_subset_children s)), fun values listed => ?enum,
    fun b _ => single (flag b), fun b _ => single (flag b),
    fun d _ => forall_scalars_discriminator text d, fun e inside v member => ?extra⟩
  case properties =>
    rw [Json.forall_scalars_object, List.forall_mem_map]
    exact fun p member =>
      below p.2 (properties_subset_children s (List.mem_map_of_mem member))
  case items => exact mem_children.mpr (.inr (.inl items))
  case additional =>
    cases a with
    | any allowed => exact single (flag allowed)
    | schema c =>
      refine below c (mem_children.mpr (.inr (.inr (.inl ?_))))
      rw [valueSchema, additional]
  case enum =>
    rw [Json.forall_scalars_array, List.forall_mem_map]
    refine fun v member => single (here v (.inl ?_))
    rw [enumValues, listed]
    exact member
  case extra => exact here v (.inr ⟨e, inside, member⟩)
termination_by sizeOf s
decreasing_by exact sizeOf_child_lt member

theorem Sound.readsBack {s : Schema} (sound : s.Sound)
    (doubles : ∀ node, Within node s → ∀ x, node.Holds (.double x) → x.ReadsBack) :
    ∀ v ∈ s.toJson.scalars, v.ReadsBack := by
  refine forall_scalars_toJson (fun _ => trivial) (fun _ => trivial) ?_
  intro node inside v held
  have tidy := sound node inside
  cases v with
  | null => trivial
  | bool b => trivial
  | string t => trivial
  | double x => exact doubles node inside x held
  | int n =>
    rcases held with listed | ⟨e, extra, member⟩
    · exact fitsEither_of_enumValue (tidy.enum _ listed)
    · exact tidy.extraFits e extra n member

end Scalars
end Fields
end Schema
end SchemaSplit
