import SchemaSplit.Proofs.Closure
import SchemaSplit.Proofs.TypeScript.Values

/-!
Types keep the meaning of schemas: what a schema accepts, its type admits. Only an interface may lose
a value, and only `null`: its schema accepts that if it is made of nothing but references that do.
-/

namespace SchemaSplit

namespace Schema

/-- What a node keeps to for its type to have all its values: no files, no tags of unions, and entries
    only where it says that it is for objects. -/
structure Translatable (s : Schema) : Prop where
  format : s.keywords.format ≠ some "binary"
  type : "file" ∉ s.typeNames
  discriminator : s.keywords.discriminator = none
  /-- A schema for further entries would be the type of declared ones too. -/
  further : s.properties = [] ∨ s.valueSchema.isNone
  entries : s.properties ≠ [] ∨ s.additional.isSome → s.typeNames ⊆ ["object"]
  members : ∀ m ∈ s.allOf, m.ref = none → m.properties ≠ [] ∨ m.type.isSome
  /-- A reference lists no values of its own. -/
  reference : s.ref.isSome → s.enumValues = []

end Schema

instance (s : Schema) : Decidable s.Translatable :=
  decidable_of_iff
    (s.keywords.format ≠ some "binary" ∧ "file" ∉ s.typeNames ∧
      s.keywords.discriminator = none ∧ (s.properties = [] ∨ s.valueSchema.isNone) ∧
      (s.properties ≠ [] ∨ s.additional.isSome → s.typeNames ⊆ ["object"]) ∧
      (∀ m ∈ s.allOf, m.ref = none → m.properties ≠ [] ∨ m.type.isSome) ∧
      (s.ref.isSome → s.enumValues = []))
    ⟨fun ⟨a, b, c, e, f, g, h⟩ => ⟨a, b, c, e, f, g, h⟩,
      fun ⟨a, b, c, e, f, g, h⟩ => ⟨a, b, c, e, f, g, h⟩⟩

def IsolatedDocument.HasNode (d : IsolatedDocument) (node : Schema) : Prop :=
  ∃ e ∈ d.definitions, node.Within e.2

theorem IsolatedDocument.HasNode.child {d : IsolatedDocument} {node child : Schema}
    (inside : d.HasNode node) (below : child ∈ node.children) : d.HasNode child := by
  obtain ⟨e, defined, within⟩ := inside
  exact ⟨e, defined, .trans (.child below (.refl child)) within⟩

structure IsolatedDocument.Translatable (d : IsolatedDocument) : Prop where
  nodes : ∀ node, d.HasNode node → node.Translatable
  constants : ∀ e ∈ d.definitions, e.2.isNullable → e.2.enumValues = []

def IsolatedDocument.HasInterface (d : IsolatedDocument) (e : String × Schema) : Prop :=
  (TypeScript.shape? (.ofDocument d) .interfaceType [e.1] e.2).isSome

def IsolatedDocument.NoNullInterface (d : IsolatedDocument) : Prop :=
  ∀ e ∈ d.definitions, d.HasInterface e → ¬ e.2.Accepts (.ofDocument d) (.scalar .null)

namespace TypeScript

/-- The settings for types of JSON values: no classes, nothing undefined, and dates as texts. -/
structure Settings.ForJson (settings : Settings) : Prop where
  typeStyle : settings.typeStyle = .interfaceType
  nullValue : settings.nullValue = .null
  dateTimeType : settings.dateTimeType = .string

variable {c : Context} {m : Module} {s : Schema} {v : Json} {t : TypeExpr}

theorem Context.stringType_eq {format : Option String} (json : c.settings.ForJson)
    (noFile : format ≠ some "binary") : c.stringType format = .primitive .string := by
  unfold stringType
  split
  · rw [json.dateTimeType]
  · rw [json.dateTimeType]
  · exact absurd rfl noFile
  · rfl

theorem Context.nullType_eq (json : c.settings.ForJson) :
    c.nullType = .primitive .null := by
  rw [nullType, nullPrimitive, json.nullValue]

theorem admits_admitNull (json : c.settings.ForJson) {isNullable : Bool} :
    m.Admits (c.admitNull isNullable t) v ↔ m.Admits t v ∨ isNullable ∧ v = .scalar .null := by
  cases isNullable with
  | false => simp [Context.admitNull]
  | true =>
    rw [Context.admitNull, if_pos rfl, Module.admits_orPrimitive, Context.nullPrimitive,
      json.nullValue, Module.admits_null, eq_self, true_and]

theorem isObject_of_entries (translatable : s.Translatable) (allowed : s.Allows v)
    (notNull : s.isNullable → v ≠ .scalar .null)
    (entries : s.properties ≠ [] ∨ s.additional.isSome) : v.isObject := by
  by_cases untyped : s.type = none
  · have type := allowed.type
    rw [Schema.AllowsType, untyped] at type
    exact type entries
  · obtain ⟨name, named, ofType⟩ := allowed.exists_type untyped notNull
    rw [List.mem_singleton.mp (translatable.entries entries named)] at ofType
    exact ofType

theorem PlainObject.isObject (plain : PlainObject s) (allowed : s.Allows v)
    (kind : s.properties ≠ [] ∨ s.type.isSome) : v.isObject := by
  have type := allowed.type
  rw [Schema.AllowsType] at type
  rcases plain.type with untyped | object
  · rw [untyped] at type
    refine type (.inl (kind.resolve_right ?_))
    rw [untyped]
    exact Bool.false_ne_true
  · rw [object] at type
    exact type

theorem branchesOf_none (c : Context) (ss : List Schema) : branchesOf c none ss = typesOf c ss := by
  have untagged : branchOf c none = typeOf c := by
    funext s
    rw [branchOf, Option.bind_none]
    exact bind_pure _
  rw [branchesOf_eq_mapM, typesOf_eq_mapM, untagged]

theorem admits_union_of_mapM {f : Schema → Except ReferenceFault TypeExpr} {ss : List Schema}
    {ts : List TypeExpr} (made : ss.mapM f = .ok ts)
    (some : ∃ branch ∈ ss, ∀ t, f branch = .ok t → m.Admits t v) : m.Admits (.union ts) v := by
  obtain ⟨branch, inside, admitted⟩ := some
  obtain ⟨t, member, typed⟩ := (List.mapM_eq_ok.mp made).exists_right inside
  exact .union member (admitted t typed)

section Node

-- The types of all nodes that are asked admit what they are asked about: the induction step, one lemma
-- for each way in which the type of a node is put together.
variable (below : ∀ child x, s.Asks v child x → ∀ t, typeOf c child = .ok t → m.Admits t x)
  (allowed : s.Allows v) (translatable : s.Translatable)
include below

include allowed in
theorem admits_membersOf {members : List (Member TypeExpr)} (isObject : v.isObject)
    (made : membersOf c s.required s.properties = .ok members) : m.Admits (.object members) v := by
  rw [membersOf_eq_mapM, List.mapM_eq_ok] at made
  have property : ∀ member ∈ members, ∃ p ∈ s.properties, typeOf c p.2 = .ok member.type ∧
      member.name = p.1 ∧ member.isOptional = !s.required.contains p.1 := by
    intro member inside
    obtain ⟨p, declared, made⟩ := made.exists_left inside
    rw [memberOf, Except.bind_eq_ok] at made
    obtain ⟨type, typed, result⟩ := made
    cases result
    exact ⟨p, declared, typed, rfl, rfl⟩
  obtain ⟨fields, rfl⟩ := Json.isObject_iff.mp isObject
  refine .object ?_ ?_
  · intro member inside notOptional
    obtain ⟨p, declared, -, named, optional⟩ := property member inside
    rw [notOptional, eq_comm, Bool.not_eq_false', List.contains_eq_mem, decide_eq_true_eq] at optional
    exact named ▸ allowed.required fields rfl optional
  · intro member inside x field
    obtain ⟨p, declared, typed, named, -⟩ := property member inside
    exact below p.2 x (.property declared (named ▸ field)) member.type typed

include translatable in
theorem admits_recordTypeOf {record : TypeExpr} (isObject : v.isObject)
    (made : recordTypeOf c s.additional = .ok (some record)) : m.Admits record v := by
  rcases further : s.additional with _ | ((_ | _) | values) <;> rw [further] at made
  · cases made
  · cases made
  · cases made
    exact Module.admits_unknownRecord isObject
  · rw [recordTypeOf, Except.bind_eq_ok] at made
    obtain ⟨type, typed, result⟩ := made
    cases result
    obtain ⟨fields, rfl⟩ := Json.isObject_iff.mp isObject
    have each : s.valueSchema = some values := by simp [Schema.valueSchema, further]
    have undeclared : s.properties = [] :=
      translatable.further.resolve_right (by simp [each])
    refine .record (fun f _ => .string f.1) fun f field => ?_
    exact below values f.2 (.further each field (by simp [undeclared])) type typed

include allowed translatable

theorem admits_objectTypeOf (isObject : v.isObject) (made : objectTypeOf c s = .ok t) :
    m.Admits t v := by
  rw [objectTypeOf, Except.bind_eq_ok] at made
  obtain ⟨record, further, made⟩ := made
  have admitted : ∀ u, record = some u → m.Admits u v := by
    rintro u rfl
    exact admits_recordTypeOf below translatable isObject further
  split at made
  · cases made
    cases record with
    | none => exact Module.admits_unknownRecord isObject
    | some u => exact admitted u rfl
  · rw [Except.bind_eq_ok] at made
    obtain ⟨members, made, result⟩ := made
    have object := admits_membersOf below allowed isObject made
    cases result
    cases record with
    | none => exact object
    | some u =>
      apply Module.Admits.intersection
      intro w member
      rcases List.mem_pair.mp member with rfl | rfl
      · exact object
      · exact admitted w rfl

variable (json : c.settings.ForJson)
include json

theorem admits_statedTypeOf {name : String} (named : name ∈ s.typeNames) (ofType : v.HasType name)
    (made : statedTypeOf c s name = .ok t) : m.Admits t v := by
  unfold statedTypeOf at made
  split at made
  · cases made
    obtain ⟨text, rfl⟩ := ofType
    rw [Context.stringType_eq json translatable.format]
    exact .string text
  · cases made
    obtain ⟨x, q, rfl, value⟩ := ofType
    exact .number value
  · cases made
    obtain ⟨x, q, rfl, value, -⟩ := ofType
    exact .number value
  · cases made
    obtain ⟨b, rfl⟩ := ofType
    exact .boolean b
  · cases made
    obtain rfl := ofType
    rw [Context.nullType_eq json]
    exact .null
  · exact absurd named translatable.type
  · rw [Except.bind_eq_ok] at made
    obtain ⟨element, typed, result⟩ := made
    cases result
    obtain ⟨values, rfl⟩ := ofType
    refine .array fun x inside => ?_
    cases each : s.items with
    | none =>
      rw [each] at typed
      cases typed
      exact .unknown x
    | some items =>
      rw [each] at typed
      exact below items x (.item each inside) element typed
  · exact admits_objectTypeOf below allowed translatable ofType made
  · cases made
    exact .unknown v

variable (notNull : s.isNullable → v ≠ .scalar .null)
include notNull

theorem admits_plainTypeOf (made : plainTypeOf c s = .ok t) : m.Admits t v := by
  have type := allowed.type
  rw [Schema.AllowsType] at type
  unfold plainTypeOf at made
  split at made
  · rename_i name single
    rw [single] at type
    have named : name ∈ s.typeNames := by simp [Schema.typeNames, single]
    exact admits_statedTypeOf below allowed translatable json named type made
  · rename_i names multiple
    obtain ⟨name, named, ofType⟩ := allowed.exists_type (multiple ▸ Option.some_ne_none _) notNull
    rw [Except.bind_eq_ok] at made
    obtain ⟨types, stated, result⟩ := made
    have among := named
    rw [Schema.typeNames, multiple] at among
    obtain ⟨u, member, typed⟩ := (List.mapM_eq_ok.mp stated).exists_right among
    have admitted : m.Admits u v :=
      admits_statedTypeOf below allowed translatable json named ofType typed
    split at result
    · cases member
    · cases result
      rwa [List.mem_singleton.mp member] at admitted
    · cases result
      exact .union member admitted
  · split at made
    · rename_i entries
      have isObject := isObject_of_entries translatable allowed notNull (by simpa using entries)
      exact admits_objectTypeOf below allowed translatable isObject made
    · cases made
      exact .unknown v

variable (anyOf : s.anyOf ≠ [] → ∃ branch ∈ s.anyOf, ∀ t, typeOf c branch = .ok t → m.Admits t v)
  (oneOf : s.oneOf ≠ [] → ∃ branch ∈ s.oneOf, ∀ t, typeOf c branch = .ok t → m.Admits t v)
include anyOf oneOf

theorem admits_bareTypeOf (inline : s.ref = none) (made : bareTypeOf c s = .ok t) :
    m.Admits t v := by
  rw [bareTypeOf, inline] at made
  dsimp only at made
  split at made
  · rw [Except.bind_eq_ok] at made
    obtain ⟨types, typed, result⟩ := made
    rw [typesOf_eq_mapM, List.mapM_eq_ok] at typed
    have each : ∀ u ∈ types, m.Admits u v := by
      intro u member
      obtain ⟨child, inside, typed⟩ := typed.exists_left member
      exact below child v (.member inside) u typed
    split at result
    · cases result
      exact Module.admits_intersectionOf each
    · rename_i properties
      rw [Except.bind_eq_ok] at result
      obtain ⟨object, typed, result⟩ := result
      cases result
      have isObject : v.isObject :=
        isObject_of_entries translatable allowed notNull (.inl (by simpa using properties))
      apply Module.admits_intersectionOf
      intro u member
      rcases List.mem_append.mp member with first | last
      · exact each u first
      · rw [List.mem_singleton.mp last]
        exact admits_objectTypeOf below allowed translatable isObject typed
  · split at made
    · rename_i some
      obtain ⟨types, typed, rfl⟩ := Except.map_eq_ok.mp made
      exact admits_union_of_mapM (typesOf_eq_mapM c s.anyOf ▸ typed) (anyOf (by simpa using some))
    · split at made
      · rename_i some
        obtain ⟨types, typed, rfl⟩ := Except.map_eq_ok.mp made
        rw [translatable.discriminator, branchesOf_none, typesOf_eq_mapM] at typed
        exact admits_union_of_mapM typed (oneOf (by simpa using some))
      · split at made
        · rename_i value values listing
          cases made
          have values : s.enumValues = value :: values := by rw [Schema.enumValues, listing]; rfl
          obtain ⟨listed, member, x, rfl, same⟩ :=
            allowed.enum (values ▸ List.cons_ne_nil _ _)
          exact .union (List.mem_map_of_mem (values ▸ member)) (.literal same)
        · exact admits_plainTypeOf below allowed translatable json notNull made

omit notNull in
theorem admits_typeOf (inline : s.ref = none) (made : typeOf c s = .ok t) : m.Admits t v := by
  rw [typeOf_eq, Except.map_eq_ok] at made
  obtain ⟨bare, made, rfl⟩ := made
  rw [admits_admitNull json]
  by_cases nullable : s.isNullable ∧ v = .scalar .null
  · exact .inr nullable
  · have notNull : s.isNullable → v ≠ .scalar .null := fun isNullable isNull =>
      nullable ⟨isNullable, isNull⟩
    exact .inl (admits_bareTypeOf below allowed translatable json notNull anyOf oneOf inline made)

end Node

section Module

variable {settings : Settings} {d : IsolatedDocument} {fileName : String}

theorem interface_of_shape {definition : String} {body : Body} (json : c.settings.ForJson)
    (made : bodyOf c definition s = .ok body) (noValues : s.enumValues = []) {shape : Shape}
    (shaped : shape? c.scope c.settings.typeStyle [definition] s = some shape) :
    ∃ bases members, body = .interfaceType bases members := by
  cases bodyOf_cases made with
  | constants values => exact absurd noValues values
  | aliasType _ shapeless =>
    rw [shaped] at shapeless
    cases shapeless
  | object =>
    rw [objectBody, json.typeStyle]
    exact ⟨_, _, rfl⟩

theorem body?_of_lookup (made : moduleOf settings d fileName = .ok m) {name identifier : String}
    (identified : (Context.ofDocument settings d).identifiers.lookup name = some identifier) :
    ∃ s body, d.definitions.lookup name = some s ∧ m.body? identifier = some body ∧
      bodyOf (.ofDocument settings d) name s = .ok body := by
  rw [← identifierOf?_eq made] at identified
  obtain ⟨s, declaration, looked, inside, rfl, madeBody, -⟩ :=
    declaration_of_identifier (declarations_of_moduleOf made).2 identified
  exact ⟨s, declaration.body, looked, Module.body?_of_mem (nodup_of_moduleOf made) inside, madeBody⟩

theorem bodyOf_of_values {definition : String} (values : s.enumValues ≠ []) :
    bodyOf c definition s =
      .ok (.constants (constantsOf s.enumValues (s.keywords.extra.lookup "x-enumNames"))) := by
  rw [bodyOf, if_pos (by simpa using values)]
  rfl

theorem admits_constants (translatable : d.Translatable) {definition identifier : String} {body : Body}
    (defined : (definition, s) ∈ d.definitions) (values : s.enumValues ≠ [])
    (declared : m.body? identifier = some body) (madeBody : bodyOf c definition s = .ok body)
    (accepted : s.Accepts (.ofDocument d) v) : m.Admits (.named identifier) v := by
  cases (bodyOf_of_values values).symm.trans madeBody
  cases accepted with
  | null nullable => exact absurd (translatable.constants _ defined nullable) values
  | reference refers =>
    have own := translatable.nodes s ⟨_, defined, .refl s⟩
    exact absurd (own.reference (refers ▸ rfl)) values
  | node _ _ allowed =>
    obtain ⟨listed, member, x, rfl, same⟩ := allowed.enum values
    exact Module.admits_constant declared member same

theorem typeOf_plainObject (plain : PlainObject s) (alone : s.allOf = [])
    (properties : s.properties ≠ []) :
    typeOf c s = TypeExpr.object <$> membersOf c s.required s.properties := by
  have closed : recordTypeOf c s.additional = .ok none := by
    rcases plain.additional with none | closed
    · rw [none]
      rfl
    · rw [closed]
      rfl
  have object : objectTypeOf c s = TypeExpr.object <$> membersOf c s.required s.properties := by
    rw [objectTypeOf, closed]
    obtain ⟨first, rest, split⟩ := List.exists_cons_of_ne_nil properties
    rw [split, map_eq_pure_bind]
    rfl
  have plainType : plainTypeOf c s = objectTypeOf c s := by
    rw [plainTypeOf]
    rcases plain.type with untyped | typed
    · rw [untyped]
      exact if_pos (by simp [properties])
    · rw [typed]
      rfl
  rw [typeOf_eq, plain.nullable, bareTypeOf, plain.ref, alone, plain.anyOf, plain.oneOf, plain.enum,
    plainType, object]
  exact id_map _

/-- Only objects are values of an interface, if `null` does not come in by a reference. -/
theorem isObject_of_accepts (translatable : d.Translatable) (accepted : s.Accepts (.ofDocument d) v)
    (notNull : ∀ e ∈ d.definitions, d.HasInterface e → ∀ node ∈ e.2.allOf, node.ref.isSome →
      node.isNullable → v ≠ .scalar .null) :
    (∀ name shape, (name, s) ∈ d.definitions →
      shape? (.ofDocument d) .interfaceType [name] s = some shape → v.isObject) ∧
    (∀ reference name target shape, s.ref = some reference → (s.isNullable → v ≠ .scalar .null) →
      (Scope.ofDocument d).target? reference = some (name, target) →
        shape? (.ofDocument d) .interfaceType [name] target = some shape → v.isObject) := by
  induction accepted with
  | null nullable =>
    constructor
    · intro name shape _ shaped
      rw [(plain_of_shape shaped).1.nullable] at nullable
      cases nullable
    · intro _ _ _ _ _ other
      exact absurd rfl (other nullable)
  | reference refers found accepted ih =>
    constructor
    · intro name shape _ shaped
      rw [(plain_of_shape shaped).1.ref] at refers
      cases refers
    · intro reference name target shape refers' _ found' shaped
      cases refers.symm.trans refers'
      cases found.symm.trans found'
      have defined := mem_of_lookup (Scope.target?_eq_some.mp found).2
      exact (ih notNull).1 _ shape defined shaped
  | @node s v _ inline allowed asked _ _ _ askedIh _ =>
    constructor
    · intro name shape defined shaped
      obtain ⟨plain, allOf | kind⟩ := plain_of_shape shaped
      · -- The first member has the value as well.
        obtain ⟨first, rest, split⟩ := List.exists_cons_of_ne_nil allOf
        have inside : first ∈ s.allOf := split ▸ List.mem_cons_self
        cases refers : first.ref with
        | none =>
          have plain := (plain_of_member shaped inside refers).1
          have allowed := ((asked first v (.member inside)).allowed refers plain.nullable).1
          have own := translatable.nodes s ⟨_, defined, .refl s⟩
          exact plain.isObject allowed (own.members first inside refers)
        | some reference =>
          have isBase : reference ∈ shape.bases :=
            (bases_of_shape shaped).1 ▸ List.mem_filterMap.mpr ⟨first, inside, refers⟩
          obtain ⟨name, target, base, found, -, shaped'⟩ := shape_of_base shaped isBase
          exact (askedIh first v (.member inside) notNull).2 reference name target base refers
            (notNull _ defined (Option.isSome_of_eq_some shaped) first inside (refers ▸ rfl))
            found shaped'
      · exact plain.isObject allowed kind
    · intro _ _ _ _ refers
      rw [inline] at refers
      cases refers

/-- No interface accepts `null` if no definition extends another one as one that may be `null`. -/
theorem noNullInterface_of_bases (translatable : d.Translatable)
    (bases : ∀ e ∈ d.definitions, d.HasInterface e → ∀ node ∈ e.2.allOf, node.ref.isSome →
      node.isNullable = false) : d.NoNullInterface := by
  intro e defined hasInterface accepted
  obtain ⟨shape, shaped⟩ := Option.isSome_iff_exists.mp hasInterface
  have isObject : (Json.scalar .null).isObject := by
    refine (isObject_of_accepts translatable accepted ?_).1 e.1 shape defined shaped
    intro e defined hasInterface node member refers nullable
    rw [bases e defined hasInterface node member refers] at nullable
    cases nullable
  cases isObject

section Interface

variable {definition : String} {shape : Shape}
  (shaped : shape? c.scope c.settings.typeStyle [definition] s = some shape)
  (allowed : s.Allows v) (isObject : v.isObject)
  (below : ∀ child x, s.Asks v child x → ∀ t, typeOf c child = .ok t → m.Admits t x)
include shaped allowed isObject below

/-- An interface admits an object that its definition accepts, since its members and those of its
    bases do. -/
theorem admits_interface (json : c.settings.ForJson) {bases : List String}
    (extended : List.Forall₂ (fun reference base => c.resolve reference = .ok base) shape.bases bases)
    {members : List (List (Member TypeExpr))}
    (made : List.Forall₂ (fun part ms => membersOf c part.required part.properties = .ok ms)
      shape.parts members) {identifier : String}
    (declared : m.body? identifier = some (.interfaceType bases members.flatten)) :
    m.Admits (.named identifier) v := by
  refine .interfaceType declared ?_ (Module.admits_object_flatten isObject ?_)
  · intro base member
    obtain ⟨reference, isBase, resolved⟩ := extended.exists_left member
    rw [(bases_of_shape shaped).1] at isBase
    obtain ⟨node, inside, refers⟩ := List.mem_filterMap.mp isBase
    have typed : typeOf c node = .ok (c.admitNull node.isNullable (.named base)) := by
      rw [typeOf_eq, bareTypeOf, refers]
      dsimp only
      rw [resolved]
      rfl
    have admitted := below node v (.member inside) _ typed
    rw [admits_admitNull json] at admitted
    refine admitted.resolve_right ?_
    rintro ⟨-, rfl⟩
    cases isObject
  · intro ms among
    obtain ⟨part, isPart, made⟩ := made.exists_left among
    rcases part_of_shape shaped isPart with rfl | ⟨inside, inline⟩
    · exact admits_membersOf below allowed isObject made
    · obtain ⟨plain, alone⟩ := plain_of_member shaped inside inline
      by_cases properties : part.properties = []
      · rw [properties] at made
        cases made
        obtain ⟨fields, rfl⟩ := Json.isObject_iff.mp isObject
        exact .object (List.forall_mem_nil _) (List.forall_mem_nil _)
      · refine below part v (.member inside) _ ?_
        rw [typeOf_plainObject plain alone properties, made]
        rfl

end Interface

/-- A module admits a value for a node: by its type where it lies in the document, and by what it is
    declared as where it is a definition. -/
structure AdmitsFor (settings : Settings) (d : IsolatedDocument) (m : Module) (s : Schema) (v : Json) :
    Prop where
  typed : d.HasNode s → ∀ t, typeOf (.ofDocument settings d) s = .ok t → m.Admits t v
  declared : ∀ definition identifier body, (definition, s) ∈ d.definitions →
    m.body? identifier = some body → bodyOf (.ofDocument settings d) definition s = .ok body →
      m.Admits (.named identifier) v

section Induction

variable (json : settings.ForJson) (translatable : d.Translatable) (lossless : d.NoNullInterface)
include json translatable lossless

/-- What a definition is declared as admits what the definition accepts, if its type does and the types
    of the nodes that it asks do. -/
theorem AdmitsFor.of_typed (accepted : s.Accepts (.ofDocument d) v)
    (typed : d.HasNode s → ∀ t, typeOf (.ofDocument settings d) s = .ok t → m.Admits t v)
    (below : s.ref = none → s.isNullable = false → d.HasNode s → ∀ child x, s.Asks v child x →
      ∀ t, typeOf (.ofDocument settings d) child = .ok t → m.Admits t x) :
    AdmitsFor settings d m s v := by
  refine ⟨typed, fun definition identifier body defined declared madeBody => ?_⟩
  have inside : d.HasNode s := ⟨_, defined, .refl s⟩
  by_cases noValues : s.enumValues = []
  · have style : (Context.ofDocument settings d).settings.typeStyle = .interfaceType := json.typeStyle
    cases bodyOf_cases madeBody with
    | constants values => exact absurd noValues values
    | aliasType _ _ made => exact .aliasType declared (typed inside _ made)
    | object _ shaped extended members =>
      have plain := (plain_of_shape shaped).1
      have isShaped := style ▸ shaped
      have notNull : v ≠ .scalar .null := by
        rintro rfl
        exact lossless _ defined (Option.isSome_of_eq_some isShaped) accepted
      have isObject := (isObject_of_accepts translatable accepted fun _ _ _ _ _ _ _ => notNull).1
        definition _ defined isShaped
      have allowed := (accepted.allowed plain.ref plain.nullable).1
      rw [objectBody, style] at declared
      exact admits_interface shaped allowed isObject (below plain.ref plain.nullable inside) json
        extended members declared
  · exact admits_constants translatable defined noValues declared madeBody accepted

/-- What a node accepts is admitted for it, by induction on how it comes to accept it. -/
theorem admitsFor_of_accepts (made : moduleOf settings d fileName = .ok m)
    (accepted : s.Accepts (.ofDocument d) v) : AdmitsFor settings d m s v := by
  induction accepted with
  | @null s nullable =>
    refine .of_typed json translatable lossless (.null nullable) ?_ ?_
    · intro _ t typed
      rw [typeOf_eq, Except.map_eq_ok] at typed
      obtain ⟨bare, -, rfl⟩ := typed
      exact (admits_admitNull json).mpr (.inr ⟨nullable, rfl⟩)
    · intro _ notNullable
      rw [nullable] at notNullable
      cases notNullable
  | @reference s target v reference name refers found accepted ih =>
    refine .of_typed json translatable lossless (.reference refers found accepted) ?_ ?_
    · intro _ t typed
      rw [typeOf_eq, Except.map_eq_ok] at typed
      obtain ⟨bare, typed, rfl⟩ := typed
      rw [bareTypeOf.eq_def, refers] at typed
      obtain ⟨identifier, resolved, rfl⟩ := Except.map_eq_ok.mp typed
      obtain ⟨name', named', identified⟩ := Context.resolve_eq_ok.mp resolved
      obtain ⟨named, looked⟩ := Scope.target?_eq_some.mp found
      cases named.symm.trans named'
      obtain ⟨target', body, looked', declared, madeBody⟩ := body?_of_lookup made identified
      cases looked.symm.trans looked'
      have defined : (name, target) ∈ d.definitions := mem_of_lookup looked
      exact (admits_admitNull json).mpr (.inl (ih.declared name _ body defined declared madeBody))
    · intro inline
      rw [refers] at inline
      cases inline
  | @node s v branches inline allowed asked anyOf oneOf chosen askedIh chosenIh =>
    have below : d.HasNode s → ∀ child x, s.Asks v child x →
        ∀ t, typeOf (.ofDocument settings d) child = .ok t → m.Admits t x := by
      intro inside child x asks
      exact (askedIh child x asks).typed (inside.child asks.child_mem)
    have branch : d.HasNode s → ∀ branch ∈ s.children, branch ∈ branches →
        ∀ t, typeOf (.ofDocument settings d) branch = .ok t → m.Admits t v :=
      fun inside branch member isChosen => (chosenIh branch isChosen).typed (inside.child member)
    refine .of_typed json translatable lossless (.node branches inline allowed asked anyOf oneOf chosen) ?_ fun _ _ => below
    intro inside t typed
    refine admits_typeOf (below inside) allowed (translatable.nodes s inside) json ?_ ?_ inline typed
    · intro some
      obtain ⟨b, member, isChosen⟩ := anyOf some
      exact ⟨b, member, branch inside b (s.anyOf_subset_children member) isChosen⟩
    · intro some
      obtain ⟨b, member, isChosen⟩ := oneOf some
      exact ⟨b, member, branch inside b (s.oneOf_subset_children member) isChosen⟩

end Induction

end Module
end TypeScript

namespace Generator

open TypeScript

/-- A text of interfaces comes from a module that admits every value that the document accepts, exactly
    if no definition that is declared as an interface accepts `null`. For that it is enough that no
    such definition extends another one as one that may be `null`. -/
theorem typeScript_admits_iff {settings : Settings} (json : settings.ForJson) {d : IsolatedDocument}
    (translatable : d.Translatable) {fileName text : String}
    (made : (typeScript settings).generate d fileName = .ok text) :
    ∃ m, moduleOf settings d fileName = .ok m ∧ text = Piece.render m.pieces ∧
      (List.Forall₂ (fun e declaration => ∀ v, e.2.Accepts (.ofDocument d) v →
          m.Admits (.named declaration.name) v) d.definitions m.declarations ↔ d.NoNullInterface) ∧
      ((∀ e ∈ d.definitions, d.HasInterface e → ∀ node ∈ e.2.allOf, node.ref.isSome →
          node.isNullable = false) → d.NoNullInterface) := by
  obtain ⟨m, converted, written⟩ := Except.map_eq_ok.mp made
  have aligned := (declarations_of_moduleOf converted).2
  have lengths := aligned.length_eq
  have bodies {e declaration} (pair : (e, declaration) ∈ d.definitions.zip m.declarations) :
      m.body? declaration.name = some declaration.body ∧
        bodyOf (.ofDocument settings d) e.1 e.2 = .ok declaration.body :=
    ⟨Module.body?_of_mem (nodup_of_moduleOf converted) (List.of_mem_zip pair).2,
      ((List.forall₂_iff_zip.mp aligned).2 pair).1⟩
  refine ⟨m, converted, written ▸ m.render_pieces.symm, ⟨?_, ?_⟩,
    noNullInterface_of_bases translatable⟩
  · intro admitted e defined hasInterface accepted
    obtain ⟨shape, shaped⟩ := Option.isSome_iff_exists.mp hasInterface
    obtain ⟨declaration, -, pair⟩ :
        ∃ b ∈ m.declarations, (e, b) ∈ d.definitions.zip m.declarations :=
      (List.forall₂_iff_zip.mpr ⟨lengths, id⟩).exists_right defined
    obtain ⟨declared, madeBody⟩ := bodies pair
    have noValues : e.2.enumValues = [] := by
      rw [Schema.enumValues, (plain_of_shape shaped).1.enum]
      rfl
    obtain ⟨bases, members, same⟩ :=
      interface_of_shape json madeBody noValues (json.typeStyle ▸ shaped)
    have isObject : (Json.scalar .null).isObject :=
      ((List.forall₂_iff_zip.mp admitted).2 pair _ accepted).isObject (same ▸ declared)
    cases isObject
  · intro lossless
    refine List.forall₂_iff_zip.mpr ⟨lengths, fun {e declaration} pair v accepted => ?_⟩
    obtain ⟨declared, madeBody⟩ := bodies pair
    exact (admitsFor_of_accepts json translatable lossless converted accepted).declared e.1 _ _
      (List.of_mem_zip pair).1 declared madeBody

/-- An interface that extends another one and adds a member of its own. -/
theorem typeScript_admits_iff_pet :
    let pet : Schema := {
      keywords := { type := some (.single "object"), required := ["id"] }
      properties := [("id", .ofType "integer")] }
    let part : Schema := { properties := [("name", .ofType "string")] }
    let dog : Schema := { allOf := [.reference "#/definitions/A.Pet", part] }
    let d : IsolatedDocument := ⟨"A", {}, .swagger2, "2.0", [("A.Pet", pet), ("A.Dog", dog)]⟩
    let settings : Settings := { dateTimeType := .string }
    ∃ m, moduleOf settings d "A" = .ok m ∧
      List.Forall₂ (fun e declaration => ∀ v, e.2.Accepts (.ofDocument d) v →
        m.Admits (.named declaration.name) v) d.definitions m.declarations := by
  intro pet part dog d settings
  have translatable : d.Translatable := by
    constructor
    · rintro node ⟨e, defined, within⟩
      revert node
      rcases List.mem_pair.mp defined with rfl | rfl
      · exact Schema.forall_within_iff.mpr ⟨by decide, List.forall_mem_singleton.mpr
          (Schema.forall_within_leaf rfl (by decide))⟩
      · refine Schema.forall_within_iff.mpr ⟨by decide, ?_⟩
        intro child below
        rcases List.mem_pair.mp below with rfl | rfl
        · exact Schema.forall_within_leaf rfl (by decide)
        · exact Schema.forall_within_iff.mpr ⟨by decide, List.forall_mem_singleton.mpr
            (Schema.forall_within_leaf rfl (by decide))⟩
    · decide
  obtain ⟨text, made⟩ := Except.isOk_iff.mp
    (by decide +kernel : ((typeScript settings).generate d "A").isOk)
  obtain ⟨m, converted, -, exactly, enough⟩ := typeScript_admits_iff ⟨rfl, rfl, rfl⟩ translatable made
  refine ⟨m, converted, exactly.mpr (enough ?_)⟩
  intro e defined _
  rcases List.mem_pair.mp defined with rfl | rfl
  · nofun
  · decide

/-- What extends nothing but a definition that may be `null` there accepts `null` itself, and its
    interface does not. -/
theorem typeScript_refuses_null :
    let base : Schema := .ofType "object"
    let maybe : Schema :=
      { allOf := [{ keywords := { ref := some "#/definitions/A.Base", xNullable := some true } }] }
    let d : IsolatedDocument := ⟨"A", {}, .swagger2, "2.0", [("A.Base", base), ("A.Maybe", maybe)]⟩
    let settings : Settings := { dateTimeType := .string }
    settings.ForJson ∧ d.Translatable ∧ ∃ m, moduleOf settings d "A" = .ok m ∧
      (Context.ofDocument settings d).identifiers.lookup "A.Maybe" = some "Maybe" ∧
      maybe.Accepts (.ofDocument d) (.scalar .null) ∧ ¬ m.Admits (.named "Maybe") (.scalar .null) := by
  intro base maybe d settings
  have json : settings.ForJson := ⟨rfl, rfl, rfl⟩
  have translatable : d.Translatable := by
    constructor
    · rintro node ⟨e, defined, within⟩
      revert node
      rcases List.mem_pair.mp defined with rfl | rfl
      · exact Schema.forall_within_leaf rfl (by decide)
      · exact Schema.forall_within_iff.mpr ⟨by decide, List.forall_mem_singleton.mpr
          (Schema.forall_within_leaf rfl (by decide))⟩
    · decide
  have identified : (Context.ofDocument settings d).identifiers.lookup "A.Maybe" = some "Maybe" := by
    decide +kernel
  have accepted : maybe.Accepts (.ofDocument d) (.scalar .null) := by
    have allowed : maybe.Allows (.scalar .null) := ⟨nofun, nofun, nofun, nofun⟩
    refine .node [] rfl allowed ?_ nofun nofun nofun
    intro child x asks
    cases asks with
    | member inside =>
      rw [List.mem_singleton.mp inside]
      exact .null rfl
  obtain ⟨m, made⟩ := Except.isOk_iff.mp (by decide +kernel : (moduleOf settings d "A").isOk)
  refine ⟨json, translatable, m, made, identified, accepted, ?_⟩
  intro admitted
  have hasInterface : d.HasInterface ("A.Maybe", maybe) := by
    rw [IsolatedDocument.HasInterface]
    decide +kernel
  obtain ⟨shape, shaped⟩ := Option.isSome_iff_exists.mp hasInterface
  obtain ⟨s, body, looked, declared, madeBody⟩ := body?_of_lookup made identified
  have known : d.definitions.lookup "A.Maybe" = some maybe := rfl
  cases known.symm.trans looked
  obtain ⟨bases, members, rfl⟩ := interface_of_shape json madeBody rfl shaped
  cases admitted.isObject declared

end Generator
end SchemaSplit
