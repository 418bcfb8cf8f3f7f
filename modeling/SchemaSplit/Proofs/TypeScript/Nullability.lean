import SchemaSplit.Proofs.TypeScript.Meaning
import SchemaSplit.Proofs.TypeScript.Placement

namespace SchemaSplit

namespace TypeScript

namespace TypeExpr

/-- A type is a null value: the primitive type of it, or the literal if it is `null`. -/
def IsNull (p : Primitive) (t : TypeExpr) : Prop :=
  t = primitive p ∨ p = .null ∧ t = literal .null

def HasNull (p : Primitive) (t : TypeExpr) : Prop :=
  t.IsNull p ∨ ∃ members, t = union members ∧ ∃ u ∈ members, u.IsNull p

theorem HasPrimitive.hasNull {p : Primitive} {t : TypeExpr} (has : t.HasPrimitive p) :
    t.HasNull p := by
  rcases has with rfl | ⟨members, rfl, inside⟩
  · exact .inl (.inl rfl)
  · exact .inr ⟨members, rfl, _, inside, .inl rfl⟩

theorem not_hasNull_named (p : Primitive) (name : String) : ¬ (named name).HasNull p := by
  rintro ((same | ⟨-, same⟩) | ⟨members, same, -⟩) <;> cases same

end TypeExpr

/-- What a definition is declared as has the null value. Interfaces and classes have objects only. -/
def Body.HasNull (p : Primitive) : Body → Prop
  | aliasType t => t.HasNull p
  | constants values => p = .null ∧ ∃ e ∈ values, e.2 = .null
  | interfaceType .. | classType .. => False

structure KeepsNull (c : Context) (s : Schema) (body : Body) : Prop where
  declared : s.isNullable → body.HasNull c.nullPrimitive
  /-- The type of every node that allows null has it, and stands in what is declared. -/
  converted : ∀ node, body.Converts s node → node.isNullable →
    ∃ t, typeOf c node = .ok t ∧ t.HasNull c.nullPrimitive ∧ ∃ u ∈ body.types, t.Within u
  /-- So does the name that a member is written as that is extended. -/
  extended : body.isObject → ∀ node ∈ s.allOf, node.isNullable → ∀ reference base,
    node.ref = some reference → c.resolve reference = .ok base →
      (TypeExpr.named base).HasNull c.nullPrimitive

section Bodies

variable {c : Context} {definition : String} {s : Schema} {body : Body}

/-- A definition that allows null is declared with it, unless it lists its values without `null`. -/
theorem hasNull_of_bodyOf (made : bodyOf c definition s = .ok body) (nullable : s.isNullable) :
    body.HasNull c.nullPrimitive ↔
      s.enumValues = [] ∨ c.nullPrimitive = .null ∧ Scalar.null ∈ s.enumValues := by
  by_cases noValues : s.enumValues = []
  · refine iff_of_true ?_ (.inl noValues)
    cases bodyOf_cases made with
    | constants values => exact absurd noValues values
    | aliasType _ _ typed => exact (Context.hasPrimitive_typeOf nullable typed).hasNull
    | object _ shaped =>
      have notNullable := (plain_of_shape shaped).1.nullable
      rw [nullable] at notNullable
      cases notNullable
  · cases (bodyOf_of_values noValues).symm.trans made
    have all := (constantsOf_spec s.enumValues (s.keywords.extra.lookup "x-enumNames")).1
    have listed (value : Scalar) : value ∈ s.enumValues ↔
        ∃ e ∈ constantsOf s.enumValues (s.keywords.extra.lookup "x-enumNames"), e.2 = value := by
      rw [← List.mem_map, all]
    rw [Body.HasNull, ← listed]
    exact (or_iff_right noValues).symm

theorem hasNull_of_converts {node : Schema} (made : bodyOf c definition s = .ok body)
    (converts : body.Converts s node) (nullable : node.isNullable) :
    ∃ t, typeOf c node = .ok t ∧ t.HasNull c.nullPrimitive ∧ ∃ u ∈ body.types, t.Within u := by
  obtain ⟨u, inside, placed⟩ := places_of_bodyOf made converts
  obtain ⟨t, typed, within⟩ := placed.within_of_nullable nullable
  exact ⟨t, typed, (Context.hasPrimitive_typeOf nullable typed).hasNull, u, inside, within⟩

/-- Null is kept exactly if a definition that allows it lists it among its values, if it lists any, and
    if no member that is extended allows it. -/
theorem keepsNull_iff (made : bodyOf c definition s = .ok body) :
    KeepsNull c s body ↔
      (s.isNullable → s.enumValues = [] ∨
        c.nullPrimitive = .null ∧ Scalar.null ∈ s.enumValues) ∧
      (body.isObject → ∀ node ∈ s.allOf, node.ref.isSome → node.isNullable = false) := by
  constructor
  · intro keeps
    refine ⟨fun nullable => (hasNull_of_bodyOf made nullable).mp (keeps.declared nullable), ?_⟩
    intro isObject node inside refers
    obtain ⟨reference, refers⟩ := Option.isSome_iff_exists.mp refers
    obtain ⟨base, -, resolved⟩ := (bases_of_bodyOf made isObject).exists_right
      (List.mem_filterMap.mpr ⟨node, inside, refers⟩)
    rw [Bool.eq_false_iff]
    intro nullable
    exact TypeExpr.not_hasNull_named _ base
      (keeps.extended isObject node inside nullable reference base refers resolved)
  · rintro ⟨listed, notNullable⟩
    constructor
    case declared => exact fun nullable => (hasNull_of_bodyOf made nullable).mpr (listed nullable)
    case converted => exact fun node => hasNull_of_converts made
    case extended =>
      intro isObject node inside nullable reference base refers
      have other := notNullable isObject node inside (Option.isSome_of_eq_some refers)
      rw [nullable] at other
      cases other

end Bodies
end TypeScript

namespace Generator

open TypeScript

/-- The definitions of a module keep null exactly if those that allow it and list values list it as
    well, and if no interface or class extends another one as one that may be null. -/
theorem typeScript_keepsNull_iff {settings : Settings} {d : IsolatedDocument}
    {fileName text : String} (made : (typeScript settings).generate d fileName = .ok text) :
    ∃ m : Module, moduleOf settings d fileName = .ok m ∧ text = m.text ∧
      List.Forall₂ (fun definition declaration =>
          KeepsNull (.ofDocument settings d) definition.2 declaration.body ↔
            (definition.2.isNullable → definition.2.enumValues = [] ∨
              settings.nullValue = .null ∧ Scalar.null ∈ definition.2.enumValues) ∧
            (declaration.body.isObject → ∀ node ∈ definition.2.allOf, node.ref.isSome →
              node.isNullable = false))
        d.definitions m.declarations := by
  obtain ⟨m, converted, rfl⟩ := Except.map_eq_ok.mp made
  refine ⟨m, converted, rfl, (declarations_of_moduleOf converted).2.imp ?_⟩
  rintro definition declaration ⟨madeBody, -⟩
  have null : (Context.ofDocument settings d).nullPrimitive = .null ↔
      settings.nullValue = .null := by
    have same : (Context.ofDocument settings d).settings = settings := rfl
    rw [Context.nullPrimitive, same]
    cases settings.nullValue <;> simp
  rw [keepsNull_iff madeBody, null]

/-- A definition that lists `null` beside its other value, one that allows null in its list of types,
    members that allow it at two depths, and an interface that extends that one. -/
theorem typeScript_keepsNull_iff_pets :
    let maybe : Schema := { keywords := { type := some (.single "string"), xNullable := some true } }
    let color : Schema := {
      keywords := {
        type := some (.single "string"), nullable := some true
        enum := some [.string "red", .null] } }
    let name : Schema := { keywords := { type := some (.multiple ["string", "null"]) } }
    let pet : Schema := {
      properties := [("name", maybe), ("tags", { Schema.ofType "array" with items := some maybe })] }
    let dog : Schema := { allOf := [.reference "#/definitions/A.Pet"] }
    let d : IsolatedDocument := ⟨"A", {}, .swagger2, "2.0",
      [("A.Color", color), ("A.Name", name), ("A.Pet", pet), ("A.Dog", dog)]⟩
    ∃ m, moduleOf {} d "A" = .ok m ∧
      List.Forall₂ (fun e declaration => KeepsNull (.ofDocument {} d) e.2 declaration.body)
        d.definitions m.declarations := by
  intro maybe color name pet dog d
  obtain ⟨text, made⟩ := Except.isOk_iff.mp
    (by decide +kernel : ((typeScript {}).generate d "A").isOk)
  obtain ⟨m, converted, -, each⟩ := typeScript_keepsNull_iff made
  have listed : ∀ e ∈ d.definitions, e.2.isNullable → e.2.enumValues = [] ∨
      Scalar.null ∈ e.2.enumValues := by decide
  have extended : ∀ e ∈ d.definitions, ∀ node ∈ e.2.allOf, node.ref.isSome →
      node.isNullable = false := by decide
  refine ⟨m, converted, List.forall₂_iff_zip.mpr ⟨each.length_eq, fun {e declaration} pair => ?_⟩⟩
  have defined := (List.of_mem_zip pair).1
  refine ((List.forall₂_iff_zip.mp each).2 pair).mpr ⟨fun nullable => ?_, fun _ => extended e defined⟩
  exact (listed e defined nullable).imp_right fun inside => ⟨rfl, inside⟩

/-- A definition that allows null and lists values without it, and one that extends a definition as one
    that may be null. -/
theorem typeScript_null_lost :
    let color : Schema := {
      keywords := {
        type := some (.single "string"), nullable := some true, enum := some [.string "red"] } }
    let base : Schema := .ofType "object"
    let maybe : Schema := {
      allOf := [{ keywords := {
        ref := some "#/components/schemas/A.Base", nullable := some true } }] }
    let d : IsolatedDocument := ⟨"A", {}, .openapi3, "3.0.1",
      [("A.Color", color), ("A.Base", base), ("A.Maybe", maybe)]⟩
    let c := Context.ofDocument {} d
    color.isNullable ∧ ∃ m, moduleOf {} d "A" = .ok m ∧
      (∃ declaration ∈ m.declarations, bodyOf c "A.Color" color = .ok declaration.body ∧
        ¬ declaration.body.HasNull c.nullPrimitive) ∧
      ∃ declaration ∈ m.declarations, bodyOf c "A.Maybe" maybe = .ok declaration.body ∧
        ¬ KeepsNull c maybe declaration.body := by
  intro color base maybe d c
  obtain ⟨m, made⟩ := Except.isOk_iff.mp (by decide +kernel : (moduleOf {} d "A").isOk)
  have declared {e : String × Schema} (defined : e ∈ d.definitions) :
      ∃ declaration ∈ m.declarations, bodyOf c e.1 e.2 = .ok declaration.body := by
    obtain ⟨declaration, inside, madeBody, -⟩ :=
      (declarations_of_moduleOf made).2.exists_right defined
    exact ⟨declaration, inside, madeBody⟩
  refine ⟨rfl, m, made, ?_, ?_⟩
  · obtain ⟨declaration, inside, madeBody⟩ := declared (e := ("A.Color", color)) List.mem_cons_self
    refine ⟨declaration, inside, madeBody, ?_⟩
    rw [hasNull_of_bodyOf madeBody rfl]
    decide
  · obtain ⟨declaration, inside, madeBody⟩ :=
      declared (e := ("A.Maybe", maybe)) (List.mem_cons_of_mem _ (List.mem_cons_of_mem _ List.mem_cons_self))
    refine ⟨declaration, inside, madeBody, ?_⟩
    rw [keepsNull_iff madeBody, not_and]
    intro _ extended
    have isObject := (isObject_iff_shape madeBody).mpr ⟨rfl, by decide +kernel⟩
    cases extended isObject _ (List.mem_singleton_self _) rfl

end Generator
end SchemaSplit
