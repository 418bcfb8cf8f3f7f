import SchemaSplit.Proofs.TypeScript.Placement

namespace SchemaSplit

def Schema.requiredNames (s : Schema) : List String := s.parts.flatMap (·.required)

theorem Schema.mem_requiredNames {s : Schema} {declared : Schema × String × Schema}
    (inside : declared ∈ s.declaredProperties) {name : String} (own : name ∈ declared.1.required) :
    name ∈ s.requiredNames := by
  obtain ⟨part, isPart, among⟩ := List.mem_flatMap.mp inside
  obtain ⟨property, -, rfl⟩ := List.mem_map.mp among
  exact List.mem_flatMap.mpr ⟨part, isPart, own⟩

namespace TypeScript

/-- The members are those of the declared properties, in their order, and just the required ones must
    be there. -/
def Body.Requires (body : Body) (s : Schema) (isRequired : Schema × String × Schema → Prop) : Prop :=
  List.Forall₂ (fun declared m =>
      m.name = declared.2.1 ∧ (m.isOptional = false ↔ isRequired declared))
    s.declaredProperties body.members

abbrev Body.RequiresOwn (body : Body) (s : Schema) : Prop :=
  body.Requires s fun declared => declared.2.1 ∈ declared.1.required

abbrev Body.RequiresAll (body : Body) (s : Schema) : Prop :=
  body.Requires s fun declared => declared.2.1 ∈ s.requiredNames

variable {c : Context} {definition : String} {s : Schema} {body : Body}

/-- Only one choice of required properties fits the members. -/
theorem Body.Requires.iff {isRequired other : Schema × String × Schema → Prop}
    (requires : body.Requires s isRequired) :
    body.Requires s other ↔ ∀ declared ∈ s.declaredProperties, isRequired declared ↔ other declared := by
  constructor
  · intro alike declared inside
    have both := List.Forall₂.mp (fun _ _ one two => one.2.symm.trans two.2) requires alike
    obtain ⟨m, -, same⟩ := both.exists_right inside
    exact same
  · intro same
    refine ((List.forall₂_and_left _ _).mpr ⟨same, requires⟩).imp ?_
    rintro declared m ⟨same, name, optional⟩
    exact ⟨name, optional.trans same⟩

/-- A member must be there exactly if its own part requires it. -/
theorem requiresOwn_of_bodyOf (made : bodyOf c definition s = .ok body) (isObject : body.isObject) :
    body.RequiresOwn s := by
  refine (members_of_bodyOf made isObject).imp ?_
  intro declared m made
  obtain ⟨type, -, result⟩ := Except.bind_eq_ok.mp made
  cases result
  exact ⟨rfl, by simp⟩

theorem Body.RequiresOwn.requiresAll_iff (own : body.RequiresOwn s) :
    body.RequiresAll s ↔ ∀ declared ∈ s.declaredProperties, declared.2.1 ∈ s.requiredNames →
      declared.2.1 ∈ declared.1.required := by
  refine (Body.Requires.iff own).trans ?_
  constructor
  · exact fun same declared inside => (same declared inside).mpr
  · exact fun listed declared inside => ⟨Schema.mem_requiredNames inside, listed declared inside⟩

end TypeScript

namespace Generator

open TypeScript

/-- In interfaces and classes, a member must be there exactly if the part of the definition that has its
    property requires it. This is what the whole definition requires exactly if no part requires a
    property that another part has without requiring it. -/
theorem typeScript_required_iff {settings : Settings} {d : IsolatedDocument}
    {fileName text : String} (made : (typeScript settings).generate d fileName = .ok text) :
    ∃ m : Module, moduleOf settings d fileName = .ok m ∧ text = m.text ∧
      List.Forall₂ (fun definition declaration =>
          bodyOf (.ofDocument settings d) definition.1 definition.2 = .ok declaration.body ∧
          (declaration.body.isObject → declaration.body.RequiresOwn definition.2 ∧
            (declaration.body.RequiresAll definition.2 ↔
              ∀ declared ∈ definition.2.declaredProperties,
                declared.2.1 ∈ definition.2.requiredNames → declared.2.1 ∈ declared.1.required)))
        d.definitions m.declarations := by
  obtain ⟨m, converted, rfl⟩ := Except.map_eq_ok.mp made
  refine ⟨m, converted, rfl, (declarations_of_moduleOf converted).2.imp ?_⟩
  rintro definition declaration ⟨madeBody, -⟩
  refine ⟨madeBody, fun isObject => ?_⟩
  have own := requiresOwn_of_bodyOf madeBody isObject
  exact ⟨own, own.requiresAll_iff⟩

/-- A definition and two members of it, each of which requires a property of its own. -/
theorem typeScript_required_iff_pets :
    let text := Schema.ofType "string"
    let named : Schema := {
      keywords := { type := some (.single "object"), required := ["name"] }
      properties := [("name", text), ("tag", text)] }
    let aged : Schema := {
      keywords := { required := ["age"] }, properties := [("age", .ofType "integer")] }
    let pet : Schema := {
      keywords := { required := ["id"] }, properties := [("id", text)], allOf := [named, aged] }
    let d : IsolatedDocument := ⟨"A", {}, .swagger2, "2.0", [("A.Pet", pet)]⟩
    ∃ m, moduleOf {} d "A" = .ok m ∧
      ∃ declaration ∈ m.declarations, declaration.body.isObject ∧
        declaration.body.RequiresOwn pet ∧ declaration.body.RequiresAll pet := by
  intro text named aged pet d
  obtain ⟨written, made⟩ := Except.isOk_iff.mp
    (by decide +kernel : ((typeScript {}).generate d "A").isOk)
  obtain ⟨m, converted, -, each⟩ := typeScript_required_iff made
  obtain ⟨declaration, inside, madeBody, required⟩ :=
    each.exists_right (List.mem_singleton_self ("A.Pet", pet))
  have isObject := (isObject_iff_shape madeBody).mpr ⟨rfl, by decide +kernel⟩
  obtain ⟨own, all⟩ := required isObject
  exact ⟨m, converted, declaration, inside, isObject, own, all.mpr (by decide)⟩

/-- A definition that requires the property of a member is declared with that one as optional. -/
theorem typeScript_required_lost :
    let part : Schema := { Schema.ofType "object" with properties := [("a", .ofType "string")] }
    let s : Schema := {
      keywords := { type := some (.single "object"), required := ["a"] }, allOf := [part] }
    let d : IsolatedDocument := ⟨"A", {}, .openapi3, "3.0.1", [("A.X", s)]⟩
    ∃ m, moduleOf {} d "A" = .ok m ∧
      ∃ declaration ∈ m.declarations, declaration.body.isObject ∧ "a" ∈ s.requiredNames ∧
        (∃ member ∈ declaration.body.members, member.name = "a" ∧ member.isOptional) ∧
        ¬ declaration.body.RequiresAll s := by
  intro part s d
  obtain ⟨m, made⟩ := Except.isOk_iff.mp (by decide +kernel : (moduleOf {} d "A").isOk)
  obtain ⟨declaration, inside, madeBody, -⟩ :=
    (declarations_of_moduleOf made).2.exists_right (List.mem_singleton_self ("A.X", s))
  have isObject := (isObject_iff_shape madeBody).mpr ⟨rfl, by decide +kernel⟩
  have own := requiresOwn_of_bodyOf madeBody isObject
  have declared : (part, "a", .ofType "string") ∈ s.declaredProperties := List.mem_singleton_self _
  refine ⟨m, made, declaration, inside, isObject, by decide, ?_, ?_⟩
  · obtain ⟨member, among, name, optional⟩ := own.exists_right declared
    refine ⟨member, among, name, ?_⟩
    rw [← Bool.not_eq_false, optional]
    exact List.not_mem_nil
  · rw [own.requiresAll_iff]
    intro listed
    cases listed _ declared (by decide)

end Generator
end SchemaSplit
