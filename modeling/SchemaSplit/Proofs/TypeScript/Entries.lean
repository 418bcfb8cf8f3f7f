import SchemaSplit.Proofs.TypeScript.Properties
import SchemaSplit.Proofs.TypeScript.Values

namespace SchemaSplit

namespace TypeScript

/-- A reading of types that takes intersections, object types and records by their structure. Nothing is
    said of other types. -/
structure Structural (admits : TypeExpr → Json → Prop) : Prop where
  intersection (ts : List TypeExpr) (v : Json) :
    admits (.intersection ts) v ↔ ∀ t ∈ ts, admits t v
  object (members : List (Member TypeExpr)) (v : Json) :
    admits (.object members) v ↔ ∃ fields, v = .object fields ∧
      (∀ member ∈ members, member.isOptional = false → member.name ∈ fields.map (·.1)) ∧
      ∀ member ∈ members, ∀ x, (member.name, x) ∈ fields → admits member.type x
  record (value : TypeExpr) (v : Json) :
    admits (.recordOf value) v ↔ ∃ fields, v = .object fields ∧ ∀ f ∈ fields, admits value f.2

theorem Module.structural (m : Module) : Structural m.Admits := by
  constructor
  case intersection =>
    intro ts v
    constructor
    · intro admitted
      cases admitted with
      | intersection all => exact all
    · exact .intersection
  case object =>
    intro members v
    constructor
    · intro admitted
      cases admitted with
      | object present each => exact ⟨_, rfl, present, each⟩
    · rintro ⟨fields, rfl, present, each⟩
      exact .object present each
  case record =>
    intro value v
    constructor
    · intro admitted
      cases admitted with
      | record _ values => exact ⟨_, rfl, values⟩
    · rintro ⟨fields, rfl, values⟩
      exact .record (fun f _ => .string f.1) values

/-- The entries of an object with members: these have values of their types, the required ones are
    there, and all other entries have values of one type. -/
structure Fills (admits : TypeExpr → Json → Prop) (members : List (Member TypeExpr))
    (value : TypeExpr) (fields : List (String × Json)) : Prop where
  present : ∀ member ∈ members, member.isOptional = false → member.name ∈ fields.map (·.1)
  declared : ∀ member ∈ members, ∀ x, (member.name, x) ∈ fields → admits member.type x
  further : ∀ f ∈ fields, f.1 ∉ members.map (·.name) → admits value f.2

def replaceEntry (name : String) (x : Json) (fields : List (String × Json)) :
    List (String × Json) :=
  (name, x) :: fields.filter (·.1 != name)

theorem mem_replaceEntry {name : String} {x : Json} {fields : List (String × Json)}
    {f : String × Json} :
    f ∈ replaceEntry name x fields ↔ f = (name, x) ∨ f ∈ fields ∧ f.1 ≠ name := by
  rw [replaceEntry, List.mem_cons, List.mem_filter, bne_iff_ne]

section Entries

variable {admits : TypeExpr → Json → Prop} {members : List (Member TypeExpr)} {value : TypeExpr}
  {fields : List (String × Json)} {member : Member TypeExpr} {x v : Json}

/-- An intersection with a record asks more of the members: they are values of the record as well. -/
theorem Structural.admits_iff (structural : Structural admits) :
    admits (.intersection [.object members, .recordOf value]) v ↔
      ∃ fields, v = .object fields ∧ Fills admits members value fields ∧
        ∀ member ∈ members, ∀ x, (member.name, x) ∈ fields → admits value x := by
  rw [structural.intersection, List.forall_mem_cons, List.forall_mem_singleton, structural.object,
    structural.record]
  constructor
  · rintro ⟨⟨fields, rfl, present, declared⟩, same, shared, values⟩
    cases shared
    exact ⟨fields, rfl, ⟨present, declared, fun f inside _ => values f inside⟩,
      fun member _ x inside => values _ inside⟩
  · rintro ⟨fields, rfl, fills, both⟩
    refine ⟨⟨fields, rfl, fills.present, fills.declared⟩, fields, rfl, fun f inside => ?_⟩
    by_cases named : f.1 ∈ members.map (·.name)
    · obtain ⟨member, declared, name⟩ := List.mem_map.mp named
      exact both member declared f.2 (name ▸ inside)
    · exact fills.further f inside named

theorem Fills.replace (fills : Fills admits members value fields)
    (distinct : (members.map (·.name)).Nodup) (inside : member ∈ members)
    (typed : admits member.type x) :
    Fills admits members value (replaceEntry member.name x fields) := by
  constructor
  case present =>
    intro other declared required
    by_cases same : other.name = member.name
    · exact List.mem_map.mpr ⟨_, mem_replaceEntry.mpr (.inl rfl), same.symm⟩
    · obtain ⟨f, there, name⟩ := List.mem_map.mp (fills.present other declared required)
      exact List.mem_map.mpr ⟨f, mem_replaceEntry.mpr (.inr ⟨there, name ▸ same⟩), name⟩
  case declared =>
    intro other declared y there
    rcases mem_replaceEntry.mp there with new | ⟨old, -⟩
    · obtain ⟨name, rfl⟩ := Prod.mk.inj new
      -- No other member has this name, whose type might not admit the new value.
      cases List.inj_on_of_nodup_map distinct declared inside name
      exact typed
    · exact fills.declared other declared y old
  case further =>
    intro f there undeclared
    rcases mem_replaceEntry.mp there with rfl | ⟨old, -⟩
    · exact absurd (List.mem_map_of_mem inside) undeclared
    · exact fills.further f old undeclared

/-- All objects that fill the members are values exactly if the types of the members are no wider than
    that of further entries. One such object must exist for this, with a value for each required
    member. -/
theorem Structural.admits_of_fills_iff (structural : Structural admits)
    (distinct : (members.map (·.name)).Nodup) (fills : Fills admits members value fields) :
    (∀ entries, Fills admits members value entries →
        admits (.intersection [.object members, .recordOf value]) (.object entries)) ↔
      ∀ member ∈ members, ∀ x, admits member.type x → admits value x := by
  constructor
  · intro all member inside x typed
    -- With the value put at the member, the object still fills all of them.
    have admitted := all _ (fills.replace distinct inside typed)
    obtain ⟨entries, same, -, both⟩ := structural.admits_iff.mp admitted
    cases same
    exact both member inside x (mem_replaceEntry.mpr (.inl rfl))
  · intro narrower entries fills
    refine structural.admits_iff.mpr ⟨entries, rfl, fills, fun member inside x there => ?_⟩
    exact narrower member inside x (fills.declared member inside x there)

end Entries

namespace Context

variable {c : Context} {s values : Schema} {t : TypeExpr}

theorem objectTypeOf_eq_intersection (properties : s.properties ≠ [])
    (further : s.valueSchema = some values) (made : objectTypeOf c s = .ok t) :
    ∃ members value, membersOf c s.required s.properties = .ok members ∧
      typeOf c values = .ok value ∧ t = .intersection [.object members, .recordOf value] := by
  obtain ⟨members, record, declared, typed, rfl⟩ := objectTypeOf_cases properties made
  rcases additional : s.additional with _ | (allowed | schema)
  · simp [Schema.valueSchema, additional] at further
  · simp [Schema.valueSchema, additional] at further
  · rw [Schema.valueSchema, additional] at further
    cases further
    rw [additional, recordTypeOf, Except.bind_eq_ok] at typed
    obtain ⟨value, typed, result⟩ := typed
    cases result
    exact ⟨members, value, declared, typed, rfl⟩

end Context
end TypeScript

namespace Generator

open TypeScript

/-- The values of an object with properties and a schema for further entries are the objects that fill
    its members and have values of the further type there too. So the objects that fill them are all
    values exactly if no property has a value that a further entry may not have. A node that is not made
    of other ones has this type, with null if it allows that. -/
theorem typeScript_entries_iff {c : Context} {s values : Schema} {t : TypeExpr}
    {admits : TypeExpr → Json → Prop} (structural : Structural admits)
    (properties : s.properties ≠ []) (further : s.valueSchema = some values)
    (made : objectTypeOf c s = .ok t) :
    ∃ members value, membersOf c s.required s.properties = .ok members ∧
      typeOf c values = .ok value ∧
      (s.DeclaresProperties → s.allOf = [] → ¬ s.IsUnion →
        typeOf c s = .ok (c.admitNull s.isNullable t)) ∧
      (∀ v, admits t v ↔ ∃ fields, v = .object fields ∧ Fills admits members value fields ∧
        ∀ member ∈ members, ∀ x, (member.name, x) ∈ fields → admits value x) ∧
      ((s.properties.map (·.1)).Nodup → ∀ fields, Fills admits members value fields →
        ((∀ entries, Fills admits members value entries → admits t (.object entries)) ↔
          ∀ member ∈ members, ∀ x, admits member.type x → admits value x)) := by
  obtain ⟨members, value, declared, typed, rfl⟩ :=
    Context.objectTypeOf_eq_intersection properties further made
  refine ⟨members, value, declared, typed, ?_, fun v => structural.admits_iff, ?_⟩
  · intro declares alone notUnion
    rw [Context.typeOf_of_declaresProperties declares alone notUnion, made]
    rfl
  · intro distinct fields fills
    rw [← Context.names_membersOf declared] at distinct
    exact structural.admits_of_fills_iff distinct fills

/-- An object of texts only. -/
theorem typeScript_entries_iff_texts :
    let s : Schema := {
      keywords := { type := some (.single "object"), required := ["id"] }
      properties := [("id", .ofType "string"), ("note", .ofType "string")]
      additional := some (.schema (.ofType "string")) }
    let c := Context.ofDocument {} ⟨"A", {}, .openapi3, "3.0.1", [("A.X", s)]⟩
    let m : Module := ⟨[], []⟩
    ∃ t, typeOf c s = .ok t ∧
      m.Admits t (.object [("id", .scalar (.string "x")), ("more", .scalar (.string "y"))]) := by
  intro s c m
  obtain ⟨t, made⟩ := Except.isOk_iff.mp (by decide +kernel : (objectTypeOf c s).isOk)
  obtain ⟨members, value, declared, typed, same, -, law⟩ :=
    typeScript_entries_iff m.structural (List.cons_ne_nil _ _) rfl made
  have own : membersOf c s.required s.properties =
      .ok [⟨"id", .primitive .string, false, none⟩, ⟨"note", .primitive .string, true, none⟩] := rfl
  have text : typeOf c (.ofType "string") = .ok (.primitive .string) := rfl
  cases declared.symm.trans own
  cases typed.symm.trans text
  have alike : ∀ member ∈ [(⟨"id", .primitive .string, false, none⟩ : Member TypeExpr),
      ⟨"note", .primitive .string, true, none⟩], member.type = .primitive .string :=
    List.forall_mem_cons.mpr ⟨rfl, List.forall_mem_singleton.mpr rfl⟩
  have texts : ∀ f ∈ [("id", Json.scalar (.string "x")), ("more", .scalar (.string "y"))],
      m.Admits (.primitive .string) f.2 :=
    List.forall_mem_cons.mpr ⟨.string "x", List.forall_mem_singleton.mpr (.string "y")⟩
  have fills : Fills m.Admits _ (.primitive .string) _ :=
    ⟨by decide, fun member inside x there => alike member inside ▸ texts _ there,
      fun f there _ => texts f there⟩
  have whole := same ⟨rfl, rfl, .inr rfl, List.cons_ne_nil _ _⟩ rfl (by simp [Schema.IsUnion, s])
  refine ⟨t, whole, (law (by decide) _ fills).mpr ?_ _ fills⟩
  exact fun member inside x admitted => alike member inside ▸ admitted

/-- No value at all is an object of numbers with a property that is a text and must be there. -/
theorem typeScript_entries_lost :
    let number := Schema.ofType "integer"
    let s : Schema := {
      keywords := { type := some (.single "object"), required := ["id"] }
      properties := [("id", .ofType "string")]
      additional := some (.schema number) }
    let d : IsolatedDocument := ⟨"A", {}, .openapi3, "3.0.1", [("A.X", s)]⟩
    let c := Context.ofDocument {} d
    ∃ m, moduleOf {} d "A" = .ok m ∧ ∃ t members value,
      objectTypeOf c s = .ok t ∧ membersOf c s.required s.properties = .ok members ∧
        typeOf c number = .ok value ∧
        Fills m.Admits members value [("id", .scalar (.string "x"))] ∧ (∀ v, ¬ m.Admits t v) ∧
        ∃ declaration ∈ m.declarations, declaration.body = .aliasType t := by
  intro number s d c
  obtain ⟨m, made⟩ := Except.isOk_iff.mp (by decide +kernel : (moduleOf {} d "A").isOk)
  let key : Member TypeExpr := ⟨"id", .primitive .string, false, none⟩
  refine ⟨m, made, .intersection [.object [key], .recordOf (.primitive .number)], [key],
    .primitive .number, rfl, rfl, rfl, ?_, ?_, ?_⟩
  · constructor
    case present => exact List.forall_mem_singleton.mpr fun _ => List.mem_singleton_self _
    case declared =>
      refine List.forall_mem_singleton.mpr fun x there => ?_
      cases List.mem_singleton.mp there
      exact .string "x"
    case further =>
      exact List.forall_mem_singleton.mpr fun undeclared => absurd (List.mem_singleton_self _) undeclared
  · intro v admitted
    obtain ⟨fields, -, fills, both⟩ := m.structural.admits_iff.mp admitted
    obtain ⟨f, there, name⟩ := List.mem_map.mp (fills.present key (List.mem_singleton_self key) rfl)
    have entry : (key.name, f.2) ∈ fields := name ▸ there
    -- The entry would be a text and a number.
    have text : m.Admits (.primitive .string) f.2 :=
      fills.declared key (List.mem_singleton_self key) f.2 entry
    have number : m.Admits (.primitive .number) f.2 := both key (List.mem_singleton_self key) f.2 entry
    generalize f.2 = x at text number
    cases text
    cases number with
    | number value => cases value
  · obtain ⟨declaration, inside, madeBody, -⟩ :=
      (declarations_of_moduleOf made).2.exists_right (List.mem_singleton_self ("A.X", s))
    have shapeless : shape? c.scope c.settings.typeStyle ["A.X"] s = none := by
      rw [Option.eq_none_iff_forall_ne_some]
      intro shape shaped
      cases (plain_of_shape shaped).1.valueSchema
    have same : bodyOf c "A.X" s =
        .ok (.aliasType (.intersection [.object [key], .recordOf (.primitive .number)])) := by
      rw [bodyOf_of_shapeless rfl shapeless]
      rfl
    exact ⟨declaration, inside, Except.ok.inj (madeBody.symm.trans same)⟩

end Generator
end SchemaSplit
