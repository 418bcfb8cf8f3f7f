import SchemaSplit.Proofs.Document
import SchemaSplit.Proofs.Group
import SchemaSplit.Proofs.TypeScript.Module

namespace SchemaSplit

/-- The names of the members that a definition declares: those of its own properties and those of its
    members that refer to nothing. -/
def Schema.memberNames (s : Schema) : List String :=
  (s :: s.allOf.filter (·.ref.isNone)).flatMap fun part => part.properties.map (·.1)

def Schema.DistinctProperties (s : Schema) : Prop :=
  ∀ node, Within node s → (node.properties.map (·.1)).Nodup

theorem Schema.distinctProperties_iff {s : Schema} :
    s.DistinctProperties ↔
      (s.properties.map (·.1)).Nodup ∧ ∀ child ∈ s.children, child.DistinctProperties :=
  forall_within_iff

theorem Document.distinctProperties_isolate {text : List Char} {d : Document} {separator : Char}
    {g : Group} (known : Document.parse text = .ok d) (member : g ∈ d.groups separator) :
    ∀ e ∈ (d.isolate g).definitions, e.2.DistinctProperties := by
  have sound := sound_of_parse known
  intro e inside node within
  have defined := (partOf_isolate member sound.distinct).subset inside
  exact (sound.each e defined node within).properties

namespace TypeScript

namespace TypeExpr

def children : TypeExpr → List TypeExpr
  | array element => [element]
  | union members | intersection members => members
  | object members => members.map (·.type)
  | record key value => [key, value]
  | primitive _ | literal _ | named _ => []

inductive Within : TypeExpr → TypeExpr → Prop
  | refl (t : TypeExpr) : Within t t
  | child {t u v : TypeExpr} (below : u ∈ t.children) (inside : Within v u) : Within v t

def Distinct (t : TypeExpr) : Prop :=
  ∀ members, Within (.object members) t → (members.map (·.name)).Nodup

theorem distinct_iff {t : TypeExpr} :
    t.Distinct ↔ (∀ members, t = .object members → (members.map (·.name)).Nodup) ∧
      ∀ u ∈ t.children, u.Distinct := by
  constructor
  · intro distinct
    refine ⟨?_, fun u below members inside => distinct members (.child below inside)⟩
    rintro members rfl
    exact distinct members (.refl _)
  · rintro ⟨here, below⟩ members inside
    cases inside with
    | refl => exact here members rfl
    | child member inside => exact below _ member members inside

theorem distinct_union {ts : List TypeExpr} : (union ts).Distinct ↔ ∀ t ∈ ts, t.Distinct :=
  distinct_iff.trans (and_iff_right nofun)

end TypeExpr

namespace Context

variable {c : Context} {s : Schema} {t : TypeExpr}

theorem distinct_of_formed (own : (s.properties.map (·.1)).Nodup)
    (below : ∀ child ∈ s.children, ∀ t, typeOf c child = .ok t → t.Distinct)
    (formed : c.Formed s t) : t.Distinct := by
  induction formed with
  | child inside made => exact below _ inside _ made
  | primitive | global | reference | listed | tag => exact TypeExpr.distinct_iff.mpr ⟨nofun, nofun⟩
  | array element ih => exact TypeExpr.distinct_iff.mpr ⟨nofun, List.forall_mem_singleton.mpr ih⟩
  | union filled members ih => exact TypeExpr.distinct_union.mpr ih
  | widened members p ih =>
    rw [TypeExpr.distinct_union, List.forall_mem_append, List.forall_mem_singleton]
    exact ⟨TypeExpr.distinct_union.mp ih, TypeExpr.distinct_iff.mpr ⟨nofun, nofun⟩⟩
  | intersection filled members ih => exact TypeExpr.distinct_iff.mpr ⟨nofun, ih⟩
  | @object ms names members ih =>
    refine TypeExpr.distinct_iff.mpr ⟨?_, List.forall_mem_map.mpr ih⟩
    rintro _ ⟨⟩
    rcases names with same | single
    · exact same ▸ own
    · obtain ⟨m, rfl⟩ := List.length_eq_one_iff.mp single
      exact List.nodup_singleton m.name
  | record keys values keyIh valueIh =>
    refine TypeExpr.distinct_iff.mpr ⟨nofun, ?_⟩
    exact List.forall_mem_cons.mpr ⟨keyIh, List.forall_mem_singleton.mpr valueIh⟩

theorem distinct_typeOf {c : Context} {s : Schema} {t : TypeExpr}
    (properties : s.DistinctProperties) (made : typeOf c s = .ok t) : t.Distinct := by
  rw [Schema.distinctProperties_iff] at properties
  have below : ∀ child ∈ s.children, ∀ t, typeOf c child = .ok t → t.Distinct := by
    intro child inside u made
    have smaller := Schema.sizeOf_child_lt inside
    exact distinct_typeOf (properties.2 child inside) made
  exact distinct_of_formed properties.1 below (formed_typeOf made)
termination_by sizeOf s

end Context

namespace Body

/-- The names of the members in each block that a body is written with: an interface, or a class with
    what is generated into it and its interface behind it. -/
def blocks : Body → List (List String)
  | interfaceType _ members => [members.map (·.name)]
  | classType _ members hasInterface hasClone =>
    (members.map (·.name) ++ (if hasInterface then ["constructor"] else []) ++
        (if hasClone then ["clone"] else [])) ::
      if hasInterface then [members.map (·.name)] else []
  | aliasType _ | constants _ => []

def types (body : Body) : List TypeExpr := body.members.map (·.type) ++ body.alias?.toList

theorem nodup_append_if {names : List String} {isAdded : Bool} {name : String} :
    (names ++ if isAdded then [name] else []).Nodup ↔
      names.Nodup ∧ (isAdded → name ∉ names) := by
  cases isAdded
  · simp
  · rw [if_pos rfl, List.nodup_append_comm, List.singleton_append, List.nodup_cons, and_comm]
    simp only [forall_const]

theorem blocks_nodup_iff {settings : Settings} {bases : List String}
    {members : List (Member TypeExpr)} :
    (∀ names ∈ (objectBody settings bases members).blocks, names.Nodup) ↔
      (members.map (·.name)).Nodup ∧
        (settings.typeStyle = .classType →
          (settings.constructorInterface → "constructor" ∉ members.map (·.name)) ∧
            (settings.cloneMethod → "clone" ∉ members.map (·.name))) := by
  unfold objectBody
  generalize own : members.map (·.name) = names
  cases settings.typeStyle with
  | interfaceType =>
    rw [blocks, own, List.forall_mem_singleton]
    exact (and_iff_left nofun).symm
  | classType =>
    have clone : "clone" ∉ names ++ (if settings.constructorInterface then ["constructor"] else []) ↔
        "clone" ∉ names := by
      cases settings.constructorInterface <;> simp
    rw [blocks, own, List.forall_mem_cons, nodup_append_if, nodup_append_if, clone]
    constructor
    · exact fun ⟨⟨⟨distinct, apart⟩, apart'⟩, _⟩ => ⟨distinct, fun _ => ⟨apart, apart'⟩⟩
    · rintro ⟨distinct, apart⟩
      refine ⟨⟨⟨distinct, (apart rfl).1⟩, (apart rfl).2⟩, ?_⟩
      -- The interface has the members of the class without those that are generated.
      split
      · exact List.forall_mem_singleton.mpr distinct
      · exact nofun

theorem types_objectBody (settings : Settings) (bases : List String)
    (members : List (Member TypeExpr)) :
    (objectBody settings bases members).types = members.map (·.type) := by
  rw [types, members_objectBody, alias_objectBody, Option.toList_none, List.append_nil]

end Body

section Bodies

variable {c : Context} {definition : String} {s : Schema} {body : Body}

theorem distinct_of_bodyOf (properties : s.DistinctProperties)
    (made : bodyOf c definition s = .ok body) : ∀ t ∈ body.types, t.Distinct := by
  cases bodyOf_cases made with
  | constants => exact nofun
  | aliasType noValues shapeless typed =>
    exact List.forall_mem_singleton.mpr (Context.distinct_typeOf properties typed)
  | object noValues shaped extended declared =>
    rw [Body.types_objectBody, List.forall_mem_map]
    intro m inside
    obtain ⟨ms, among, inside⟩ := List.mem_flatten.mp inside
    obtain ⟨part, isPart, declared⟩ := declared.exists_left among
    have below : part.DistinctProperties := by
      rcases part_of_shape shaped isPart with rfl | ⟨below, -⟩
      · exact properties
      · exact (Schema.distinctProperties_iff.mp properties).2 part (s.allOf_subset_children below)
    rw [Schema.distinctProperties_iff] at below
    refine Context.distinct_of_formed below.1 (fun child inside t => ?_)
      (Context.formed_membersOf part.properties_subset_children declared m inside)
    exact Context.distinct_typeOf (below.2 child inside)

theorem names_of_shape {shape : Shape} {members : List (List (Member TypeExpr))}
    (shaped : shape? c.scope c.settings.typeStyle [definition] s = some shape)
    (declared : List.Forall₂ (fun part ms => membersOf c part.required part.properties = .ok ms)
      shape.parts members) : members.flatten.map (·.name) = s.memberNames := by
  rw [Schema.memberNames, ← parts_of_shape shaped]
  generalize shape.parts = parts at declared
  induction declared with
  | nil => rfl
  | cons made _ ih =>
    rw [List.flatten_cons, List.map_append, List.flatMap_cons, ih, Context.names_membersOf made]

theorem blocks_of_bodyOf (made : bodyOf c definition s = .ok body) :
    (∀ names ∈ body.blocks, names.Nodup) ↔
      (body.isObject → s.memberNames.Nodup) ∧
        (body.isClass →
          (c.settings.constructorInterface → "constructor" ∉ s.memberNames) ∧
            (c.settings.cloneMethod → "clone" ∉ s.memberNames)) := by
  cases bodyOf_cases made with
  | constants => exact iff_of_true nofun ⟨nofun, nofun⟩
  | aliasType => exact iff_of_true nofun ⟨nofun, nofun⟩
  | object noValues shaped extended declared =>
    rename_i bases members
    have isClass : (objectBody c.settings bases members.flatten).isClass ↔
        c.settings.typeStyle = .classType := by
      unfold objectBody
      cases c.settings.typeStyle <;> simp [Body.isClass]
    rw [Body.blocks_nodup_iff, names_of_shape shaped declared, isClass]
    simp only [isObject_objectBody, forall_const]

end Bodies
end TypeScript

namespace Generator

open TypeScript

/-- In a module no object type has two members of one name. An interface or a class has none either
    if and only if those of its definition are distinct, together with what is generated into it. -/
theorem typeScript_members_distinct_iff {settings : Settings} {d : IsolatedDocument}
    {fileName text : String} (properties : ∀ e ∈ d.definitions, e.2.DistinctProperties)
    (made : (typeScript settings).generate d fileName = .ok text) :
    ∃ m : Module, moduleOf settings d fileName = .ok m ∧ text = m.text ∧
      List.Forall₂ (fun definition declaration =>
          (∀ t ∈ declaration.body.types, t.Distinct) ∧
            ((∀ names ∈ declaration.body.blocks, names.Nodup) ↔
              (declaration.body.isObject → definition.2.memberNames.Nodup) ∧
                (declaration.body.isClass →
                  (settings.constructorInterface → "constructor" ∉ definition.2.memberNames) ∧
                    (settings.cloneMethod → "clone" ∉ definition.2.memberNames))))
        d.definitions m.declarations := by
  obtain ⟨m, converted, rfl⟩ := Except.map_eq_ok.mp made
  refine ⟨m, converted, rfl, ?_⟩
  obtain ⟨lengths, bodies⟩ := List.forall₂_iff_zip.mp (declarations_of_moduleOf converted).2
  refine List.forall₂_iff_zip.mpr ⟨lengths, fun {definition declaration} pair => ?_⟩
  obtain ⟨madeBody, -⟩ := bodies pair
  have defined := (List.of_mem_zip pair).1
  exact ⟨distinct_of_bodyOf (properties definition defined) madeBody, blocks_of_bodyOf madeBody⟩

/-- A class that extends another one, with an object type inside and a member of its own and one from
    a member of `allOf`. -/
theorem typeScript_members_distinct_iff_sized :
    let size : Schema := { properties := [("name", .ofType "string"), ("width", .ofType "number")] }
    let base : Schema := { properties := [("id", .ofType "integer")] }
    let part : Schema := { properties := [("size", size)] }
    let item : Schema :=
      { properties := [("name", .ofType "string")]
        allOf := [.reference "#/definitions/A.Base", part] }
    let d : IsolatedDocument := ⟨"A", {}, .swagger2, "2.0", [("A.Base", base), ("A.Item", item)]⟩
    (∀ e ∈ d.definitions, e.2.DistinctProperties) ∧
      ∃ m, moduleOf shopClasses d "A" = .ok m ∧
        (∀ declaration ∈ m.declarations, (∀ t ∈ declaration.body.types, t.Distinct) ∧
          ∀ names ∈ declaration.body.blocks, names.Nodup) ∧
        m.declarations.map (·.body.blocks) =
          [[["id", "constructor", "clone"], ["id"]],
            [["name", "size", "constructor", "clone"], ["name", "size"]]] := by
  intro size base part item d
  have text : ∀ name, (Schema.ofType name).DistinctProperties :=
    fun name => Schema.forall_within_leaf rfl List.nodup_nil
  have properties : ∀ e ∈ d.definitions, e.2.DistinctProperties := by
    have sizes : size.DistinctProperties := by
      refine Schema.distinctProperties_iff.mpr ⟨by decide, ?_⟩
      exact List.forall_mem_cons.mpr ⟨text _, List.forall_mem_singleton.mpr (text _)⟩
    have parts : part.DistinctProperties :=
      Schema.distinctProperties_iff.mpr ⟨by decide, List.forall_mem_singleton.mpr sizes⟩
    have references : (Schema.reference "#/definitions/A.Base").DistinctProperties :=
      Schema.forall_within_leaf rfl List.nodup_nil
    intro e defined
    rcases List.mem_pair.mp defined with rfl | rfl
    · exact Schema.distinctProperties_iff.mpr ⟨by decide, List.forall_mem_singleton.mpr (text _)⟩
    · refine Schema.distinctProperties_iff.mpr ⟨by decide, List.forall_mem_cons.mpr ⟨text _, ?_⟩⟩
      exact List.forall_mem_cons.mpr ⟨references, List.forall_mem_singleton.mpr parts⟩
  obtain ⟨text, made⟩ := Except.isOk_iff.mp
    (by decide +kernel : ((typeScript shopClasses).generate d "A").isOk)
  obtain ⟨m, converted, -, each⟩ := typeScript_members_distinct_iff properties made
  have blocks : (moduleOf shopClasses d "A").toOption.map (·.declarations.map (·.body.blocks)) =
      some [[["id", "constructor", "clone"], ["id"]],
        [["name", "size", "constructor", "clone"], ["name", "size"]]] := by decide +kernel
  rw [converted] at blocks
  refine ⟨properties, m, converted, ?_, Option.some.inj blocks⟩
  intro declaration inside
  obtain ⟨e, defined, types, exactly⟩ := each.exists_left inside
  refine ⟨types, exactly.mpr ?_⟩
  rcases List.mem_pair.mp defined with rfl | rfl
  · exact ⟨fun _ => by decide, fun _ => ⟨fun _ => by decide, fun _ => by decide⟩⟩
  · exact ⟨fun _ => by decide, fun _ => ⟨fun _ => by decide, fun _ => by decide⟩⟩

/-- Two nodes of one definition that have a property of the same name, and properties that are named
    like what is generated into classes. -/
theorem typeScript_members_repeat :
    let property (name : String) : String × Schema := (name, .ofType "string")
    let part : Schema := { properties := [property "a"] }
    let twice : Schema := { properties := [property "a"], allOf := [part] }
    let named : Schema := { properties := [property "constructor", property "clone"] }
    let d : IsolatedDocument := ⟨"A", {}, .swagger2, "2.0", [("A.X", twice), ("A.Y", named)]⟩
    (∀ e ∈ d.definitions, e.2.DistinctProperties) ∧
      ∃ m, moduleOf shopClasses d "A" = .ok m ∧
        m.declarations.map (·.body.blocks) =
          [[["a", "a", "constructor", "clone"], ["a", "a"]],
            [["constructor", "clone", "constructor", "clone"], ["constructor", "clone"]]] := by
  intro property part twice named d
  have text : (Schema.ofType "string").DistinctProperties :=
    Schema.forall_within_leaf rfl List.nodup_nil
  have parts : part.DistinctProperties :=
    Schema.distinctProperties_iff.mpr ⟨by decide, List.forall_mem_singleton.mpr text⟩
  have properties : ∀ e ∈ d.definitions, e.2.DistinctProperties := by
    intro e defined
    rcases List.mem_pair.mp defined with rfl | rfl
    · refine Schema.distinctProperties_iff.mpr ⟨by decide, ?_⟩
      exact List.forall_mem_cons.mpr ⟨text, List.forall_mem_singleton.mpr parts⟩
    · refine Schema.distinctProperties_iff.mpr ⟨by decide, ?_⟩
      exact List.forall_mem_cons.mpr ⟨text, List.forall_mem_singleton.mpr text⟩
  have blocks : (moduleOf shopClasses d "A").toOption.map (·.declarations.map (·.body.blocks)) =
      some [[["a", "a", "constructor", "clone"], ["a", "a"]],
        [["constructor", "clone", "constructor", "clone"], ["constructor", "clone"]]] := by
    decide +kernel
  obtain ⟨m, made⟩ := Except.isOk_iff.mp (by decide +kernel : (moduleOf shopClasses d "A").isOk)
  rw [made] at blocks
  exact ⟨properties, m, made, Option.some.inj blocks⟩

end Generator
end SchemaSplit
