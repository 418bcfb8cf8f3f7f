import SchemaSplit.Proofs.TypeScript.Fault

/-!
When a module can be made: if and only if every reference names a definition of the document, of
those references that some type is written with. Which these are, schemas tell alone, so settings never
decide whether there is a module, and without one it is the same definition that is to blame.
-/

namespace SchemaSplit

namespace Schema

def entryNodes (s : Schema) : List Schema := s.valueSchema.toList ++ s.properties.map (·.2)

def statedNodes (s : Schema) (name : String) : List Schema :=
  match name with
  | "array" => s.items.toList
  | "object" => s.entryNodes
  | _ => []

def plainNodes (s : Schema) : List Schema :=
  match s.type with
  | some (.single name) => s.statedNodes name
  | some (.multiple names) => (names.filter (· != "null")).flatMap s.statedNodes
  | none => if !s.properties.isEmpty || s.additional.isSome then s.entryNodes else []

/-- The nodes below that the type of a node is made of. All others never appear in a module. -/
def typeNodes (s : Schema) : List Schema :=
  if s.ref.isSome then []
  else if !s.allOf.isEmpty then s.allOf ++ (if s.properties.isEmpty then [] else s.entryNodes)
  else if !s.anyOf.isEmpty then s.anyOf
  else if !s.oneOf.isEmpty then s.oneOf
  else if !s.enumValues.isEmpty then []
  else s.plainNodes

theorem entryNodes_subset_children (s : Schema) : s.entryNodes ⊆ s.children := by
  refine List.append_subset.mpr ⟨fun child inside => ?_, s.properties_subset_children⟩
  exact mem_children.mpr (.inr (.inr (.inl (Option.mem_toList.mp inside))))

theorem statedNodes_subset_children (s : Schema) (name : String) :
    s.statedNodes name ⊆ s.children := by
  unfold statedNodes
  split
  · intro child inside
    exact mem_children.mpr (.inr (.inl (Option.mem_toList.mp inside)))
  · exact s.entryNodes_subset_children
  · exact List.nil_subset _

theorem plainNodes_subset_children (s : Schema) : s.plainNodes ⊆ s.children := by
  unfold plainNodes
  split
  · exact s.statedNodes_subset_children _
  · intro child inside
    obtain ⟨name, -, inside⟩ := List.mem_flatMap.mp inside
    exact s.statedNodes_subset_children name inside
  · split
    · exact s.entryNodes_subset_children
    · exact List.nil_subset _

theorem typeNodes_subset_children (s : Schema) : s.typeNodes ⊆ s.children := by
  unfold typeNodes
  split_ifs
  · exact List.nil_subset _
  · rw [List.append_nil]
    exact s.allOf_subset_children
  · exact List.append_subset.mpr ⟨s.allOf_subset_children, s.entryNodes_subset_children⟩
  · exact s.anyOf_subset_children
  · exact s.oneOf_subset_children
  · exact List.nil_subset _
  · exact s.plainNodes_subset_children

inductive TypeWithin : Schema → Schema → Prop
  | refl (s : Schema) : TypeWithin s s
  | step {node c s : Schema} (below : c ∈ s.typeNodes) (inside : TypeWithin node c) :
      TypeWithin node s

theorem forall_typeWithin_iff {P : Schema → Prop} {s : Schema} :
    (∀ node, TypeWithin node s → P node) ↔
      P s ∧ ∀ c ∈ s.typeNodes, ∀ node, TypeWithin node c → P node := by
  constructor
  · exact fun all => ⟨all s (.refl s), fun c below node inside => all node (.step below inside)⟩
  · rintro ⟨here, below⟩ node inside
    cases inside with
    | refl => exact here
    | step member inside => exact below _ member node inside

end Schema

namespace TypeScript

section Nodes

variable (c : Context)

theorem isOk_typesOf (ss : List Schema) :
    (typesOf c ss).isOk = ss.all fun s => (typeOf c s).isOk := by
  rw [typesOf_eq_mapM, List.isOk_mapM]

theorem isOk_branchesOf (d : Option Discriminator) (ss : List Schema) :
    (branchesOf c d ss).isOk = ss.all fun s => (typeOf c s).isOk := by
  rw [branchesOf_eq_mapM, List.isOk_mapM]
  congr 1
  funext s
  rw [branchOf, Except.isOk_bind fun _ => Except.isOk_pure _, Bool.and_true]

theorem isOk_membersOf (required : List String) (properties : List (String × Schema)) :
    (membersOf c required properties).isOk =
      (properties.map (·.2)).all fun s => (typeOf c s).isOk := by
  rw [membersOf_eq_mapM, List.isOk_mapM, List.all_map]
  congr 1
  funext property
  rw [memberOf, Except.isOk_bind fun _ => Except.isOk_pure _, Bool.and_true, Function.comp_apply]

theorem isOk_recordTypeOf (s : Schema) :
    (recordTypeOf c s.additional).isOk = s.valueSchema.toList.all fun s => (typeOf c s).isOk := by
  rcases further : s.additional with _ | (allowed | values)
  · simp [recordTypeOf, Schema.valueSchema, further]
  · simp [recordTypeOf, Schema.valueSchema, further]
  · rw [recordTypeOf, Except.isOk_bind fun _ => Except.isOk_pure _]
    simp [Schema.valueSchema, further]

theorem isOk_objectTypeOf (s : Schema) :
    (objectTypeOf c s).isOk = s.entryNodes.all fun s => (typeOf c s).isOk := by
  rw [Schema.entryNodes, List.all_append, ← isOk_recordTypeOf, ← isOk_membersOf c s.required]
  refine Except.isOk_bind fun record => ?_
  split
  · rename_i none
    rw [none]
    rfl
  · rw [Except.isOk_bind fun _ => Except.isOk_pure _, Bool.and_true]

theorem isOk_statedTypeOf (s : Schema) (name : String) :
    (statedTypeOf c s name).isOk = (s.statedNodes name).all fun s => (typeOf c s).isOk := by
  unfold statedTypeOf
  split
  any_goals rfl
  · rw [Except.isOk_bind fun _ => Except.isOk_pure _, Bool.and_true, Schema.statedNodes]
    cases s.items with
    | none => rfl
    | some items => simp [itemTypeOf]
  · exact isOk_objectTypeOf c s
  · rename_i array object
    rw [Schema.statedNodes]
    · rfl
    · exact array
    · exact object

theorem isOk_plainTypeOf (s : Schema) :
    (plainTypeOf c s).isOk = s.plainNodes.all fun s => (typeOf c s).isOk := by
  rw [plainTypeOf, Schema.plainNodes]
  rcases s.type with _ | (name | names)
  · dsimp only
    split
    · exact isOk_objectTypeOf c s
    · rfl
  · exact isOk_statedTypeOf c s name
  · have stated : ((names.filter (· != "null")).mapM (statedTypeOf c s)).isOk =
        (names.filter (· != "null")).all fun name =>
          (s.statedNodes name).all fun s => (typeOf c s).isOk := by
      rw [List.isOk_mapM]
      congr 1
      funext name
      exact isOk_statedTypeOf c s name
    rw [List.all_flatMap, ← stated]
    refine (Except.isOk_bind fun types => ?_).trans (Bool.and_true _)
    split <;> rfl

/-- A node has a type if its own reference can be written, and if all have types that its type is
    made of. -/
theorem isOk_typeOf (s : Schema) :
    (typeOf c s).isOk = ((s.ref.toList.all fun reference => (c.resolve reference).isOk) &&
      s.typeNodes.all fun s => (typeOf c s).isOk) := by
  rw [typeOf_eq, Except.isOk_map, bareTypeOf, Schema.typeNodes]
  cases s.ref with
  | some reference => simp
  | none =>
    simp only [Option.isSome_none, Bool.false_eq_true, if_false, Option.toList_none, List.all_nil,
      Bool.true_and]
    split
    · rw [List.all_append, ← isOk_typesOf]
      refine Except.isOk_bind fun types => ?_
      split
      · rfl
      · rw [Except.isOk_bind fun _ => Except.isOk_pure _, Bool.and_true, isOk_objectTypeOf]
    · split
      · rw [Except.isOk_map, isOk_typesOf]
      · split
        · rw [Except.isOk_map, isOk_branchesOf]
        · rw [Schema.enumValues]
          rcases s.keywords.enum with _ | (_ | ⟨value, values⟩)
          · exact isOk_plainTypeOf c s
          · exact isOk_plainTypeOf c s
          · rfl

theorem isOk_typeOf_iff (s : Schema) :
    (typeOf c s).isOk ↔ ∀ node, Schema.TypeWithin node s →
      ∀ reference, node.ref = some reference → (c.resolve reference).isOk := by
  rw [isOk_typeOf, Bool.and_eq_true, List.all_eq_true, List.all_eq_true,
    Schema.forall_typeWithin_iff]
  refine and_congr ?_ (forall₂_congr fun child below => ?_)
  · exact forall_congr' fun reference => by rw [Option.mem_toList]
  · have smaller := Schema.sizeOf_child_lt (s.typeNodes_subset_children below)
    exact isOk_typeOf_iff child
termination_by sizeOf s

end Nodes

theorem PlainObject.typeNodes {s : Schema} (plain : PlainObject s) :
    s.typeNodes = s.allOf ++ s.properties.map (·.2) := by
  have entries : s.entryNodes = s.properties.map (·.2) := by
    rw [Schema.entryNodes, plain.valueSchema]
    rfl
  have none : s.properties.isEmpty → s.properties.map (·.2) = [] := by
    intro isEmpty
    rw [List.isEmpty_iff.mp isEmpty]
    rfl
  have noValues : s.enumValues = [] := by
    rw [Schema.enumValues, plain.enum]
    rfl
  have alone : s.plainNodes = s.properties.map (·.2) := by
    rw [Schema.plainNodes]
    rcases plain.type with untyped | object
    · rw [untyped, ← entries]
      dsimp only
      split
      · rfl
      · rename_i without
        rw [entries, none]
        cases empty : s.properties.isEmpty <;> simp [empty] at without ⊢
    · rw [object]
      exact entries
  rw [Schema.typeNodes, plain.ref, plain.anyOf, plain.oneOf, noValues, entries, alone]
  rcases s.allOf with _ | ⟨member, members⟩
  · rfl
  · simp only [Option.isSome_none, Bool.false_eq_true, if_false, List.isEmpty_cons, Bool.not_false,
      if_true]
    split
    · rename_i isEmpty
      rw [none isEmpty]
    · rfl

section Document

variable (settings : Settings) (d : IsolatedDocument)

theorem isOk_resolve (reference : String) :
    ((Context.ofDocument settings d).resolve reference).isOk =
      (referenceName? d.dialect.referenceRoot reference).any d.contains := by
  have root : (Context.ofDocument settings d).scope.root = d.dialect.referenceRoot := rfl
  rw [Context.resolve, root]
  cases referenceName? d.dialect.referenceRoot reference with
  | none => rfl
  | some name =>
    rw [Option.any_some, IsolatedDocument.contains]
    by_cases known : name ∈ d.names
    · obtain ⟨identifier, found⟩ := Identifiers.exists_lookup settings.hasInterfaces known
      rw [List.contains_iff_mem.mpr known]
      dsimp only
      rw [show (Context.ofDocument settings d).identifiers.lookup name = _ from found]
      rfl
    · have missing := (@Identifiers.lookup_eq_none settings.hasInterfaces _ _).mpr known
      rw [Bool.eq_false_iff.mpr (mt List.contains_iff_mem.mp known)]
      dsimp only
      rw [show (Context.ofDocument settings d).identifiers.lookup name = _ from missing]
      rfl

theorem isOk_resolve_of_target {reference name : String} {target : Schema}
    (found : (Scope.ofDocument d).target? reference = some (name, target)) :
    ((Context.ofDocument settings d).resolve reference).isOk := by
  obtain ⟨named, looked⟩ := Scope.target?_eq_some.mp found
  have root : (Scope.ofDocument d).root = d.dialect.referenceRoot := rfl
  rw [isOk_resolve, ← root, named, Option.any_some, IsolatedDocument.contains, List.contains_iff_mem]
  exact Definitions.mem_names.mpr ⟨target, looked⟩

/-- The members of a shape have types exactly if the properties of its parts have. -/
theorem isOk_allOf_of_adds {style : TypeStyle} {onTheWay : List String} {ss : List Schema}
    {members : List ShapeMember}
    (added : List.Forall₂ (Adds (.ofDocument d) style onTheWay) ss members) :
    (ss.all fun s => (typeOf (.ofDocument settings d) s).isOk) =
      (members.filterMap (·.node?)).all fun part =>
        (membersOf (.ofDocument settings d) part.required part.properties).isOk := by
  induction added with
  | nil => rfl
  | cons adds _ ih =>
    rw [List.all_cons, List.filterMap_cons, ih]
    cases adds with
    | base refers found =>
      rw [isOk_typeOf, refers, Schema.typeNodes, refers]
      simp [isOk_resolve_of_target settings d found, ShapeMember.node?]
    | part inline plain =>
      obtain ⟨plain, noMembers⟩ := isPlainObject_iff.mp plain
      have noMembers := noMembers.resolve_left nofun
      rw [isOk_typeOf, inline, plain.typeNodes, noMembers, ShapeMember.node?, List.all_cons,
        isOk_membersOf]
      rfl

/-- A definition is declared if its values are listed, and otherwise exactly if it has a type,
    whether it has a shape or not. -/
theorem isOk_bodyOf (definition : String) (s : Schema) :
    (bodyOf (.ofDocument settings d) definition s).isOk =
      (!s.enumValues.isEmpty || (typeOf (.ofDocument settings d) s).isOk) := by
  unfold bodyOf
  split
  · rename_i values
    rw [values]
    rfl
  · rename_i values
    rw [Bool.not_eq_true] at values
    rw [values, Bool.false_or]
    split
    · rw [Except.isOk_bind fun _ => Except.isOk_pure _, Bool.and_true]
    · rename_i shape shaped
      have plain := (plain_of_shape shaped).1
      obtain ⟨-, members, added, assembled⟩ := shape?_eq_some.mp shaped
      obtain ⟨rfl, -⟩ := Shape.ofMembers?_eq_some.mp assembled
      have bases : ((members.filterMap (·.reference?)).mapM
          (Context.ofDocument settings d).resolve).isOk = true := by
        rw [List.isOk_mapM, List.all_eq_true]
        intro reference member
        obtain ⟨name, target, -, found, -⟩ := shape_of_base shaped member
        exact isOk_resolve_of_target settings d found
      have parts : (typeOf (.ofDocument settings d) s).isOk =
          ((s :: members.filterMap (·.node?)).mapM fun part =>
            membersOf (.ofDocument settings d) part.required part.properties).isOk := by
        rw [isOk_typeOf, plain.ref, plain.typeNodes, List.all_append,
          isOk_allOf_of_adds settings d added, List.isOk_mapM, List.all_cons, isOk_membersOf,
          Option.toList_none, List.all_nil, Bool.true_and, Bool.and_comm]
      rw [parts]
      refine (Except.isOk_bind fun _ => ?_).trans ((congrArg₂ and bases rfl).trans (Bool.true_and _))
      refine (Except.isOk_bind fun _ => ?_).trans (Bool.and_true _)
      split <;> rfl

end Document

end TypeScript

def GenerationError.definition? : GenerationError → Option String
  | unresolvedReference _ definition _ | unsupportedReference definition _ => some definition
  | unwritable .. => none

/-- A definition that is not told by its values alone and whose type is made of a node with a reference
    to nothing in the document. -/
def IsolatedDocument.Fails (d : IsolatedDocument) (s : Schema) : Prop :=
  s.enumValues = [] ∧ ∃ node reference, Schema.TypeWithin node s ∧ node.ref = some reference ∧
    ∀ name, referenceName? d.dialect.referenceRoot reference = some name → name ∉ d.names

namespace TypeScript

variable (settings : Settings) (d : IsolatedDocument)

theorem fails_iff (definition : String) (s : Schema) :
    d.Fails s ↔ ¬ (bodyOf (.ofDocument settings d) definition s).isOk := by
  rw [isOk_bodyOf, Bool.or_eq_true, not_or, isOk_typeOf_iff, IsolatedDocument.Fails]
  refine and_congr (by simp) ?_
  push Not
  refine exists_congr fun node => ⟨?_, ?_⟩
  · rintro ⟨reference, inside, refers, unknown⟩
    refine ⟨inside, reference, refers, ?_⟩
    rw [isOk_resolve]
    cases named : referenceName? d.dialect.referenceRoot reference with
    | none => nofun
    | some name => exact fun known => unknown name named (List.contains_iff_mem.mp known)
  · rintro ⟨inside, reference, refers, failed⟩
    refine ⟨reference, inside, refers, fun name named known => failed ?_⟩
    rw [isOk_resolve, named]
    exact List.contains_iff_mem.mpr known

theorem declarationOf_isOk (c : Context) (document definition identifier : String) (s : Schema) :
    (declarationOf c document definition identifier s).isOk = (bodyOf c definition s).isOk := by
  rw [declarationOf]
  rcases bodyOf c definition s with (_ | _) | _ <;> rfl

theorem definition_of_declarationOf {c : Context} {document definition identifier : String}
    {s : Schema} {error : GenerationError}
    (failed : declarationOf c document definition identifier s = .error error) :
    error.definition? = some definition := by
  obtain ⟨fault, -, rfl⟩ := blames_declarationOf c document definition identifier s error failed
  cases fault <;> rfl

/-- There is a module unless some definition fails, and the first one that does is reported. -/
theorem moduleOf_fails (fileName : String) :
    ((moduleOf settings d fileName).isOk ↔ ∀ e ∈ d.definitions, ¬ d.Fails e.2) ∧
    ∀ error, moduleOf settings d fileName = .error error →
      ∃ before e after, d.definitions = before ++ e :: after ∧ d.Fails e.2 ∧
        (∀ b ∈ before, ¬ d.Fails b.2) ∧ error.definition? = some e.1 := by
  let c := Context.ofDocument settings d
  let entries := d.definitions.zip (c.identifiers.map (·.2))
  have first : entries.map (·.1) = d.definitions := by
    refine List.map_fst_zip (Nat.le_of_eq ?_)
    rw [show c.identifiers.map (·.2) = _ from Identifiers.map_snd _ _, length_assignIdentifiers,
      IsolatedDocument.names, List.length_map]
  have declared : ∀ x : (String × Schema) × String,
      (declarationOf c d.key x.1.1 x.2 x.1.2).isOk ↔ ¬ d.Fails x.1.2 := by
    intro x
    rw [declarationOf_isOk, fails_iff settings d x.1.1, not_not]
  constructor
  · have made : (moduleOf settings d fileName).isOk =
        entries.all fun x => (declarationOf c d.key x.1.1 x.2 x.1.2).isOk := by
      rw [← List.isOk_mapM]
      exact (Except.isOk_bind fun _ => Except.isOk_pure _).trans (Bool.and_true _)
    rw [made, List.all_eq_true, ← first, List.forall_mem_map]
    exact forall₂_congr fun x _ => declared x
  · intro error failed
    have failed : entries.mapM (fun x => declarationOf c d.key x.1.1 x.2 x.1.2) = .error error := by
      cases made : entries.mapM fun x => declarationOf c d.key x.1.1 x.2 x.1.2 with
      | ok declarations =>
        have same : moduleOf settings d fileName = .ok ⟨header settings d fileName, declarations⟩ :=
          congrArg (fun x => x >>= fun ds => pure (Module.mk (header settings d fileName) ds)) made
        rw [failed] at same
        cases same
      | error other =>
        have same : moduleOf settings d fileName = .error other :=
          congrArg (fun x => x >>= fun ds => pure (Module.mk (header settings d fileName) ds)) made
        rw [failed] at same
        exact congrArg Except.error (Except.error.inj same).symm
    obtain ⟨before, x, after, split, fine, failed⟩ := List.mapM_eq_error.mp failed
    refine ⟨before.map (·.1), x.1, after.map (·.1), ?_, ?_, ?_, definition_of_declarationOf failed⟩
    · rw [← first, split, List.map_append, List.map_cons]
    · by_contra fine
      have made := (declared x).mpr fine
      rw [failed] at made
      cases made
    · exact List.forall_mem_map.mpr fun b inside => (declared b).mp (fine b inside)

end TypeScript

namespace Generator

open TypeScript

/-- Settings and file names decide nothing about whether a document has its module. Without one, the
    definition reported is the first one in the document that refers to nothing at a node that its
    type is made of, whatever the settings are. -/
theorem typeScript_fails_alike (d : IsolatedDocument) (settings others : Settings)
    (fileName otherName : String) :
    ((∃ text, (typeScript settings).generate d fileName = .ok text) ↔
      ∃ text, (typeScript others).generate d otherName = .ok text) ∧
    ∀ error, (typeScript settings).generate d fileName = .error error →
      ∃ error', (typeScript others).generate d otherName = .error error' ∧
        ∃ before e after, d.definitions = before ++ e :: after ∧ d.Fails e.2 ∧
          (∀ b ∈ before, ¬ d.Fails b.2) ∧
          error.definition? = some e.1 ∧ error'.definition? = some e.1 := by
  obtain ⟨made, blamed⟩ := moduleOf_fails settings d fileName
  obtain ⟨made', blamed'⟩ := moduleOf_fails others d otherName
  have alike : (∃ text, (typeScript settings).generate d fileName = .ok text) ↔
      ∃ text, (typeScript others).generate d otherName = .ok text := by
    rw [← Except.isOk_iff, ← Except.isOk_iff, typeScript, typeScript, Except.isOk_map,
      Except.isOk_map, made, made']
  refine ⟨alike, fun error failed => ?_⟩
  obtain ⟨before, e, after, split, fails, fine, reported⟩ :=
    blamed error (Except.map_eq_error.mp failed)
  cases result : (typeScript others).generate d otherName with
  | ok text =>
    obtain ⟨text, made⟩ := alike.mpr ⟨text, result⟩
    rw [failed] at made
    cases made
  | error error' =>
    obtain ⟨before', e', after', split', fails', fine', reported'⟩ :=
      blamed' error' (Except.map_eq_error.mp result)
    -- Both are the first definition of the document that fails.
    have same : e = e' := by
      classical
      have found : d.definitions.find? (fun e => d.Fails e.2) = some e :=
        List.find?_eq_some_iff_append.mpr ⟨by simpa using fails, before, after, split, by simpa using fine⟩
      have found' : d.definitions.find? (fun e => d.Fails e.2) = some e' :=
        List.find?_eq_some_iff_append.mpr
          ⟨by simpa using fails', before', after', split', by simpa using fine'⟩
      exact Option.some.inj (found.symm.trans found')
    exact ⟨error', rfl, before, e, after, split, fails, fine, reported, same ▸ reported'⟩

/-- A definition with two bases is an interface, but no class. So it is another one of its two
    references to nothing that is met first, in the same definition. -/
theorem typeScript_fails_alike_bases :
    let part : Schema := { properties := [("last", .reference "#/definitions/A.Last")] }
    let both : Schema := {
      properties := [("first", .reference "#/definitions/A.First")]
      allOf := [.reference "#/definitions/A.One", .reference "#/definitions/A.Two", part] }
    let d : IsolatedDocument := ⟨"A", {}, .swagger2, "2.0",
      [("A.One", .ofType "object"), ("A.Two", .ofType "object"), ("A.Both", both)]⟩
    let error : GenerationError := .unresolvedReference "A" "A.Both" "#/definitions/A.First"
    (typeScript {}).generate d "A" = .error error ∧
      (∃ error', (typeScript shopClasses).generate d "B" = .error error' ∧
        error'.definition? = some "A.Both") ∧
      (typeScript shopClasses).generate d "B" ≠ .error error := by
  intro part both d error
  have failed : (typeScript {}).generate d "A" = .error error := by decide +kernel
  obtain ⟨error', failed', _, _, _, -, -, -, reported, reported'⟩ :=
    (typeScript_fails_alike d {} shopClasses "A" "B").2 error failed
  exact ⟨failed, ⟨error', failed', reported'.trans reported.symm⟩, by decide +kernel⟩

end Generator
end SchemaSplit
