import SchemaSplit.Proofs.Group
import SchemaSplit.Proofs.TypeScript.Module

namespace SchemaSplit.TypeScript

namespace Context

variable {c : Context} {s child : Schema} {fault : ReferenceFault}

theorem fault_of_resolve {reference : String} (failed : c.resolve reference = .error fault) :
    (fault = .unsupported reference ∧ referenceName? c.scope.root reference = none) ∨
      (fault = .unresolved reference ∧ ∃ name,
        referenceName? c.scope.root reference = some name ∧ c.identifiers.lookup name = none) := by
  rw [resolve] at failed
  cases named : referenceName? c.scope.root reference with
  | none =>
    rw [named] at failed
    cases failed
    exact .inl ⟨rfl, rfl⟩
  | some name =>
    rw [named] at failed
    cases found : c.identifiers.lookup name with
    | none =>
      simp only [found] at failed
      cases failed
      exact .inr ⟨rfl, name, rfl, found⟩
    | some identifier =>
      simp only [found] at failed
      cases failed

def HasFault (c : Context) (s : Schema) (fault : ReferenceFault) : Prop :=
  ∃ node reference, Schema.Within node s ∧ node.ref = some reference ∧
    c.resolve reference = .error fault

theorem HasFault.of_child (below : child ∈ s.children) (fails : c.HasFault child fault) :
    c.HasFault s fault := by
  obtain ⟨node, reference, inside, refers, failed⟩ := fails
  exact ⟨node, reference, .child below inside, refers, failed⟩

theorem blames_resolve {reference : String} (refers : s.ref = some reference) :
    (c.resolve reference).Blames (c.HasFault s) :=
  fun _ failed => ⟨s, reference, .refl s, refers, failed⟩

section Children

-- As for the names of types: what is known of the children is carried through each way in which the
-- type of a node is put together.
variable (below : ∀ child ∈ s.children, (typeOf c child).Blames (c.HasFault child))
include below

theorem blames_child (inside : child ∈ s.children) : (typeOf c child).Blames (c.HasFault s) :=
  (below child inside).mono fun _ => .of_child inside

theorem blames_typesOf {ss : List Schema} (inside : ss ⊆ s.children) :
    (typesOf c ss).Blames (c.HasFault s) := by
  rw [typesOf_eq_mapM]
  exact .mapM fun child member => blames_child below (inside member)

theorem blames_branchesOf {d : Option Discriminator} {ss : List Schema}
    (inside : ss ⊆ s.children) : (branchesOf c d ss).Blames (c.HasFault s) := by
  rw [branchesOf_eq_mapM]
  exact .mapM fun child member =>
    (blames_child below (inside member)).bind fun _ _ => .pure _

theorem blames_membersOf {required : List String} {properties : List (String × Schema)}
    (inside : properties.map (·.2) ⊆ s.children) :
    (membersOf c required properties).Blames (c.HasFault s) := by
  rw [membersOf_eq_mapM]
  exact .mapM fun property member =>
    (blames_child below (inside (List.mem_map_of_mem member))).bind fun _ _ => .pure _

theorem blames_recordTypeOf : (recordTypeOf c s.additional).Blames (c.HasFault s) := by
  rcases further : s.additional with _ | (allowed | values)
  · exact .pure none
  · exact .pure _
  · have inside : values ∈ s.children := by simp [Schema.children, Schema.valueSchema, further]
    exact (blames_child below inside).bind fun _ _ => .pure _

theorem blames_objectTypeOf : (objectTypeOf c s).Blames (c.HasFault s) := by
  refine (blames_recordTypeOf below).bind fun record _ => ?_
  split
  · exact .pure _
  · exact (blames_membersOf below s.properties_subset_children).bind fun _ _ => .pure _

theorem blames_statedTypeOf (name : String) : (statedTypeOf c s name).Blames (c.HasFault s) := by
  unfold statedTypeOf
  split
  any_goals exact .pure _
  · refine Except.Blames.bind ?_ fun _ _ => .pure _
    cases item : s.items with
    | none => exact .pure _
    | some items =>
      have inside : items ∈ s.children := by simp [Schema.children, item]
      exact blames_child below inside
  · exact blames_objectTypeOf below

theorem blames_plainTypeOf : (plainTypeOf c s).Blames (c.HasFault s) := by
  unfold plainTypeOf
  split
  · exact blames_statedTypeOf below _
  · refine (Except.Blames.mapM fun name _ => blames_statedTypeOf below name).bind fun types _ => ?_
    split <;> exact .pure _
  · split
    · exact blames_objectTypeOf below
    · exact .pure _

theorem blames_bareTypeOf : (bareTypeOf c s).Blames (c.HasFault s) := by
  unfold bareTypeOf
  split
  · rename_i reference refers
    exact (blames_resolve refers).map _
  · split
    · refine (blames_typesOf below s.allOf_subset_children).bind fun types _ => ?_
      split
      · exact .pure _
      · exact (blames_objectTypeOf below).bind fun _ _ => .pure _
    · split
      · exact (blames_typesOf below s.anyOf_subset_children).map _
      · split
        · exact (blames_branchesOf below s.oneOf_subset_children).map _
        · split
          · exact .pure _
          · exact blames_plainTypeOf below

end Children

theorem blames_typeOf (c : Context) (s : Schema) : (typeOf c s).Blames (c.HasFault s) := by
  have below : ∀ child ∈ s.children, (typeOf c child).Blames (c.HasFault child) := by
    intro child inside
    have smaller := Schema.sizeOf_child_lt inside
    exact blames_typeOf c child
  rw [typeOf_eq]
  exact (blames_bareTypeOf below).map _
termination_by sizeOf s

theorem blames_bodyOf (c : Context) (definition : String) (s : Schema) :
    (bodyOf c definition s).Blames (c.HasFault s) := by
  have below : ∀ s : Schema, ∀ child ∈ s.children, (typeOf c child).Blames (c.HasFault child) :=
    fun _ child _ => blames_typeOf c child
  unfold bodyOf
  split
  · exact .pure _
  · split
    · exact (blames_typeOf c s).bind fun _ _ => .pure _
    · rename_i shape shaped
      have bases : (shape.bases.mapM c.resolve).Blames (c.HasFault s) := by
        refine .mapM fun reference member => ?_
        rw [(bases_of_shape shaped).1] at member
        obtain ⟨m, inside, refers⟩ := List.mem_filterMap.mp member
        exact (blames_resolve refers).mono fun _ =>
          .of_child (s.allOf_subset_children inside)
      have parts : (shape.parts.mapM fun part =>
          membersOf c part.required part.properties).Blames (c.HasFault s) := by
        refine .mapM fun part member => ?_
        have members : (membersOf c part.required part.properties).Blames (c.HasFault part) :=
          blames_membersOf (below part) part.properties_subset_children
        rcases part_of_shape shaped member with rfl | ⟨inside, -⟩
        · exact members
        · exact members.mono fun _ => .of_child (s.allOf_subset_children inside)
      refine bases.bind fun _ _ => parts.bind fun _ _ => ?_
      split <;> exact .pure _

end Context

def ReferenceFault.report (document definition : String) : ReferenceFault → GenerationError
  | unsupported reference => .unsupportedReference definition reference
  | unresolved reference => .unresolvedReference document definition reference

theorem blames_declarationOf (c : Context) (document definition identifier : String) (s : Schema) :
    (declarationOf c document definition identifier s).Blames fun error =>
      ∃ fault, c.HasFault s fault ∧ error = fault.report document definition := by
  intro error failed
  rw [declarationOf] at failed
  cases made : bodyOf c definition s with
  | ok body =>
    rw [made] at failed
    cases failed
  | error fault =>
    refine ⟨fault, Context.blames_bodyOf c definition s fault made, ?_⟩
    rw [made] at failed
    cases fault <;> cases failed <;> rfl

theorem blames_moduleOf (settings : Settings) (d : IsolatedDocument) (fileName : String) :
    (moduleOf settings d fileName).Blames fun error =>
      ∃ e ∈ d.definitions, ∃ fault, (Context.ofDocument settings d).HasFault e.2 fault ∧
        error = fault.report d.key e.1 := by
  refine .bind (.mapM fun entry member => ?_) fun _ _ => .pure _
  refine (blames_declarationOf _ d.key entry.1.1 entry.2 entry.1.2).mono ?_
  rintro error ⟨fault, fails, reported⟩
  exact ⟨entry.1, (List.of_mem_zip member).1, fault, fails, reported⟩

theorem Identifiers.lookup_eq_none {interfaces : Bool} {definitions : List String} {name : String} :
    (identifiers interfaces definitions).lookup name = none ↔ name ∉ definitions := by
  have named : (identifiers interfaces definitions).map (·.1) = definitions :=
    List.map_fst_zip (Nat.le_of_eq (length_assignIdentifiers _ _ _).symm)
  have known : name ∈ definitions ↔ ∃ e ∈ identifiers interfaces definitions, e.1 = name := by
    rw [← List.mem_map, named]
  rw [List.lookup_eq_none_iff, known, not_exists]
  exact forall_congr' fun e => by rw [not_and, bne_iff_ne, ne_comm]

theorem Identifiers.exists_lookup (interfaces : Bool) {definitions : List String} {name : String}
    (known : name ∈ definitions) :
    ∃ identifier, (identifiers interfaces definitions).lookup name = some identifier := by
  refine Option.ne_none_iff_exists'.mp fun none => ?_
  exact Identifiers.lookup_eq_none.mp none known

end SchemaSplit.TypeScript

namespace SchemaSplit.Generator

open TypeScript Definitions

section
variable {d : Document} (distinct : (names d.definitions).Nodup) {separator : Char} {g : Group}
  (member : g ∈ d.groups separator)
include distinct member

/-- What is missing in the document of a group is missing in the source. -/
theorem fault_isolate {settings : Settings} {fileName : String} {error : GenerationError}
    (failed : (typeScript settings).generate (d.isolate g) fileName = .error error) :
    ∃ definition s node reference, (definition, s) ∈ (d.isolate g).definitions ∧
      Schema.Within node s ∧ node.ref = some reference ∧
      ((error = .unresolvedReference g.key definition reference ∧ ∃ name,
          referenceName? d.dialect.referenceRoot reference = some name ∧
            name ∉ names d.definitions) ∨
        (error = .unsupportedReference definition reference ∧
          referenceName? d.dialect.referenceRoot reference = none)) := by
  obtain ⟨⟨definition, s⟩, inside, fault, ⟨node, reference, within, refers, unresolved⟩, rfl⟩ :=
    (blames_moduleOf settings (d.isolate g) fileName).map _ error failed
  refine ⟨definition, s, node, reference, inside, within, refers, ?_⟩
  rcases Context.fault_of_resolve unresolved with ⟨rfl, unnamed⟩ | ⟨rfl, name, named, unknown⟩
  · exact .inr ⟨rfl, unnamed⟩
  · refine .inl ⟨rfl, name, named, fun defined => ?_⟩
    obtain ⟨spelled, nonempty⟩ := referenceName?_eq_some.mp named
    have mentions : s.Mentions d.dialect.referenceRoot name :=
      ⟨node, within, spelled ▸ refers, nonempty⟩
    exact Identifiers.lookup_eq_none.mp unknown
      (Document.mem_isolate_of_mentions member distinct inside mentions defined)

/-- A group has its module if the source defines all that the document of the group refers to. One
    without a module has a definition with a reference that names nothing in the whole source, or
    with one that is spelled in no way that could name anything. -/
theorem typeScript_fault_isolate (settings : Settings) (fileName : String) :
    ((∀ e ∈ (d.isolate g).definitions, ∀ node, Schema.Within node e.2 →
        ∀ reference, node.ref = some reference → ∃ name ∈ names d.definitions, name ≠ "" ∧
          reference = d.dialect.referenceRoot ++ name) →
      ∃ text, (typeScript settings).generate (d.isolate g) fileName = .ok text) ∧
    ∀ error, (typeScript settings).generate (d.isolate g) fileName = .error error →
      ∃ definition s node reference, (definition, s) ∈ (d.isolate g).definitions ∧
        Schema.Within node s ∧ node.ref = some reference ∧
        ((error = .unresolvedReference g.key definition reference ∧ ∃ name, name ≠ "" ∧
            reference = d.dialect.referenceRoot ++ name ∧ name ∉ names d.definitions) ∨
          (error = .unsupportedReference definition reference ∧
            (¬ d.dialect.referenceRoot.toList <+: reference.toList ∨
              reference = d.dialect.referenceRoot))) := by
  constructor
  · intro all
    cases made : (typeScript settings).generate (d.isolate g) fileName with
    | ok text => exact ⟨text, rfl⟩
    | error error =>
      obtain ⟨definition, s, node, reference, inside, within, refers, why⟩ :=
        fault_isolate distinct member made
      obtain ⟨name, defined, nonempty, spelled⟩ :=
        all (definition, s) inside node within reference refers
      have named := referenceName?_eq_some.mpr ⟨spelled, nonempty⟩
      rcases why with ⟨-, other, named', missing⟩ | ⟨-, unnamed⟩
      · rw [named] at named'
        cases named'
        exact absurd defined missing
      · rw [named] at unnamed
        cases unnamed
  · intro error failed
    obtain ⟨definition, s, node, reference, inside, within, refers, why⟩ :=
      fault_isolate distinct member failed
    refine ⟨definition, s, node, reference, inside, within, refers, ?_⟩
    rcases why with ⟨rfl, name, named, missing⟩ | ⟨rfl, unnamed⟩
    · obtain ⟨spelled, nonempty⟩ := referenceName?_eq_some.mp named
      exact .inl ⟨rfl, name, nonempty, spelled, missing⟩
    · exact .inr ⟨rfl, referenceName?_eq_none.mp unnamed⟩

end

/-- Two definitions of different namespaces that refer to each other, and a definition that extends
    one that is not there. -/
theorem typeScript_fault_isolate_gone :
    let one : Schema := { Schema.ofType "object" with
      properties := [("two", .reference "#/definitions/B.Two")] }
    let two : Schema := { Schema.ofType "array" with
      items := some (.reference "#/definitions/A.One") }
    let bad : Schema := { allOf := [.reference "#/definitions/C.Gone"] }
    let d : Document := { definitions := [("A.One", one), ("B.Two", two)] }
    let e : Document := { definitions := [("C.Bad", bad)] }
    let g : Group := ⟨"A", [("A.One", one)]⟩
    let h : Group := ⟨"C", [("C.Bad", bad)]⟩
    let missing : GenerationError := .unresolvedReference "C" "C.Bad" "#/definitions/C.Gone"
    (names d.definitions).Nodup ∧ g ∈ d.groups '.' ∧
      (∃ text, (typeScript {}).generate (d.isolate g) "A" = .ok text) ∧
      (names e.definitions).Nodup ∧ h ∈ e.groups '.' ∧
      (typeScript {}).generate (e.isolate h) "C" = .error missing ∧
      ∃ definition s node reference, (definition, s) ∈ (e.isolate h).definitions ∧
        Schema.Within node s ∧ node.ref = some reference ∧
        missing = .unresolvedReference "C" definition reference := by
  intro one two bad d e g h missing
  have distinct : (names d.definitions).Nodup := by decide
  have distinct' : (names e.definitions).Nodup := by decide
  have keys : ["A.One", "B.Two", "C.Bad"].map (namespaceKey '.') = ["A", "B", "C"] := by
    decide +kernel
  simp only [List.map_cons, List.map_nil, List.cons.injEq, and_true] at keys
  have member : g ∈ d.groups '.' := Group.mem_ofDefinitions.mpr ⟨by simp [d, g, keys], nofun⟩
  have member' : h ∈ e.groups '.' := Group.mem_ofDefinitions.mpr ⟨by simp [e, h, keys], nofun⟩
  have alone : e.isolate h = ⟨"C", {}, .swagger2, "2.0", h.members⟩ :=
    Document.isolate_of_closed member' distinct' (by decide +kernel)
  have failed : (typeScript {}).generate (e.isolate h) "C" = .error missing := by
    rw [alone]
    decide +kernel
  refine ⟨distinct, member, (typeScript_fault_isolate distinct member {} "A").1 ?_, distinct',
    member', failed, ?_⟩
  · have part := Document.partOf_isolate member distinct
    have here : ∀ x ∈ d.definitions, ∀ node, Schema.Within node x.2 →
        ∀ reference, node.ref = some reference → ∃ name ∈ names d.definitions, name ≠ "" ∧
          reference = d.dialect.referenceRoot ++ name := by
      have nonempty : ∀ name ∈ names d.definitions, name ≠ "" := by decide
      have leaf (target : String) (known : target ∈ names d.definitions) :
          ∀ node, Schema.Within node (.reference ("#/definitions/" ++ target)) →
            ∀ reference, node.ref = some reference → ∃ name ∈ names d.definitions, name ≠ "" ∧
              reference = d.dialect.referenceRoot ++ name := by
        refine Schema.forall_within_iff.mpr ⟨fun reference refers => ?_, nofun⟩
        cases refers
        exact ⟨target, known, nonempty target known, rfl⟩
      refine List.forall_mem_cons.mpr ⟨?_, List.forall_mem_singleton.mpr ?_⟩
      · exact Schema.forall_within_iff.mpr
          ⟨nofun, List.forall_mem_singleton.mpr (leaf "B.Two" (by decide))⟩
      · exact Schema.forall_within_iff.mpr
          ⟨nofun, List.forall_mem_singleton.mpr (leaf "A.One" (by decide))⟩
    exact fun x inside => here x (part.subset inside)
  · obtain ⟨definition, s, node, reference, inside, within, refers, why⟩ :=
      (typeScript_fault_isolate distinct' member' {} "C").2 missing failed
    refine ⟨definition, s, node, reference, inside, within, refers, ?_⟩
    rcases why with ⟨same, -⟩ | ⟨same, -⟩
    · exact same
    · simp [missing] at same

end SchemaSplit.Generator
