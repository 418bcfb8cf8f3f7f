import SchemaSplit.Proofs.TypeScript.Fault

namespace SchemaSplit

open TypeScript Definitions

def IsolatedDocument.Extends (d : IsolatedDocument) (e : String × Schema) (base : String) : Prop :=
  e.2.enumValues = [] ∧ ∃ shape, shape? (.ofDocument d) .classType [e.1] e.2 = some shape ∧
    ∃ reference ∈ shape.bases, referenceName? d.dialect.referenceRoot reference = some base

def IsolatedDocument.BasesFirst (d : IsolatedDocument) : Prop :=
  ∀ (before : Definitions) e after, d.definitions = before ++ e :: after →
    ∀ base, d.Extends e base → base ∈ Definitions.names before

theorem IsolatedDocument.Extends.target {d : IsolatedDocument} {e : String × Schema} {base : String}
    (inherits : d.Extends e base) :
    ∃ s shape, d.definitions.lookup base = some s ∧ s.enumValues = [] ∧
      shape? (.ofDocument d) .classType [base] s = some shape := by
  obtain ⟨-, shape, shaped, reference, member, named⟩ := inherits
  obtain ⟨name, s, shape', found, noValues, shaped'⟩ := shape_of_base shaped member
  obtain ⟨named', looked⟩ := Scope.target?_eq_some.mp found
  have root : (Scope.ofDocument d).root = d.dialect.referenceRoot := rfl
  rw [root, named] at named'
  cases named'
  exact ⟨s, shape', looked, noValues, shaped'⟩

namespace TypeScript

def Body.base? : Body → Option String
  | classType base .. => base
  | _ => none

def Module.BasesFirst (m : Module) : Prop :=
  ∀ before declaration after, m.declarations = before ++ declaration :: after →
    ∀ base, declaration.body.base? = some base → ∃ b ∈ before, b.name = base ∧ b.body.isClass

theorem base?_objectBody {settings : Settings} (classes : settings.typeStyle = .classType)
    (bases : List String) (members : List (Member TypeExpr)) :
    (objectBody settings bases members).base? = bases.head? := by
  rw [objectBody, classes]
  rfl

section Module

variable {settings : Settings} {d : IsolatedDocument} {m : Module} {fileName : String}

theorem base?_eq_some (classes : settings.typeStyle = .classType) {e : String × Schema}
    {body : Body} (made : bodyOf (.ofDocument settings d) e.1 e.2 = .ok body) {identifier : String} :
    body.base? = some identifier ↔ ∃ base, d.Extends e base ∧
      (Context.ofDocument settings d).identifiers.lookup base = some identifier := by
  have style : (Context.ofDocument settings d).settings.typeStyle = .classType := classes
  have scope : (Context.ofDocument settings d).scope = .ofDocument d := rfl
  have root : (Context.ofDocument settings d).scope.root = d.dialect.referenceRoot := rfl
  cases bodyOf_cases made with
  | constants values =>
    refine ⟨nofun, ?_⟩
    rintro ⟨base, inherits, -⟩
    exact absurd inherits.1 values
  | aliasType noValues shapeless =>
    refine ⟨nofun, ?_⟩
    rintro ⟨base, ⟨-, shape, shaped, -⟩, -⟩
    rw [style, scope, shaped] at shapeless
    cases shapeless
  | object noValues shaped extended =>
    rename_i shape bases members declared
    rw [base?_objectBody style]
    rw [style, scope] at shaped
    constructor
    · intro first
      obtain ⟨reference, member, resolved⟩ := extended.exists_left (List.mem_of_head? first)
      obtain ⟨base, named, found⟩ := Context.resolve_eq_ok.mp resolved
      exact ⟨base, ⟨noValues, shape, shaped, reference, member, named⟩, found⟩
    · rintro ⟨base, ⟨-, shape', shaped', reference, member, named⟩, found⟩
      rw [shaped] at shaped'
      cases shaped'
      -- A class has one base, so this is it.
      have single : shape.bases = [reference] := by
        have short := (bases_of_shape shaped).2 rfl
        rcases bases : shape.bases with _ | ⟨first, _ | ⟨second, rest⟩⟩
        · rw [bases] at member
          cases member
        · rw [bases] at member
          rw [List.mem_singleton.mp member]
        · rw [bases] at short
          simp at short
      rw [single] at extended
      obtain ⟨written, rest, resolved, none, rfl⟩ := List.forall₂_cons_left_iff.mp extended
      obtain ⟨base', named', found'⟩ := Context.resolve_eq_ok.mp resolved
      rw [root, named] at named'
      cases named'
      rw [found] at found'
      cases found'
      rfl

theorem lookup_split (base : String) {before after : Definitions}
    {before' after' : List Declaration} (lengths : before.length = before'.length) :
    ((names (before ++ after)).zip ((before' ++ after').map (·.name))).lookup base =
      (((names before).zip (before'.map (·.name))).lookup base).or
        (((names after).zip (after'.map (·.name))).lookup base) := by
  have lengths : (before.map (·.1)).length = (before'.map (·.name)).length := by
    rw [List.length_map, List.length_map, lengths]
  rw [names, List.map_append, List.map_append, List.zip_append lengths, List.lookup_append]
  rfl

/-- A module of classes has every class behind its base exactly if its document has every definition
    behind the one that it extends. -/
theorem basesFirst_of_moduleOf (classes : settings.typeStyle = .classType)
    (made : moduleOf settings d fileName = .ok m) : m.BasesFirst ↔ d.BasesFirst := by
  obtain ⟨-, aligned⟩ := declarations_of_moduleOf made
  have distinct := nodup_of_moduleOf made
  have identified (base : String) : (Context.ofDocument settings d).identifiers.lookup base =
      ((names d.definitions).zip (m.declarations.map (·.name))).lookup base :=
    (identifierOf?_eq made base).symm
  unfold Module.BasesFirst IsolatedDocument.BasesFirst
  constructor
  · intro ordered before e after split base inherits
    obtain ⟨s, -, defined, -⟩ := inherits.target
    obtain ⟨identifier, found⟩ := Identifiers.exists_lookup settings.hasInterfaces
      (mem_names.mpr ⟨s, defined⟩)
    rw [split] at aligned
    obtain ⟨before', declaration, after', split', earlier, ⟨madeBody, -⟩, later⟩ :=
      aligned.split_left
    obtain ⟨b, inside, rfl, -⟩ := ordered before' declaration after' split' identifier
      ((base?_eq_some classes madeBody).mpr ⟨base, inherits, found⟩)
    by_contra absent
    have missing : ((names before).zip (before'.map (·.name))).lookup base = none := by
      refine List.lookup_eq_none_iff.mpr fun x member => bne_iff_ne.mpr ?_
      rintro rfl
      exact absent (List.of_mem_zip member).1
    -- So the identifier is that of a later declaration, and of an earlier one.
    have again : ((names (e :: after)).zip ((declaration :: after').map (·.name))).lookup base =
        some b.name := by
      rw [← Option.none_or (o := List.lookup _ _), ← missing, ← lookup_split base earlier.length_eq,
        ← split, ← split', ← identified]
      exact found
    rw [split', List.map_append] at distinct
    refine (List.nodup_append.mp distinct).2.2 b.name (List.mem_map_of_mem inside) b.name ?_ rfl
    obtain ⟨front, back, place, -⟩ := List.lookup_eq_some_iff.mp again
    exact (List.of_mem_zip (place ▸ List.mem_append_right front List.mem_cons_self)).2
  · intro ordered before' declaration after' split' identifier isBase
    rw [split'] at aligned
    obtain ⟨before, e, after, split, earlier, ⟨madeBody, -⟩, later⟩ := aligned.split_right
    obtain ⟨base, inherits, found⟩ := (base?_eq_some classes madeBody).mp isBase
    obtain ⟨s, shape, defined, noValues, shaped⟩ := inherits.target
    -- The base is found among the definitions before, and so is its declaration.
    obtain ⟨s', looked⟩ := mem_names.mp (ordered before e after split base inherits)
    have same : s' = s := by
      rw [split, List.lookup_append, looked] at defined
      exact Option.some.inj defined
    subst same
    obtain ⟨b, inside, ⟨madeBase, -⟩, identifies⟩ := declaration_of_definition earlier looked
    have named : b.name = identifier := by
      rw [identified, split, split', lookup_split base earlier.length_eq] at found
      rw [show ((names before).zip (before'.map (·.name))).lookup base = _ from identifies] at found
      exact Option.some.inj found
    refine ⟨b, inside, named, isClass_of_isObject classes madeBase ?_⟩
    exact (isObject_of_shape madeBase noValues (classes ▸ shaped)).1

end Module
end TypeScript

namespace Document

/-- No document of a group can be loaded as classes if a member extends a definition of another group:
    all members stand before the definitions of other groups. -/
theorem not_basesFirst_isolate {d : Document} {separator : Char} {g : Group}
    (member : g ∈ d.groups separator) (distinct : (names d.definitions).Nodup)
    {e : String × Schema} (inside : e ∈ g.members) {base : String}
    (inherits : (d.isolate g).Extends e base) (foreign : namespaceKey separator base ≠ g.key) :
    ¬ (d.isolate g).BasesFirst := by
  intro ordered
  obtain ⟨others, split⟩ := members_prefix_isolate member distinct
  obtain ⟨before, after, place⟩ := List.append_of_mem inside
  have whole : (d.isolate g).definitions = before ++ e :: (after ++ others) := by
    rw [← split, place, List.append_assoc, List.cons_append]
  obtain ⟨b, earlier, rfl⟩ := List.mem_map.mp (ordered before e _ whole base inherits)
  have own : b ∈ g.members := place ▸ List.mem_append_left _ earlier
  rw [(Group.mem_ofDefinitions.mp member).1, List.mem_filter, beq_iff_eq] at own
  exact foreign own.2

end Document

namespace Generator

open TypeScript

/-- A text of classes comes from a module that has every class behind the class it extends, exactly if
    the document has every definition behind the one that it extends. -/
theorem typeScript_basesFirst_iff {settings : Settings} (classes : settings.typeStyle = .classType)
    {d : IsolatedDocument} {fileName text : String}
    (made : (typeScript settings).generate d fileName = .ok text) :
    ∃ m, moduleOf settings d fileName = .ok m ∧ text = Piece.render m.pieces ∧
      (m.BasesFirst ↔ d.BasesFirst) := by
  obtain ⟨m, converted, written⟩ := Except.map_eq_ok.mp made
  exact ⟨m, converted, written ▸ m.render_pieces.symm, basesFirst_of_moduleOf classes converted⟩

/-- A base in front of what extends it. -/
theorem typeScript_basesFirst_iff_dog :
    let dog : Schema := { allOf := [.reference "#/definitions/A.Animal"] }
    let d : IsolatedDocument :=
      ⟨"A", {}, .swagger2, "2.0", [("A.Animal", .ofType "object"), ("A.Dog", dog)]⟩
    ∃ m, moduleOf shopClasses d "A" = .ok m ∧ d.BasesFirst ∧ m.BasesFirst := by
  intro dog d
  obtain ⟨text, made⟩ := Except.isOk_iff.mp
    (by decide +kernel : ((typeScript shopClasses).generate d "A").isOk)
  obtain ⟨m, converted, -, same⟩ := typeScript_basesFirst_iff rfl made
  have ordered : d.BasesFirst := by
    rintro before e after split base ⟨-, shape, shaped, reference, inside, named⟩
    rcases before with _ | ⟨first, _ | ⟨second, rest⟩⟩
    · -- The first one extends nothing.
      have bases : (shape? (.ofDocument d) .classType ["A.Animal"] (.ofType "object")).map
          (·.bases) = some [] := by decide +kernel
      cases split
      rw [shaped, Option.map_some] at bases
      rw [Option.some.inj bases] at inside
      cases inside
    · have bases : (shape? (.ofDocument d) .classType ["A.Dog"] dog).map (·.bases) =
          some ["#/definitions/A.Animal"] := by decide +kernel
      cases split
      rw [shaped, Option.map_some] at bases
      rw [Option.some.inj bases, List.mem_singleton] at inside
      have animal : referenceName? "#/definitions/" "#/definitions/A.Animal" = some "A.Animal" := by
        decide +kernel
      rw [inside] at named
      cases named.symm.trans animal
      exact List.mem_singleton_self _
    · have lengths := congrArg List.length split
      simp [d] at lengths
  exact ⟨m, converted, ordered, same.mpr ordered⟩

/-- A base behind what extends it, in the document of a group and then in its module. -/
theorem typeScript_extends_later :
    let dog : Schema := { allOf := [.reference "#/definitions/A.Animal"] }
    let d : Document := { definitions := [("A.Dog", dog), ("A.Animal", .ofType "object")] }
    let g : Group := ⟨"A", d.definitions⟩
    g ∈ d.groups '.' ∧
      ∃ m, moduleOf shopClasses (d.isolate g) "A" = .ok m ∧ ¬ m.BasesFirst := by
  intro dog d g
  have keys : ["A.Dog", "A.Animal"].map (namespaceKey '.') = ["A", "A"] := by decide +kernel
  simp only [List.map_cons, List.map_nil, List.cons.injEq, and_true] at keys
  have member : g ∈ d.groups '.' := Group.mem_ofDefinitions.mpr ⟨by simp [d, g, keys], nofun⟩
  have whole : d.isolate g = ⟨"A", {}, .swagger2, "2.0", d.definitions⟩ :=
    Document.isolate_of_closed member (by decide) fun _ _ _ _ known => known
  obtain ⟨m, made⟩ := Except.isOk_iff.mp
    (by rw [whole]; decide +kernel : (moduleOf shopClasses (d.isolate g) "A").isOk)
  refine ⟨member, m, made, ?_⟩
  rw [basesFirst_of_moduleOf rfl made, whole]
  intro ordered
  have bases : (shape? ⟨"#/definitions/", d.definitions⟩ .classType ["A.Dog"] dog).map (·.bases) =
      some ["#/definitions/A.Animal"] := by decide +kernel
  obtain ⟨shape, shaped, bases⟩ := Option.map_eq_some_iff.mp bases
  have earlier := ordered [] ("A.Dog", dog) _ rfl "A.Animal" ⟨rfl, shape, shaped, _,
    bases ▸ List.mem_singleton_self _, by decide +kernel⟩
  cases earlier

end Generator
end SchemaSplit
