import SchemaSplit.TypeScript.Shape
import SchemaSplit.Proofs.Reference
import SchemaSplit.Proofs.Traversal

namespace SchemaSplit.TypeScript

namespace Scope

theorem target?_eq_some {scope : Scope} {reference name : String} {target : Schema} :
    scope.target? reference = some (name, target) ↔
      referenceName? scope.root reference = some name ∧
        scope.definitions.lookup name = some target := by
  simp only [target?, Option.bind_eq_bind, Option.bind_eq_some_iff, pure, Option.some.injEq,
    Prod.mk.injEq]
  constructor
  · rintro ⟨_, named, _, found, rfl, rfl⟩
    exact ⟨named, found⟩
  · rintro ⟨named, found⟩
    exact ⟨name, named, target, found, rfl, rfl⟩

end Scope

namespace ShapeMember

def reference? : ShapeMember → Option String
  | base reference => some reference
  | part _ => none

def node? : ShapeMember → Option Schema
  | part node => some node
  | base _ => none

end ShapeMember

theorem Shape.ofMembers?_eq_some {style : TypeStyle} {s : Schema} {members : List ShapeMember}
    {shape : Shape} :
    ofMembers? style s members = some shape ↔
      shape = ⟨members.filterMap (·.reference?), s :: members.filterMap (·.node?)⟩ ∧
        (style = .classType → shape.bases.length ≤ 1) := by
  have unfolded : ofMembers? style s members =
      if style = .classType ∧ 1 < (members.filterMap (·.reference?)).length then none
      else some ⟨members.filterMap (·.reference?), s :: members.filterMap (·.node?)⟩ := rfl
  rw [unfolded]
  constructor
  · intro assembled
    split at assembled
    · cases assembled
    · rename_i fits
      cases assembled
      refine ⟨rfl, fun isClass => ?_⟩
      by_contra more
      exact fits ⟨isClass, by simpa using more⟩
  · rintro ⟨rfl, fits⟩
    rw [if_neg]
    rintro ⟨isClass, more⟩
    have := fits isClass
    dsimp only at this
    omega

structure PlainObject (s : Schema) : Prop where
  type : s.type = none ∨ s.type = some (.single "object")
  ref : s.ref = none
  enum : s.keywords.enum = none
  anyOf : s.anyOf = []
  oneOf : s.oneOf = []
  nullable : s.isNullable = false
  additional : s.additional = none ∨ s.additional = some (.any false)

theorem isPlainObject_iff {s : Schema} {allOfAllowed : Bool} :
    isPlainObject s allOfAllowed ↔ PlainObject s ∧ (allOfAllowed ∨ s.allOf = []) := by
  simp only [isPlainObject, Bool.and_eq_true, Option.isNone_iff_eq_none, List.isEmpty_iff,
    Bool.or_eq_true, Bool.not_eq_true']
  constructor
  · rintro ⟨⟨⟨⟨⟨⟨⟨type, ref⟩, enum⟩, anyOf⟩, oneOf⟩, allowed⟩, nullable⟩, additional⟩
    refine ⟨⟨?_, ref, enum, anyOf, oneOf, nullable, ?_⟩, allowed⟩
    · rcases given : s.type with _ | (name | names)
      · exact .inl rfl
      · rw [given] at type
        rw [eq_of_beq type]
        exact .inr rfl
      · rw [given] at type
        cases type
    · rcases given : s.additional with _ | ((_ | _) | values)
      · exact .inl rfl
      · exact .inr rfl
      · rw [given] at additional
        cases additional
      · rw [given] at additional
        cases additional
  · rintro ⟨⟨type, ref, enum, anyOf, oneOf, nullable, additional⟩, allowed⟩
    refine ⟨⟨⟨⟨⟨⟨⟨?_, ref⟩, enum⟩, anyOf⟩, oneOf⟩, allowed⟩, nullable⟩, ?_⟩
    · rcases type with given | given <;> simp [given]
    · rcases additional with given | given <;> simp [given]

theorem PlainObject.valueSchema {s : Schema} (plain : PlainObject s) : s.valueSchema = none := by
  rcases plain.additional with none | closed
  · simp [Schema.valueSchema, none]
  · simp [Schema.valueSchema, closed]

inductive Adds (scope : Scope) (style : TypeStyle) (onTheWay : List String) :
    Schema → ShapeMember → Prop
  | base {member target : Schema} {reference name : String} {shape : Shape}
      (refers : member.ref = some reference)
      (found : scope.target? reference = some (name, target)) (fresh : name ∉ onTheWay)
      (noValues : target.enumValues = [])
      (shaped : shape? scope style (name :: onTheWay) target = some shape) :
      Adds scope style onTheWay member (.base reference)
  | part {member : Schema} (inline : member.ref = none) (plain : isPlainObject member false) :
      Adds scope style onTheWay member (.part member)

def isShapeable (s : Schema) : Bool :=
  isPlainObject s true && !(s.allOf.isEmpty && s.properties.isEmpty && s.type.isNone)

theorem not_isShapeable (s : Schema) :
    (!isPlainObject s true || (s.allOf.isEmpty && s.properties.isEmpty && s.type.isNone)) =
      !isShapeable s := by
  rw [isShapeable, Bool.not_and, Bool.not_not]

theorem shape?_eq_some {scope : Scope} {style : TypeStyle} {onTheWay : List String} {s : Schema}
    {shape : Shape} :
    shape? scope style onTheWay s = some shape ↔
      isShapeable s ∧ ∃ members, List.Forall₂ (Adds scope style onTheWay) s.allOf members ∧
        Shape.ofMembers? style s members = some shape := by
  rw [shape?, not_isShapeable]
  cases shapeable : isShapeable s
  · simp
  · simp only [Bool.not_true, Bool.false_eq_true, if_false, true_and, Option.bind_eq_bind,
      Option.bind_eq_some_iff, List.mapM_eq_some]
    refine exists_congr fun members => and_congr_left fun _ => ?_
    apply iff_of_eq
    congr 1
    funext member added
    apply propext
    constructor
    · intro step
      split at step
      · rename_i reference refers
        split at step
        · rename_i name target found
          split at step
          · cases step
          · rename_i fresh
            split at step
            · cases step
            · rename_i values
              obtain ⟨inner, shaped, rfl⟩ := Option.map_eq_some_iff.mp step
              exact .base refers found fresh (by simpa using values) shaped
        · cases step
      · rename_i inline
        split at step
        · rename_i plain
          cases step
          exact .part inline plain
        · cases step
    · intro adds
      cases adds with
      | base refers found fresh noValues shaped =>
        rw [refers]
        dsimp only
        split
        · rename_i name target found'
          rw [found] at found'
          cases found'
          rw [dif_neg fresh, noValues, shaped]
          rfl
        · rename_i missing
          rw [found] at missing
          cases missing
      | part inline plain =>
        rw [inline]
        dsimp only
        rw [if_pos plain]

/-- With fewer definitions on the way a shape stays as it is. -/
theorem shape?_mono {scope : Scope} {style : TypeStyle} {onTheWay fewer : List String} {s : Schema}
    {shape : Shape} (subset : fewer ⊆ onTheWay)
    (shaped : shape? scope style onTheWay s = some shape) :
    shape? scope style fewer s = some shape := by
  rw [shape?_eq_some] at shaped ⊢
  obtain ⟨shapeable, members, added, assembled⟩ := shaped
  refine ⟨shapeable, members, added.imp ?_, assembled⟩
  intro member result adds
  cases adds with
  | base refers found fresh noValues shaped =>
    have shrinks := Scope.remaining_lt found fresh
    exact .base refers found (fun inside => fresh (subset inside)) noValues
      (shape?_mono (List.cons_subset_cons _ subset) shaped)
  | part inline plain => exact .part inline plain
termination_by scope.remaining onTheWay

section Parts

variable {scope : Scope} {style : TypeStyle} {onTheWay : List String} {s : Schema} {shape : Shape}

theorem references_of_adds {ms : List Schema} {members : List ShapeMember}
    (added : List.Forall₂ (Adds scope style onTheWay) ms members) :
    members.filterMap (·.reference?) = ms.filterMap (·.ref) := by
  induction added with
  | nil => rfl
  | cons adds _ ih =>
    rw [List.filterMap_cons, List.filterMap_cons, ih]
    cases adds with
    | base refers => rw [refers]; rfl
    | part inline => rw [inline]; rfl

theorem bases_of_shape (shaped : shape? scope style onTheWay s = some shape) :
    shape.bases = s.allOf.filterMap (·.ref) ∧ (style = .classType → shape.bases.length ≤ 1) := by
  obtain ⟨-, members, added, assembled⟩ := shape?_eq_some.mp shaped
  obtain ⟨rfl, fits⟩ := Shape.ofMembers?_eq_some.mp assembled
  exact ⟨references_of_adds added, fits⟩

/-- What a shape extends has a shape of its own, with nothing on the way but itself. -/
theorem shape_of_base {reference : String} (shaped : shape? scope style onTheWay s = some shape)
    (member : reference ∈ shape.bases) :
    ∃ name target base, scope.target? reference = some (name, target) ∧
      target.enumValues = [] ∧ shape? scope style [name] target = some base := by
  obtain ⟨-, members, added, assembled⟩ := shape?_eq_some.mp shaped
  obtain ⟨rfl, -⟩ := Shape.ofMembers?_eq_some.mp assembled
  obtain ⟨result, inside, isBase⟩ := List.mem_filterMap.mp member
  obtain ⟨m, -, adds⟩ := added.exists_left inside
  cases adds with
  | base refers found fresh noValues shaped =>
    cases isBase
    exact ⟨_, _, _, found, noValues,
      shape?_mono (List.cons_subset_cons _ (List.nil_subset _)) shaped⟩
  | part inline plain => cases isBase

theorem nodes_of_adds {ms : List Schema} {members : List ShapeMember}
    (added : List.Forall₂ (Adds scope style onTheWay) ms members) :
    members.filterMap (·.node?) = ms.filter (·.ref.isNone) := by
  induction added with
  | nil => rfl
  | cons adds _ ih =>
    rw [List.filterMap_cons, List.filter_cons, ih]
    cases adds with
    | base refers => rw [refers]; rfl
    | part inline => rw [inline]; rfl

/-- The nodes whose properties a shape declares: the schema itself and members of it. -/
theorem parts_of_shape (shaped : shape? scope style onTheWay s = some shape) :
    shape.parts = s :: s.allOf.filter (·.ref.isNone) := by
  obtain ⟨-, members, added, assembled⟩ := shape?_eq_some.mp shaped
  obtain ⟨rfl, -⟩ := Shape.ofMembers?_eq_some.mp assembled
  exact congrArg (s :: ·) (nodes_of_adds added)

theorem part_of_shape {part : Schema} (shaped : shape? scope style onTheWay s = some shape)
    (member : part ∈ shape.parts) : part = s ∨ part ∈ s.allOf ∧ part.ref = none := by
  rw [parts_of_shape shaped, List.mem_cons, List.mem_filter, Option.isNone_iff_eq_none] at member
  exact member

theorem plain_of_shape (shaped : shape? scope style onTheWay s = some shape) :
    PlainObject s ∧ (s.allOf ≠ [] ∨ s.properties ≠ [] ∨ s.type.isSome) := by
  have shapeable := (shape?_eq_some.mp shaped).1
  rw [isShapeable, Bool.and_eq_true, isPlainObject_iff] at shapeable
  refine ⟨shapeable.1.1, ?_⟩
  simpa [or_assoc] using shapeable.2

theorem plain_of_member {m : Schema} (shaped : shape? scope style onTheWay s = some shape)
    (member : m ∈ s.allOf) (inline : m.ref = none) : PlainObject m ∧ m.allOf = [] := by
  obtain ⟨-, members, added, -⟩ := shape?_eq_some.mp shaped
  obtain ⟨result, -, adds⟩ := added.exists_right member
  cases adds with
  | base refers =>
    rw [inline] at refers
    cases refers
  | part _ plain =>
    obtain ⟨plain, alone⟩ := isPlainObject_iff.mp plain
    exact ⟨plain, alone.resolve_left nofun⟩

end Parts
end SchemaSplit.TypeScript
