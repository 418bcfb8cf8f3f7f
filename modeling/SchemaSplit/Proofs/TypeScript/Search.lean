import SchemaSplit.Proofs.TypeScript.Shape
import Mathlib.Data.Finset.Basic
import Mathlib.Data.Finset.Dedup

namespace SchemaSplit.TypeScript

section Step

variable (scope : Scope) (style : TypeStyle) (onTheWay : List String)

def isExtendable (reference : String) : Bool :=
  match scope.target? reference with
  | some (name, target) =>
    !onTheWay.contains name && target.enumValues.isEmpty &&
      (shape? scope style (name :: onTheWay) target).isSome
  | none => false

def shapeMember? (member : Schema) : Option ShapeMember :=
  match member.ref with
  | some reference =>
    if isExtendable scope style onTheWay reference then some (.base reference) else none
  | none => if isPlainObject member false then some (.part member) else none

variable {scope style onTheWay} in
theorem shapeMember?_of_reference {member : Schema} {reference : String}
    (refers : member.ref = some reference) :
    shapeMember? scope style onTheWay member =
      if isExtendable scope style onTheWay reference then some (.base reference) else none := by
  rw [shapeMember?, refers]

variable {scope style onTheWay} in
theorem shapeMember?_of_inline {member : Schema} (inline : member.ref = none) :
    shapeMember? scope style onTheWay member =
      if isPlainObject member false then some (.part member) else none := by
  rw [shapeMember?, inline]

theorem adds_iff {member : Schema} {added : ShapeMember} :
    Adds scope style onTheWay member added ↔
      shapeMember? scope style onTheWay member = some added := by
  unfold shapeMember? isExtendable
  constructor
  · intro adds
    cases adds with
    | base refers found fresh noValues shaped =>
      rw [refers]
      simp [found, fresh, noValues, shaped]
    | part inline plain =>
      rw [inline]
      exact if_pos plain
  · intro step
    cases refers : member.ref with
    | none =>
      rw [refers] at step
      dsimp only at step
      by_cases plain : isPlainObject member false
      · rw [if_pos plain] at step
        cases step
        exact .part refers plain
      · rw [if_neg plain] at step
        cases step
    | some reference =>
      rw [refers] at step
      dsimp only at step
      cases found : scope.target? reference with
      | none => simp [found] at step
      | some target =>
        obtain ⟨name, target⟩ := target
        simp only [found, Option.ite_none_right_eq_some, Bool.and_eq_true, Bool.not_eq_true',
          List.contains_eq_mem, decide_eq_false_iff_not, List.isEmpty_iff,
          Option.isSome_iff_exists, Option.some.injEq] at step
        obtain ⟨⟨⟨fresh, noValues⟩, shape, shaped⟩, rfl⟩ := step
        exact .base refers found fresh noValues shaped

theorem shape?_eq (s : Schema) :
    shape? scope style onTheWay s =
      if isShapeable s then
        (s.allOf.mapM (shapeMember? scope style onTheWay)).bind (Shape.ofMembers? style s)
      else none := by
  refine Option.ext fun shape => ?_
  rw [shape?_eq_some]
  by_cases shapeable : isShapeable s
  · rw [if_pos shapeable, Option.bind_eq_some_iff]
    simp only [shapeable, true_and, List.mapM_eq_some, ← adds_iff]
  · rw [if_neg shapeable]
    simp [shapeable]

end Step

mutual

/-- A search with the set of names that it starts and ends with. -/
inductive Search (scope : Scope) (style : TypeStyle) :
    Finset String → Schema → Option Shape → Finset String → Prop
  | unshapeable {visiting : Finset String} {s : Schema} (other : ¬ isShapeable s) :
      Search scope style visiting s none visiting
  | refused {visiting left : Finset String} {s : Schema} (shapeable : isShapeable s)
      (members : SearchAll scope style visiting s.allOf none left) :
      Search scope style visiting s none left
  | assembled {visiting left : Finset String} {s : Schema} {members : List ShapeMember}
      (shapeable : isShapeable s)
      (searched : SearchAll scope style visiting s.allOf (some members) left) :
      Search scope style visiting s (Shape.ofMembers? style s members) left

inductive SearchAll (scope : Scope) (style : TypeStyle) :
    Finset String → List Schema → Option (List ShapeMember) → Finset String → Prop
  | nil {visiting : Finset String} : SearchAll scope style visiting [] (some []) visiting
  | base {visiting between left : Finset String} {member : Schema} {rest : List Schema}
      {reference : String} {result : Option (List ShapeMember)}
      (refers : member.ref = some reference)
      (extendable : SearchBase scope style visiting reference true between)
      (others : SearchAll scope style between rest result left) :
      SearchAll scope style visiting (member :: rest) (result.map (.base reference :: ·)) left
  | part {visiting left : Finset String} {member : Schema} {rest : List Schema}
      {result : Option (List ShapeMember)} (inline : member.ref = none)
      (plain : isPlainObject member false)
      (others : SearchAll scope style visiting rest result left) :
      SearchAll scope style visiting (member :: rest) (result.map (.part member :: ·)) left
  | notBase {visiting left : Finset String} {member : Schema} {rest : List Schema}
      {reference : String} (refers : member.ref = some reference)
      (fixed : SearchBase scope style visiting reference false left) :
      SearchAll scope style visiting (member :: rest) none left
  | notPart {visiting : Finset String} {member : Schema} {rest : List Schema}
      (inline : member.ref = none) (other : ¬ isPlainObject member false) :
      SearchAll scope style visiting (member :: rest) none visiting

inductive SearchBase (scope : Scope) (style : TypeStyle) :
    Finset String → String → Bool → Finset String → Prop
  | unknown {visiting : Finset String} {reference : String}
      (missing : scope.target? reference = none) :
      SearchBase scope style visiting reference false visiting
  | values {visiting : Finset String} {reference name : String} {target : Schema}
      (found : scope.target? reference = some (name, target)) (values : target.enumValues ≠ []) :
      SearchBase scope style visiting reference false visiting
  | onTheWay {visiting : Finset String} {reference name : String} {target : Schema}
      (found : scope.target? reference = some (name, target)) (noValues : target.enumValues = [])
      (again : name ∈ visiting) : SearchBase scope style visiting reference false visiting
  | searched {visiting left : Finset String} {reference name : String} {target : Schema}
      {shape : Option Shape} (found : scope.target? reference = some (name, target))
      (noValues : target.enumValues = []) (fresh : name ∉ visiting)
      (search : Search scope style (insert name visiting) target shape left) :
      SearchBase scope style visiting reference shape.isSome (left.erase name)

end

section Spec

variable {scope : Scope} {style : TypeStyle} {onTheWay : List String} {left : Finset String}

def SearchSpec (scope : Scope) (style : TypeStyle) (onTheWay : List String) : Prop :=
  ∀ (s : Schema) (shape : Option Shape) (left : Finset String),
    Search scope style onTheWay.toFinset s shape left ↔
      shape = shape? scope style onTheWay s ∧ left = onTheWay.toFinset

theorem searchBase_iff
    (below : ∀ {reference name : String} {target : Schema},
      scope.target? reference = some (name, target) → name ∉ onTheWay →
        SearchSpec scope style (name :: onTheWay)) {reference : String} {answer : Bool} :
    SearchBase scope style onTheWay.toFinset reference answer left ↔
      answer = isExtendable scope style onTheWay reference ∧ left = onTheWay.toFinset := by
  unfold isExtendable
  constructor
  · intro search
    cases search with
    | unknown missing => simp [missing]
    | values found values => simp [found, values]
    | onTheWay found noValues again => simp [found, List.mem_toFinset.mp again]
    | @searched _ _ _ name _ _ found noValues fresh search =>
      have fresh' : name ∉ onTheWay := fun again => fresh (List.mem_toFinset.mpr again)
      rw [← List.toFinset_cons, below found fresh'] at search
      obtain ⟨rfl, rfl⟩ := search
      rw [List.toFinset_cons, Finset.erase_insert fresh]
      simp [found, noValues, fresh']
  · rintro ⟨rfl, rfl⟩
    cases found : scope.target? reference with
    | none => exact .unknown found
    | some target =>
      obtain ⟨name, target⟩ := target
      dsimp only
      by_cases noValues : target.enumValues = []
      · by_cases again : name ∈ onTheWay
        · have answered : SearchBase scope style onTheWay.toFinset reference false _ :=
            .onTheWay found noValues (List.mem_toFinset.mpr again)
          simpa [again] using answered
        · have fresh : name ∉ onTheWay.toFinset := fun h => again (List.mem_toFinset.mp h)
          have search := (below found again target _ _).mpr ⟨rfl, rfl⟩
          rw [List.toFinset_cons] at search
          have searched := SearchBase.searched found noValues fresh search
          rw [Finset.erase_insert fresh] at searched
          simpa [again, noValues] using searched
      · have answered : SearchBase scope style onTheWay.toFinset reference false _ :=
          .values found noValues
        simpa [List.isEmpty_eq_false_iff.mpr noValues] using answered

theorem searchAll_iff
    (bases : ∀ (reference : String) (answer : Bool) (left : Finset String),
      SearchBase scope style onTheWay.toFinset reference answer left ↔
        answer = isExtendable scope style onTheWay reference ∧ left = onTheWay.toFinset)
    {members : List Schema} {result : Option (List ShapeMember)} :
    SearchAll scope style onTheWay.toFinset members result left ↔
      result = members.mapM (shapeMember? scope style onTheWay) ∧ left = onTheWay.toFinset := by
  induction members generalizing result left with
  | nil =>
    constructor
    · intro search
      cases search
      exact ⟨rfl, rfl⟩
    · rintro ⟨rfl, rfl⟩
      exact .nil
  | cons member rest ih =>
    have unfolded : (member :: rest).mapM (shapeMember? scope style onTheWay) =
        (shapeMember? scope style onTheWay member).bind fun added =>
          (rest.mapM (shapeMember? scope style onTheWay)).map (added :: ·) := by
      rw [List.mapM_cons]
      cases shapeMember? scope style onTheWay member <;>
        cases rest.mapM (shapeMember? scope style onTheWay) <;> rfl
    rw [unfolded]
    constructor
    · intro search
      cases search with
      | base refers extendable others =>
        obtain ⟨answer, rfl⟩ := bases _ _ _ |>.mp extendable
        obtain ⟨rfl, kept⟩ := ih.mp others
        rw [shapeMember?_of_reference refers, if_pos answer.symm]
        exact ⟨rfl, kept⟩
      | part inline plain others =>
        obtain ⟨rfl, kept⟩ := ih.mp others
        rw [shapeMember?_of_inline inline, if_pos plain]
        exact ⟨rfl, kept⟩
      | notBase refers fixed =>
        obtain ⟨answer, kept⟩ := bases _ _ _ |>.mp fixed
        rw [shapeMember?_of_reference refers, ← answer]
        exact ⟨rfl, kept⟩
      | notPart inline other =>
        rw [shapeMember?_of_inline inline, if_neg other]
        exact ⟨rfl, rfl⟩
    · rintro ⟨rfl, rfl⟩
      have others := ih.mpr ⟨rfl, rfl⟩
      cases refers : member.ref with
      | none =>
        rw [shapeMember?_of_inline refers]
        by_cases plain : isPlainObject member false
        · rw [if_pos plain]
          exact .part refers plain others
        · rw [if_neg plain]
          exact .notPart refers plain
      | some reference =>
        rw [shapeMember?_of_reference refers]
        have answered := (bases reference _ _).mpr ⟨rfl, rfl⟩
        by_cases extendable : isExtendable scope style onTheWay reference
        · rw [extendable] at answered
          rw [if_pos extendable]
          exact .base refers answered others
        · rw [Bool.not_eq_true] at extendable
          rw [extendable] at answered ⊢
          exact .notBase refers answered

/-- The search ends with the shape, and with the set that it started with. -/
theorem searchSpec (scope : Scope) (style : TypeStyle) (onTheWay : List String) :
    SearchSpec scope style onTheWay := by
  intro s shape left
  have bases : ∀ (reference : String) (answer : Bool) (left : Finset String),
      SearchBase scope style onTheWay.toFinset reference answer left ↔
        answer = isExtendable scope style onTheWay reference ∧ left = onTheWay.toFinset := by
    intro _ _ _
    apply searchBase_iff
    intro reference name target found fresh
    have shrinks := Scope.remaining_lt found fresh
    exact searchSpec scope style (name :: onTheWay)
  rw [shape?_eq]
  constructor
  · intro search
    cases search with
    | unshapeable other => exact ⟨(if_neg other).symm, rfl⟩
    | refused shapeable members =>
      obtain ⟨result, kept⟩ := (searchAll_iff bases).mp members
      rw [if_pos shapeable, ← result]
      exact ⟨rfl, kept⟩
    | assembled shapeable members =>
      obtain ⟨result, kept⟩ := (searchAll_iff bases).mp members
      rw [if_pos shapeable, ← result]
      exact ⟨rfl, kept⟩
  · rintro ⟨rfl, rfl⟩
    by_cases shapeable : isShapeable s
    · rw [if_pos shapeable]
      have searched : SearchAll scope style onTheWay.toFinset s.allOf _ _ :=
        (searchAll_iff bases).mpr ⟨rfl, rfl⟩
      cases result : s.allOf.mapM (shapeMember? scope style onTheWay) with
      | none =>
        rw [result] at searched
        exact .refused shapeable searched
      | some members =>
        rw [result] at searched
        exact .assembled shapeable searched
    · rw [if_neg shapeable]
      exact .unshapeable shapeable
termination_by scope.remaining onTheWay

end Spec
end SchemaSplit.TypeScript
