import SchemaSplit.Document
import SchemaSplit.Reference
import SchemaSplit.TypeScript.Settings

namespace SchemaSplit.TypeScript

structure Scope where
  root : String
  definitions : Definitions

namespace Scope

def ofDocument (d : IsolatedDocument) : Scope := ⟨d.dialect.referenceRoot, d.definitions⟩

def target? (s : Scope) (reference : String) : Option (String × Schema) := do
  let name ← referenceName? s.root reference
  return (name, ← s.definitions.lookup name)

def remaining (s : Scope) (names : List String) : Nat :=
  (s.definitions.filter fun d => !names.contains d.1).length

theorem remaining_lt {s : Scope} {reference name : String} {target : Schema}
    (h : s.target? reference = some (name, target)) {names : List String} (fresh : name ∉ names) :
    s.remaining (name :: names) < s.remaining names := by
  have member : (name, target) ∈ s.definitions := by
    simp only [target?, Option.bind_eq_bind, Option.bind_eq_some_iff] at h
    obtain ⟨found, -, target', ht, h⟩ := h
    cases h
    obtain ⟨before, after, split, -⟩ := List.lookup_eq_some_iff.mp ht
    simp [split]
  have split : s.definitions.filter (fun d => !(name :: names).contains d.1) =
      (s.definitions.filter fun d => !names.contains d.1).filter fun d => d.1 ≠ name := by
    rw [List.filter_filter]
    congr 1
    funext d
    by_cases same : d.1 = name <;> simp [same]
  rw [remaining, remaining, split, List.length_filter_lt_length_iff_exists]
  exact ⟨(name, target), by simp [member, fresh]⟩

end Scope

def isPlainObject (s : Schema) (allOfAllowed : Bool) : Bool :=
  (match s.type with
    | none => true
    | some (.single name) => name == "object"
    | some (.multiple _) => false) &&
  s.ref.isNone && s.keywords.enum.isNone && s.anyOf.isEmpty && s.oneOf.isEmpty &&
  (allOfAllowed || s.allOf.isEmpty) && !s.isNullable &&
  (match s.additional with
    | none | some (.any false) => true
    | _ => false)

/-- What a definition is declared with: references to what it extends, and the nodes whose
    properties it declares. -/
structure Shape where
  bases : List String
  parts : List Schema

inductive ShapeMember where
  | base (reference : String)
  | part (node : Schema)

namespace Shape

def ofMembers? (style : TypeStyle) (s : Schema) (members : List ShapeMember) : Option Shape :=
  let bases := members.filterMap fun | .base reference => some reference | .part _ => none
  let parts := members.filterMap fun | .part node => some node | .base _ => none
  if style = .classType ∧ 1 < bases.length then none else some ⟨bases, s :: parts⟩

end Shape

/-- The shape of a schema, if it has one. The names already on the way can not be extended, so the
    search ends when all definitions are among them. -/
def shape? (scope : Scope) (style : TypeStyle) (onTheWay : List String) (s : Schema) :
    Option Shape :=
  if !isPlainObject s true || (s.allOf.isEmpty && s.properties.isEmpty && s.type.isNone) then none
  else do
    let members ← s.allOf.mapM fun member =>
      match member.ref with
      | some reference =>
        match _found : scope.target? reference with
        | some (name, target) =>
          if _fresh : name ∈ onTheWay then none
          else if !target.enumValues.isEmpty then none
          else (shape? scope style (name :: onTheWay) target).map fun _ => .base reference
        | none => none
      | none => if isPlainObject member false then some (.part member) else none
    Shape.ofMembers? style s members
termination_by scope.remaining onTheWay
decreasing_by exact Scope.remaining_lt _found _fresh

end SchemaSplit.TypeScript
