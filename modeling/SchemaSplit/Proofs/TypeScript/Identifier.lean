import SchemaSplit.Proofs.Group
import SchemaSplit.Proofs.TypeScript.Name

namespace SchemaSplit.TypeScript

theorem IsFirstFree.congr {isFree isFree' : String → Bool} {base link name : String}
    (same : ∀ n, isFree n = isFree' n) (first : IsFirstFree isFree base link name) :
    IsFirstFree isFree' base link name := by
  obtain rfl : isFree = isFree' := funext same
  exact first

theorem areUnused_congr {interfaces : Bool} {used used' : List String}
    (same : ∀ n, n ∈ used ↔ n ∈ used') (name : String) :
    areUnused interfaces used name = areUnused interfaces used' name := by
  rw [Bool.eq_iff_iff, areUnused_iff, areUnused_iff, List.Disjoint, List.Disjoint]
  exact forall_congr' fun claim => imp_congr_right fun _ => imp_congr_left (same claim)

theorem assignIdentifiers_append (interfaces : Bool) (used before rest : List String) :
    ∃ used' : List String,
      (∀ n, n ∈ used' ↔
        n ∈ used ∨ n ∈ (assignIdentifiers interfaces used before).flatMap (claims interfaces)) ∧
      assignIdentifiers interfaces used (before ++ rest) =
        assignIdentifiers interfaces used before ++ assignIdentifiers interfaces used' rest := by
  induction before generalizing used with
  | nil => exact ⟨used, by simp [assignIdentifiers], rfl⟩
  | cons name before ih =>
    rw [List.cons_append, assignIdentifiers_cons, assignIdentifiers_cons]
    obtain ⟨used', members, split⟩ :=
      ih (claims interfaces (nextIdentifier interfaces used name) ++ used)
    refine ⟨used', fun n => ?_, by rw [split, List.cons_append]⟩
    rw [members, List.mem_append, List.flatMap_cons, List.mem_append, ← or_assoc]
    exact or_congr_left or_comm

namespace Identifiers

def taken (interfaces : Bool) (ids : Identifiers) : List String :=
  ids.flatMap fun entry => claims interfaces entry.2

theorem taken_identifiers (interfaces : Bool) (definitions : List String) :
    taken interfaces (identifiers interfaces definitions) =
      (assignIdentifiers interfaces globalTypes definitions).flatMap (claims interfaces) := by
  rw [taken, ← map_snd, List.flatMap_map]

theorem length_taken (interfaces : Bool) (definitions : List String) :
    (taken interfaces (identifiers interfaces definitions)).length =
      (if interfaces then 2 else 1) * definitions.length := by
  have each : ∀ name, (claims interfaces name).length = if interfaces then 2 else 1 := by
    cases interfaces <;> exact fun _ => rfl
  rw [taken_identifiers, List.length_flatMap, List.map_congr_left fun name _ => each name,
    List.map_const', List.sum_replicate_nat, length_assignIdentifiers, Nat.mul_comm]

theorem map_fst (interfaces : Bool) (definitions : List String) :
    (identifiers interfaces definitions).map (·.1) = definitions :=
  List.map_fst_zip (Nat.le_of_eq (length_assignIdentifiers _ _ _).symm)

/-- More definitions behind some leave their identifiers as they were. -/
theorem isPrefix_append (interfaces : Bool) (definitions more : List String) :
    identifiers interfaces definitions <+: identifiers interfaces (definitions ++ more) := by
  obtain ⟨used, -, split⟩ := assignIdentifiers_append interfaces globalTypes definitions more
  rw [identifiers, identifiers, split,
    List.zip_append (length_assignIdentifiers _ _ _).symm]
  exact List.prefix_append _ _

theorem lookup_of_isPrefix {ids more : Identifiers} (longer : ids <+: more) {name identifier : String}
    (found : ids.lookup name = some identifier) : more.lookup name = some identifier := by
  obtain ⟨rest, rfl⟩ := longer
  rw [List.lookup_append, found, Option.some_or]

/-- A definition gets the first name that is neither global nor taken up before it. -/
theorem exists_firstFree (interfaces : Bool) {before after : List String} {name : String}
    (distinct : (before ++ name :: after).Nodup) :
    ∃ identifier, (identifiers interfaces (before ++ name :: after)).lookup name = some identifier ∧
      IsFirstFree
        (areUnused interfaces (globalTypes ++ taken interfaces (identifiers interfaces before)))
        (typeIdentifier name) "" identifier := by
  obtain ⟨used, members, split⟩ :=
    assignIdentifiers_append interfaces globalTypes before (name :: after)
  refine ⟨nextIdentifier interfaces used name, lookup_of_mem ?_ ?_, ?_⟩
  · rwa [map_fst]
  · rw [identifiers, split, List.zip_append (length_assignIdentifiers _ _ _).symm,
      assignIdentifiers_cons, List.zip_cons_cons]
    exact List.mem_append_right _ List.mem_cons_self
  · refine (nextIdentifier_spec interfaces used name).congr (areUnused_congr fun n => ?_)
    rw [members, List.mem_append, taken_identifiers]

end Identifiers

open Definitions in
/-- The members of a group have the identifiers in its document that they would have alone. -/
theorem lookup_identifiers_isolate (interfaces : Bool) {d : Document} {separator : Char} {g : Group}
    (member : g ∈ d.groups separator) (distinct : (names d.definitions).Nodup) {name : String}
    (inside : name ∈ g.names) :
    (identifiers interfaces (d.isolate g).names).lookup name =
      (identifiers interfaces g.names).lookup name := by
  obtain ⟨others, split⟩ := Document.members_prefix_isolate member distinct
  have longer : (d.isolate g).names = g.names ++ others.map (·.1) := by
    rw [IsolatedDocument.names, ← split, List.map_append, Group.names]
  have found : ∃ identifier, (identifiers interfaces g.names).lookup name = some identifier := by
    rw [← Option.isSome_iff_exists, List.lookup_isSome_iff]
    rw [← Identifiers.map_fst interfaces g.names, List.mem_map] at inside
    obtain ⟨entry, inside, same⟩ := inside
    exact ⟨entry, inside, beq_iff_eq.mpr same.symm⟩
  obtain ⟨identifier, found⟩ := found
  rw [longer, found]
  exact Identifiers.lookup_of_isPrefix (Identifiers.isPrefix_append interfaces _ _) found

/-- Definitions get identifiers in their order: each the one made of its name if that can be taken
    up, and otherwise that one with the least number from two on that makes it so. No name is taken up
    twice and no global one at all, and what stands behind a definition never changes its identifier,
    so that what a group refers to does not change those of its members. -/
theorem identifiers_firstFree (interfaces : Bool) {definitions : List String}
    (distinct : definitions.Nodup) :
    (∀ before name after, definitions = before ++ name :: after →
      ∃ identifier, (identifiers interfaces definitions).lookup name = some identifier ∧
        IsFirstFree
          (areUnused interfaces
            (globalTypes ++ Identifiers.taken interfaces (identifiers interfaces before)))
          (typeIdentifier name) "" identifier) ∧
    (let taken := Identifiers.taken interfaces (identifiers interfaces definitions)
     taken.length = (if interfaces then 2 else 1) * definitions.length ∧ taken.Nodup ∧
      taken.Disjoint globalTypes) ∧
    (∀ more, identifiers interfaces definitions <+: identifiers interfaces (definitions ++ more)) ∧
    ∀ (d : Document) (separator : Char) (g : Group), g ∈ d.groups separator →
      (Definitions.names d.definitions).Nodup → g.names = definitions → ∀ name ∈ definitions,
        (identifiers interfaces (d.isolate g).names).lookup name =
          (identifiers interfaces definitions).lookup name := by
  refine ⟨?_, ?_, Identifiers.isPrefix_append interfaces definitions, ?_⟩
  · rintro before name after rfl
    exact Identifiers.exists_firstFree interfaces distinct
  · rw [Identifiers.taken_identifiers]
    exact ⟨Identifiers.taken_identifiers _ _ ▸ Identifiers.length_taken interfaces definitions,
      assignIdentifiers_distinct interfaces globalTypes definitions⟩
  · rintro d separator g member known rfl name inside
    exact lookup_identifiers_isolate interfaces member known inside

/-- With interfaces: a name whose interface would be that of a definition before it, a name that is
    global, and one whose second choice is taken up as well. -/
theorem identifiers_firstFree_crowded :
    let definitions := ["Shop.ILine", "Shop.Line", "Core.Date", "Core.Line2", "Core.Line"]
    definitions.Nodup ∧
      (∃ identifier, (identifiers true definitions).lookup "Core.Line" = some identifier ∧
        IsFirstFree
          (areUnused true (globalTypes ++ Identifiers.taken true
            (identifiers true ["Shop.ILine", "Shop.Line", "Core.Date", "Core.Line2"])))
          (typeIdentifier "Core.Line") "" identifier) ∧
      (identifiers true definitions).map (·.2) = ["ILine", "Line2", "Date2", "Line22", "Line3"] := by
  intro definitions
  have distinct : definitions.Nodup := by decide
  obtain ⟨each, -⟩ := identifiers_firstFree true distinct
  refine ⟨distinct, each ["Shop.ILine", "Shop.Line", "Core.Date", "Core.Line2"] _ [] rfl, ?_⟩
  decide +kernel

end SchemaSplit.TypeScript
