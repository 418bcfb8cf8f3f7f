import SchemaSplit.Proofs.Json.Basic
import SchemaSplit.Proofs.Lookup
import Mathlib.Data.List.Forall2
import Mathlib.Data.Multiset.Defs

namespace SchemaSplit

namespace Json

inductive Step where
  | key (name : String)
  | index (i : Nat)

/-- What is seen of a value without a step into it. -/
inductive Tip where
  | scalar (value : Scalar)
  | array (length : Nat)
  | object (names : Multiset String)

def tip : Json → Tip
  | scalar value => .scalar value
  | array items => .array items.length
  | object fields => .object (fields.map (·.1))

def at? : List Step → Json → Option Tip
  | [], j => some j.tip
  | .index i :: rest, array items => items[i]?.bind (at? rest)
  | .key name :: rest, object fields => (fields.lookup name).bind (at? rest)
  | _ :: _, _ => none

def Same (j k : Json) : Prop := ∀ place, j.at? place = k.at? place

theorem Same.refl (j : Json) : j.Same j := fun _ => rfl

theorem Same.symm {j k : Json} (same : j.Same k) : k.Same j := fun place => (same place).symm

theorem Same.trans {j k l : Json} (first : j.Same k) (second : k.Same l) : j.Same l :=
  fun place => (first place).trans (second place)

theorem same_array {js ks : List Json} :
    (array js).Same (array ks) ↔ List.Forall₂ Same js ks := by
  constructor
  · intro same
    have lengths : js.length = ks.length := by simpa [at?, tip] using same []
    apply List.forall₂_iff_get.mpr
    refine ⟨lengths, ?_⟩
    intro i left right place
    have here := same (.index i :: place)
    simpa [at?, left, right] using here
  · intro same place
    obtain ⟨lengths, each⟩ := List.forall₂_iff_get.mp same
    rcases place with _ | ⟨name | i, rest⟩
    · simp [at?, tip, lengths]
    · rfl
    · by_cases inside : i < js.length
      · have here := each i inside (lengths ▸ inside) rest
        simpa [at?, inside, lengths ▸ inside] using here
      · have outside : ¬ i < ks.length := lengths ▸ inside
        simp [at?, inside, outside]

section Objects

variable {fs gs : List (String × Json)}

theorem Same.names (same : (object fs).Same (object gs)) :
    (fs.map (·.1)).Perm (gs.map (·.1)) := by
  simpa [at?, tip] using same []

theorem Same.field (same : (object fs).Same (object gs)) {name : String} {j k : Json}
    (left : fs.lookup name = some j) (right : gs.lookup name = some k) : j.Same k := by
  intro place
  have here := same (.key name :: place)
  simpa [at?, left, right] using here

theorem Same.object (distinct : (fs.map (·.1)).Nodup) (distinct' : (gs.map (·.1)).Nodup)
    (left : ∀ f ∈ fs, ∃ k, (f.1, k) ∈ gs ∧ f.2.Same k)
    (right : ∀ g ∈ gs, ∃ j, (g.1, j) ∈ fs) : (object fs).Same (object gs) := by
  intro place
  rcases place with _ | ⟨name | i, rest⟩
  · have names : (fs.map (·.1)).Perm (gs.map (·.1)) := by
      apply (List.perm_ext_iff_of_nodup distinct distinct').mpr
      intro name
      simp only [List.mem_map]
      constructor
      · rintro ⟨f, inside, rfl⟩
        obtain ⟨k, member, -⟩ := left f inside
        exact ⟨_, member, rfl⟩
      · rintro ⟨g, inside, rfl⟩
        obtain ⟨j, member⟩ := right g inside
        exact ⟨_, member, rfl⟩
    simpa [at?, tip] using names
  · rw [at?, at?]
    cases found : fs.lookup name with
    | some j =>
      obtain ⟨k, member, same⟩ := left _ (mem_of_lookup found)
      rw [lookup_of_mem distinct' member]
      exact same rest
    | none =>
      cases other : gs.lookup name with
      | none => rfl
      | some k =>
        obtain ⟨j, member⟩ := right _ (mem_of_lookup other)
        rw [lookup_of_mem distinct member] at found
        cases found
  · rfl

end Objects

theorem settled_array {js : List Json} :
    (array js).settled = array js ↔ ∀ j ∈ js, j.settled = j := by
  rw [settled, settledItems_eq_map, array.injEq]
  constructor
  · intro same j inside
    have fixed : js.map settled = js.map id := by rw [same, List.map_id]
    exact List.map_inj_left.mp fixed j inside
  · intro each
    exact (List.map_congr_left each).trans (List.map_id _)

theorem settled_object {fs : List (String × Json)} :
    (object fs).settled = object fs ↔ (fs.map (·.1)).Nodup ∧ ∀ f ∈ fs, f.2.settled = f.2 := by
  rw [settled, object.injEq]
  constructor
  · intro same
    rw [← same]
    refine ⟨nodup_lastWins _, ?_⟩
    intro f inside
    exact settledFields_settledFields fs f (mem_of_mem_lastWins inside)
  · rintro ⟨distinct, each⟩
    have fixed : settledFields fs = fs := by
      rw [settledFields_eq_map]
      apply (List.map_congr_left ?_).trans (List.map_id _)
      intro f inside
      rw [each f inside]
      rfl
    rw [fixed, lastWins_of_nodup distinct]

end Json
end SchemaSplit
