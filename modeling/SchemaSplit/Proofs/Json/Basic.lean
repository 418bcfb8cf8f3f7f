import SchemaSplit.Json.Basic
import SchemaSplit.Width
import Mathlib.Data.List.Nodup

namespace SchemaSplit

section LastWins

variable {α : Type} {kept entries : List (String × α)} {entry : String × α}

def putLast (kept : List (String × α)) (entry : String × α) : List (String × α) :=
  if kept.any (·.1 == entry.1) then kept.map fun e => if e.1 == entry.1 then entry else e
  else kept ++ [entry]

theorem mem_putLast {e : String × α} (member : e ∈ putLast kept entry) : e = entry ∨ e ∈ kept := by
  unfold putLast at member
  split at member
  · obtain ⟨old, inside, same⟩ := List.mem_map.mp member
    split at same
    · exact .inl same.symm
    · exact .inr (same ▸ inside)
  · rcases List.mem_append.mp member with old | new
    · exact .inr old
    · exact .inl (List.mem_singleton.mp new)

theorem names_putLast (kept : List (String × α)) (entry : String × α) :
    (putLast kept entry).map (·.1) =
      if entry.1 ∈ kept.map (·.1) then kept.map (·.1) else kept.map (·.1) ++ [entry.1] := by
  have known : kept.any (·.1 == entry.1) = true ↔ entry.1 ∈ kept.map (·.1) := by
    rw [List.any_eq_true, List.mem_map]
    simp only [beq_iff_eq]
  unfold putLast
  split
  · rename_i isKnown
    rw [if_pos (known.mp isKnown), List.map_map]
    apply List.map_congr_left
    intro e inside
    by_cases same : e.1 = entry.1 <;> simp [same]
  · rename_i isNew
    rw [if_neg (fun member => isNew (known.mpr member)), List.map_append]
    rfl

theorem nodup_putLast (distinct : (kept.map (·.1)).Nodup) :
    ((putLast kept entry).map (·.1)).Nodup := by
  rw [names_putLast]
  split
  · exact distinct
  · rename_i isNew
    rw [List.nodup_append]
    refine ⟨distinct, List.nodup_singleton _, ?_⟩
    intro a inside b last same
    rw [List.mem_singleton.mp last] at same
    exact isNew (same ▸ inside)

theorem mem_foldl_putLast {e : String × α} (member : e ∈ entries.foldl putLast kept) :
    e ∈ kept ∨ e ∈ entries := by
  induction entries generalizing kept with
  | nil => exact .inl member
  | cons entry rest ih =>
    rcases ih member with before | later
    · rcases mem_putLast before with rfl | old
      · exact .inr List.mem_cons_self
      · exact .inl old
    · exact .inr (List.mem_cons_of_mem _ later)

theorem nodup_foldl_putLast (distinct : (kept.map (·.1)).Nodup) :
    ((entries.foldl putLast kept).map (·.1)).Nodup := by
  induction entries generalizing kept with
  | nil => exact distinct
  | cons entry rest ih => exact ih (nodup_putLast distinct)

theorem foldl_putLast_of_nodup (distinct : ((kept ++ entries).map (·.1)).Nodup) :
    entries.foldl putLast kept = kept ++ entries := by
  induction entries generalizing kept with
  | nil => exact (List.append_nil kept).symm
  | cons entry rest ih =>
    have isNew : kept.any (·.1 == entry.1) = false := by
      rw [List.map_append, List.nodup_append] at distinct
      rw [List.any_eq_false]
      intro e inside same
      exact distinct.2.2 e.1 (List.mem_map_of_mem inside) entry.1
        (List.mem_map_of_mem List.mem_cons_self) (by simpa using same)
    have put : putLast kept entry = kept ++ [entry] := by
      unfold putLast
      rw [isNew]
      rfl
    rw [List.foldl_cons, put, ih]
    · rw [List.append_assoc]
      rfl
    · rw [List.append_assoc]
      exact distinct

theorem mem_of_mem_lastWins {e : String × α} (member : e ∈ lastWins entries) : e ∈ entries := by
  rcases mem_foldl_putLast member with none | inside
  · cases none
  · exact inside

theorem nodup_lastWins (entries : List (String × α)) : ((lastWins entries).map (·.1)).Nodup :=
  nodup_foldl_putLast List.nodup_nil

theorem lastWins_of_nodup (distinct : (entries.map (·.1)).Nodup) : lastWins entries = entries :=
  foldl_putLast_of_nodup distinct

end LastWins

theorem Scalar.settled_settled (s : Scalar) : s.settled.settled = s.settled := by
  cases s with
  | double d =>
    unfold settled
    by_cases finite : d.isFinite <;> simp [finite]
  | _ => rfl

namespace Json

mutual

def scalars : Json → List Scalar
  | .scalar s => [s]
  | .array items => itemScalars items
  | .object fields => fieldScalars fields
termination_by structural j => j

def itemScalars : List Json → List Scalar
  | [] => []
  | j :: rest => scalars j ++ itemScalars rest
termination_by structural js => js

def fieldScalars : List (String × Json) → List Scalar
  | [] => []
  | (_, j) :: rest => scalars j ++ fieldScalars rest
termination_by structural fs => fs

end

theorem itemScalars_eq_flatMap (js : List Json) : itemScalars js = js.flatMap scalars := by
  induction js with
  | nil => rfl
  | cons j rest ih => rw [itemScalars, ih, List.flatMap_cons]

theorem fieldScalars_eq_flatMap (fs : List (String × Json)) :
    fieldScalars fs = fs.flatMap fun f => f.2.scalars := by
  induction fs with
  | nil => rfl
  | cons f rest ih => rw [fieldScalars, ih, List.flatMap_cons]

theorem forall_scalars_array {P : Scalar → Prop} {js : List Json} :
    (∀ v ∈ (array js).scalars, P v) ↔ ∀ j ∈ js, ∀ v ∈ j.scalars, P v := by
  rw [scalars, itemScalars_eq_flatMap, List.forall_mem_flatMap]

theorem forall_scalars_object {P : Scalar → Prop} {fs : List (String × Json)} :
    (∀ v ∈ (object fs).scalars, P v) ↔ ∀ f ∈ fs, ∀ v ∈ f.2.scalars, P v := by
  rw [scalars, fieldScalars_eq_flatMap, List.forall_mem_flatMap]

mutual

def depth : Json → Nat
  | .scalar _ => 0
  | .array items => itemDepth items + 1
  | .object fields => fieldDepth fields + 1
termination_by structural j => j

def itemDepth : List Json → Nat
  | [] => 0
  | j :: rest => max j.depth (itemDepth rest)
termination_by structural js => js

def fieldDepth : List (String × Json) → Nat
  | [] => 0
  | (_, j) :: rest => max j.depth (fieldDepth rest)
termination_by structural fs => fs

end

theorem itemDepth_le {js : List Json} {bound : Nat} :
    itemDepth js ≤ bound ↔ ∀ j ∈ js, j.depth ≤ bound := by
  induction js with
  | nil => simp [itemDepth]
  | cons j rest ih => rw [itemDepth, Nat.max_le, ih, List.forall_mem_cons]

theorem fieldDepth_le {fs : List (String × Json)} {bound : Nat} :
    fieldDepth fs ≤ bound ↔ ∀ f ∈ fs, f.2.depth ≤ bound := by
  induction fs with
  | nil => simp [fieldDepth]
  | cons f rest ih => rw [fieldDepth, Nat.max_le, ih, List.forall_mem_cons]

mutual

theorem settled_settled (j : Json) : j.settled.settled = j.settled := by
  cases j with
  | scalar s => rw [settled, settled, Scalar.settled_settled]
  | array items => rw [settled, settled, settledItems_settledItems items]
  | object fields =>
    have each := settledFields_settledFields fields
    have distinct := nodup_lastWins (settledFields fields)
    have same : settledFields (lastWins (settledFields fields)) =
        lastWins (settledFields fields) := by
      rw [settledFields_eq_map]
      refine (List.map_congr_left ?_).trans (List.map_id _)
      intro f inside
      exact congrArg (Prod.mk f.1) (each f (mem_of_mem_lastWins inside))
    rw [settled, settled, same, lastWins_of_nodup distinct]
termination_by structural j

theorem settledItems_settledItems (js : List Json) :
    settledItems (settledItems js) = settledItems js := by
  cases js with
  | nil => rfl
  | cons j rest =>
    rw [settledItems, settledItems, settled_settled j, settledItems_settledItems rest]
termination_by structural js

theorem settledFields_settledFields (fs : List (String × Json)) :
    ∀ f ∈ settledFields fs, f.2.settled = f.2 := by
  intro f member
  cases fs with
  | nil => cases member
  | cons first rest =>
    rcases first with ⟨name, j⟩
    rw [settledFields] at member
    rcases List.mem_cons.mp member with rfl | later
    · exact settled_settled j
    · exact settledFields_settledFields rest f later
termination_by structural fs

end

mutual

theorem mem_settled (j : Json) {s : Scalar} (member : s ∈ j.settled.scalars) :
    ∃ t ∈ j.scalars, s = t.settled := by
  cases j with
  | scalar t => exact ⟨t, List.mem_singleton_self t, List.mem_singleton.mp member⟩
  | array items => exact mem_settledItems items member
  | object fields =>
    rw [settled, scalars, fieldScalars_eq_flatMap, List.mem_flatMap] at member
    obtain ⟨f, inside, member⟩ := member
    exact mem_settledFields fields (mem_of_mem_lastWins inside) member
termination_by structural j

theorem mem_settledItems (js : List Json) {s : Scalar}
    (member : s ∈ itemScalars (settledItems js)) : ∃ t ∈ itemScalars js, s = t.settled := by
  cases js with
  | nil => cases member
  | cons j rest =>
    rw [settledItems, itemScalars] at member
    rw [itemScalars]
    rcases List.mem_append.mp member with here | later
    · obtain ⟨t, inside, same⟩ := mem_settled j here
      exact ⟨t, List.mem_append_left _ inside, same⟩
    · obtain ⟨t, inside, same⟩ := mem_settledItems rest later
      exact ⟨t, List.mem_append_right _ inside, same⟩
termination_by structural js

theorem mem_settledFields (fs : List (String × Json)) {f : String × Json} {s : Scalar}
    (inside : f ∈ settledFields fs) (member : s ∈ f.2.scalars) :
    ∃ t ∈ fieldScalars fs, s = t.settled := by
  cases fs with
  | nil => cases inside
  | cons first rest =>
    rcases first with ⟨name, j⟩
    rw [settledFields] at inside
    rw [fieldScalars]
    rcases List.mem_cons.mp inside with rfl | later
    · obtain ⟨t, inside, same⟩ := mem_settled j member
      exact ⟨t, List.mem_append_left _ inside, same⟩
    · obtain ⟨t, inside, same⟩ := mem_settledFields rest later member
      exact ⟨t, List.mem_append_right _ inside, same⟩
termination_by structural fs

end

theorem int_of_mem_settled {j : Json} {n : Int} (member : .int n ∈ j.settled.scalars) :
    .int n ∈ j.scalars := by
  obtain ⟨t, inside, same⟩ := mem_settled j member
  cases t with
  | double d =>
    unfold Scalar.settled at same
    dsimp only at same
    split at same <;> cases same
  | _ => exact same ▸ inside

theorem isFinite_of_mem_settled {j : Json} {d : Double} (member : .double d ∈ j.settled.scalars) :
    d.isFinite := by
  obtain ⟨t, inside, same⟩ := mem_settled j member
  cases t with
  | double e =>
    unfold Scalar.settled at same
    dsimp only at same
    split at same
    · rename_i finite
      cases same
      exact finite
    · cases same
  | _ => cases same

end Json
end SchemaSplit
