import SchemaSplit.TypeScript.Name
import Mathlib.Data.List.Nodup
import Mathlib.Data.List.Perm.Subperm
import Std.Data.String.ToNat

namespace SchemaSplit.TypeScript

/-- The first free one of a base and the base with a number from two on. -/
def IsFirstFree (isFree : String → Bool) (base link name : String) : Prop :=
  isFree name ∧ (name = base ∨ ¬ isFree base ∧
    ∃ k, 2 ≤ k ∧ name = base ++ link ++ toString k ∧
      ∀ j, 2 ≤ j → j < k → ¬ isFree (base ++ link ++ toString j))

theorem numbered_inj {stem : String} {i j : Nat} :
    stem ++ toString i = stem ++ toString j ↔ i = j := by
  constructor
  · intro same
    have digits : (toString i).toList = (toString j).toList := by
      have letters := congrArg String.toList same
      rw [String.toList_append, String.toList_append] at letters
      exact List.append_cancel_left letters
    exact Nat.repr_injective (String.ext digits)
  · rintro rfl
    rfl

/-- One more candidate than names that are not free leaves a free one. -/
theorem exists_free {isFree : String → Bool} {blocked : List String}
    (covered : ∀ name, ¬ isFree name → name ∈ blocked) (stem : String) (start : Nat) :
    ∃ n, start ≤ n ∧ n ≤ start + blocked.length ∧ isFree (stem ++ toString n) := by
  by_contra none
  let candidates := (List.range' start (blocked.length + 1)).map fun n => stem ++ toString n
  have distinct : candidates.Nodup :=
    List.Nodup.map (fun _ _ same => numbered_inj.mp same) (List.nodup_range' 1)
  have inside : candidates ⊆ blocked := by
    intro name member
    obtain ⟨n, range, rfl⟩ := List.mem_map.mp member
    rw [List.mem_range'_1] at range
    apply covered
    intro free
    exact none ⟨n, range.1, by omega, free⟩
  have fits := (distinct.subperm inside).length_le
  simp only [candidates, List.length_map, List.length_range'] at fits
  omega

theorem firstNumbered_spec {isFree : String → Bool} {stem : String} {n k steps : Nat}
    (free : isFree (stem ++ toString n)) (low : k ≤ n) (high : n ≤ k + steps) :
    ∃ m, k ≤ m ∧ firstNumbered isFree stem k steps = stem ++ toString m ∧
      isFree (stem ++ toString m) ∧ ∀ j, k ≤ j → j < m → ¬ isFree (stem ++ toString j) := by
  induction steps generalizing k with
  | zero =>
    have same : n = k := by omega
    subst same
    exact ⟨n, Nat.le_refl n, rfl, free, fun j above below => by omega⟩
  | succ steps ih =>
    rw [firstNumbered]
    split
    · rename_i here
      exact ⟨k, Nat.le_refl k, rfl, here, fun j above below => by omega⟩
    · rename_i taken
      have past : k + 1 ≤ n := by
        have : k ≠ n := by
          rintro rfl
          exact taken free
        omega
      obtain ⟨m, above, found, isFree, before⟩ := ih past (by omega)
      refine ⟨m, by omega, found, isFree, ?_⟩
      intro j from_k below
      by_cases first : j = k
      · exact first ▸ taken
      · exact before j (by omega) below

/-- The search ends on a free name if it may try as many names as are not free. -/
theorem firstFree_spec {isFree : String → Bool} {base link : String} {taken : Nat}
    (blocked : List String) (covered : ∀ name, ¬ isFree name → name ∈ blocked)
    (enough : blocked.length ≤ taken) :
    IsFirstFree isFree base link (firstFree isFree base link taken) := by
  rw [firstFree]
  split
  · rename_i free
    exact ⟨free, .inl rfl⟩
  · rename_i notFree
    obtain ⟨n, low, high, free⟩ := exists_free covered (base ++ link) 2
    obtain ⟨k, above, found, isFree, before⟩ := firstNumbered_spec free low
      (show n ≤ 2 + taken by omega)
    rw [found]
    exact ⟨isFree, .inr ⟨notFree, k, above, rfl, before⟩⟩

theorem mem_claims {interfaces : Bool} {name claim : String} :
    claim ∈ claims interfaces name ↔ claim = name ∨ interfaces ∧ claim = "I" ++ name := by
  cases interfaces <;> simp [claims]

theorem interfaceName_ne (name : String) : name ≠ "I" ++ name := by
  intro same
  have lengths := congrArg String.length same
  rw [String.length_append] at lengths
  have : "I".length = 1 := rfl
  omega

theorem claims_nodup (interfaces : Bool) (name : String) : (claims interfaces name).Nodup := by
  cases interfaces
  · exact List.nodup_singleton name
  · simpa [claims] using interfaceName_ne name

def areUnused (interfaces : Bool) (used : List String) (name : String) : Bool :=
  (claims interfaces name).all (!used.contains ·)

theorem areUnused_iff {interfaces : Bool} {used : List String} {name : String} :
    areUnused interfaces used name ↔ (claims interfaces name).Disjoint used := by
  simp [areUnused, List.Disjoint]

theorem mem_blocked {interfaces : Bool} {used : List String} {name : String}
    (notFree : ¬ areUnused interfaces used name) :
    name ∈ used ++ used.map fun n => String.ofList (n.toList.drop 1) := by
  rw [areUnused_iff, List.Disjoint] at notFree
  push Not at notFree
  obtain ⟨claim, claimed, isUsed, -⟩ := notFree
  rw [List.mem_append]
  rcases mem_claims.mp claimed with rfl | ⟨-, rfl⟩
  · exact .inl isUsed
  · refine .inr (List.mem_map.mpr ⟨_, isUsed, ?_⟩)
    simp

def nextIdentifier (interfaces : Bool) (used : List String) (name : String) : String :=
  firstFree (areUnused interfaces used) (typeIdentifier name) "" (2 * used.length)

theorem nextIdentifier_spec (interfaces : Bool) (used : List String) (name : String) :
    IsFirstFree (areUnused interfaces used) (typeIdentifier name) ""
      (nextIdentifier interfaces used name) := by
  apply firstFree_spec _ fun _ => mem_blocked
  rw [List.length_append, List.length_map]
  omega

theorem assignIdentifiers_cons (interfaces : Bool) (used : List String) (name : String)
    (rest : List String) :
    assignIdentifiers interfaces used (name :: rest) =
      nextIdentifier interfaces used name ::
        assignIdentifiers interfaces
          (claims interfaces (nextIdentifier interfaces used name) ++ used) rest := rfl

theorem length_assignIdentifiers (interfaces : Bool) (used names : List String) :
    (assignIdentifiers interfaces used names).length = names.length := by
  induction names generalizing used with
  | nil => rfl
  | cons name rest ih => rw [assignIdentifiers_cons, List.length_cons, List.length_cons, ih]

/-- No name is taken up twice, and none that was used before. -/
theorem assignIdentifiers_distinct (interfaces : Bool) (used names : List String) :
    let taken := (assignIdentifiers interfaces used names).flatMap (claims interfaces)
    taken.Nodup ∧ taken.Disjoint used := by
  induction names generalizing used with
  | nil => exact ⟨List.nodup_nil, List.disjoint_nil_left used⟩
  | cons name rest ih =>
    rw [assignIdentifiers_cons]
    have fresh := areUnused_iff.mp (nextIdentifier_spec interfaces used name).1
    obtain ⟨distinct, apart⟩ := ih (claims interfaces (nextIdentifier interfaces used name) ++ used)
    rw [List.disjoint_append_right] at apart
    rw [List.flatMap_cons]
    refine ⟨(claims_nodup interfaces _).append distinct (List.disjoint_symm apart.1), ?_⟩
    rw [List.disjoint_append_left]
    exact ⟨fresh, apart.2⟩

namespace Identifiers

theorem map_snd (interfaces : Bool) (definitions : List String) :
    (identifiers interfaces definitions).map (·.2) =
      assignIdentifiers interfaces globalTypes definitions :=
  List.map_snd_zip (Nat.le_of_eq (length_assignIdentifiers _ _ _))

end Identifiers

theorem length_distinctNames (used names : List String) :
    (distinctNames used names).length = names.length := by
  induction names generalizing used with
  | nil => rfl
  | cons name rest ih => rw [distinctNames, List.length_cons, List.length_cons, ih]

theorem distinctNames_distinct (used names : List String) :
    (distinctNames used names).Nodup ∧ (distinctNames used names).Disjoint used := by
  induction names generalizing used with
  | nil => exact ⟨List.nodup_nil, List.disjoint_nil_left used⟩
  | cons name rest ih =>
    have blocked : ∀ n, ¬ (!used.contains n) = true → n ∈ used := by
      intro n taken
      simpa using taken
    have first : IsFirstFree (fun n => !used.contains n) name "_" _ :=
      firstFree_spec used blocked (Nat.le_refl used.length)
    have free := first.1
    rw [Bool.not_eq_true', List.contains_eq_mem, decide_eq_false_iff_not] at free
    rw [distinctNames]
    obtain ⟨distinct, apart⟩ :=
      ih (firstFree (fun n => !used.contains n) name "_" used.length :: used)
    rw [List.disjoint_cons_right] at apart
    exact ⟨List.nodup_cons.mpr ⟨apart.1, distinct⟩, List.disjoint_cons_left.mpr ⟨free, apart.2⟩⟩

theorem escape_ne_nil (c : Char) : escape c ≠ [] := by
  unfold escape
  split_ifs <;> exact List.cons_ne_nil _ _

theorem escape_append_inj {a b : Char} {s t : List Char} (same : escape a ++ s = escape b ++ t) :
    a = b ∧ s = t := by
  unfold escape at same
  grind

theorem flatMap_escape_inj {s t : List Char} (same : s.flatMap escape = t.flatMap escape) : s = t := by
  induction s generalizing t with
  | nil =>
    cases t with
    | nil => rfl
    | cons b t =>
      rw [List.flatMap_cons] at same
      exact absurd (List.append_eq_nil_iff.mp same.symm).1 (escape_ne_nil b)
  | cons a s ih =>
    cases t with
    | nil =>
      rw [List.flatMap_cons] at same
      exact absurd (List.append_eq_nil_iff.mp same).1 (escape_ne_nil a)
    | cons b t =>
      rw [List.flatMap_cons, List.flatMap_cons] at same
      obtain ⟨rfl, rest⟩ := escape_append_inj same
      rw [ih rest]

/-- Names that differ are written as keys that differ: no name without quotes starts with one. -/
theorem propertyKey_injective : Function.Injective propertyKey := by
  have unquoted : ∀ {s t : List Char}, isPlainKey s → s ≠ stringLiteral t := by
    rintro s t plain rfl
    cases plain
  intro s t same
  unfold propertyKey at same
  split_ifs at same with plain plain' plain'
  · exact same
  · exact absurd same (unquoted plain)
  · exact absurd same.symm (unquoted plain')
  · exact flatMap_escape_inj (List.append_cancel_right (List.cons_eq_cons.mp same).2)

end SchemaSplit.TypeScript
