import SchemaSplit.Proofs.Group

/-!
The order in which a closure finds definitions. A walk that starts afresh in every round, and a queue
that scans one definition after the other, find the same definitions in the same order as rounds that
share what they have visited. What a definition mentions was listed when it was scanned the first
time, so a second scan adds nothing.
-/

namespace SchemaSplit

namespace Definitions

def enlist (source listed : Definitions) (name : String) : Definitions :=
  if listed.any (·.1 == name) then listed
  else
    match source.lookup name with
    | some s => listed ++ [(name, s)]
    | none => listed

def unlisted (source listed : Definitions) : Nat :=
  (source.filter fun d => !listed.any (·.1 == d.1)).length

theorem unlisted_append_lt {source listed : Definitions} {name : String} {s : Schema}
    (isNew : listed.any (·.1 == name) = false) (defined : source.lookup name = some s) :
    unlisted source (listed ++ [(name, s)]) < unlisted source listed := by
  have split : (source.filter fun d => !(listed ++ [(name, s)]).any (·.1 == d.1)) =
      (source.filter fun d => !listed.any (·.1 == d.1)).filter fun d => !(name == d.1) := by
    rw [List.filter_filter]
    congr 1
    funext d
    simp [Bool.and_comm]
  rw [unlisted, unlisted, split, List.length_filter_lt_length_iff_exists]
  exact ⟨(name, s), by simp [isNew, mem_of_lookup defined]⟩

theorem enlist_bound (source listed : Definitions) (name : String) :
    (enlist source listed name).length + unlisted source (enlist source listed name) ≤
      listed.length + unlisted source listed := by
  unfold enlist
  split
  · exact le_rfl
  · rename_i isNew
    split
    · rename_i s defined
      have fewer := unlisted_append_lt (Bool.not_eq_true _ ▸ isNew) defined
      have longer : (listed ++ [(name, s)]).length = listed.length + 1 := List.length_append
      omega
    · exact le_rfl

theorem enlist_isPrefix (source listed : Definitions) (name : String) :
    listed <+: enlist source listed name := by
  unfold enlist
  split
  · exact List.prefix_rfl
  · split
    · exact List.prefix_append _ _
    · exact List.prefix_rfl

variable {source listed : Definitions}

theorem enlist_all_bound (source listed : Definitions) (wanted : List String) :
    (wanted.foldl (enlist source) listed).length +
        unlisted source (wanted.foldl (enlist source) listed) ≤
      listed.length + unlisted source listed := by
  induction wanted generalizing listed with
  | nil => exact le_rfl
  | cons name rest ih => exact (ih (enlist source listed name)).trans (enlist_bound source listed name)

theorem enlist_all_isPrefix (source listed : Definitions) (wanted : List String) :
    listed <+: wanted.foldl (enlist source) listed := by
  induction wanted generalizing listed with
  | nil => exact List.prefix_rfl
  | cons name rest ih =>
    exact (enlist_isPrefix source listed name).trans (ih (enlist source listed name))

def Settled (source listed : Definitions) (name : String) : Prop :=
  name ∈ names source → name ∈ names listed

theorem enlist_of_settled {name : String} (known : Settled source listed name) :
    enlist source listed name = listed := by
  unfold enlist
  split
  · rfl
  · rename_i isNew
    split
    · rename_i s defined
      have member := known (mem_names.mpr ⟨s, defined⟩)
      obtain ⟨d, inside, same⟩ := List.mem_map.mp member
      refine absurd (List.any_eq_true.mpr ?_) isNew
      exact ⟨d, inside, beq_iff_eq.mpr same⟩
    · rfl

theorem Settled.of_front {more : Definitions} {name : String}
    (known : Settled source listed name) (longer : listed <+: more) : Settled source more name :=
  fun defined => List.IsPrefix.subset (longer.map _) (known defined)

theorem enlist_all_of_settled {wanted : List String}
    (known : ∀ name ∈ wanted, Settled source listed name) :
    wanted.foldl (enlist source) listed = listed := by
  induction wanted with
  | nil => rfl
  | cons name rest ih =>
    rw [List.foldl_cons, enlist_of_settled (known name List.mem_cons_self)]
    exact ih fun other inside => known other (List.mem_cons_of_mem _ inside)

theorem enlist_all_skip {ds : Definitions} {skipped : String × Schema → Bool}
    {mentioned : String × Schema → List String}
    (known : ∀ d ∈ ds, skipped d → ∀ name ∈ mentioned d, Settled source listed name) :
    (ds.flatMap fun d => if skipped d then [] else mentioned d).foldl (enlist source) listed =
      (ds.flatMap mentioned).foldl (enlist source) listed := by
  induction ds generalizing listed with
  | nil => rfl
  | cons d rest ih =>
    have later : ∀ e ∈ rest, skipped e → ∀ name ∈ mentioned e,
        Settled source ((mentioned d).foldl (enlist source) listed) name :=
      fun e inside skip name member =>
        (known e (List.mem_cons_of_mem _ inside) skip name member).of_front
          (enlist_all_isPrefix source listed _)
    rw [List.flatMap_cons, List.flatMap_cons, List.foldl_append, List.foldl_append]
    by_cases skip : skipped d
    · have none := enlist_all_of_settled (known d List.mem_cons_self skip)
      rw [none] at later ⊢
      rw [if_pos skip, List.foldl_nil]
      exact ih later
    · rw [if_neg skip]
      exact ih later

end Definitions

namespace Closure
open Definitions

/-- A round that has visited nothing before it, so that it walks all that was found once more. -/
def freshRound (source : Definitions) (root : String) (found : Definitions) : Definitions :=
  (scan root found ∅).1.foldl (enlist source) found

def rescan (source : Definitions) (root : String) (found : Definitions) : Definitions :=
  if _still : (freshRound source root found).length = found.length then freshRound source root found
  else rescan source root (freshRound source root found)
termination_by unlisted source found
decreasing_by
  have bound := enlist_all_bound source found (scan root found ∅).1
  have longer := (enlist_all_isPrefix source found (scan root found ∅).1).length_le
  unfold freshRound at _still ⊢
  omega

/-- A queue in which nothing is ever taken out: what stands before a position has been scanned, and
what is found is put at the end. -/
def worklist (source : Definitions) (root : String) (listed : Definitions) (scanned : Nat) :
    Definitions :=
  match _next : listed[scanned]? with
  | none => listed
  | some d =>
    worklist source root ((d.2.refTree.names root).foldl (enlist source) listed) (scanned + 1)
termination_by listed.length + unlisted source listed - scanned
decreasing_by
  have bound := enlist_all_bound source listed (d.2.refTree.names root)
  have inside := (List.getElem?_eq_some_iff.mp _next).1
  omega

variable {source members : Definitions} {root : String}

theorem found_foldl_add (wanted : List String) (c : Closure) :
    (wanted.foldl (add source) c).found = wanted.foldl (enlist source) c.found := by
  induction wanted generalizing c with
  | nil => rfl
  | cons name rest ih =>
    have one : (add source c name).found = enlist source c.found name := by
      unfold add enlist
      split
      · rfl
      · cases source.lookup name <;> rfl
    rw [List.foldl_cons, List.foldl_cons, ih, one]

theorem scan_fresh {found : Definitions} (distinct : (names found).Nodup) :
    (scan root found ∅).1 = found.flatMap fun d => d.2.refTree.names root := by
  have rooted : Rooted ∅ := by
    intro x member
    simp at member
  rw [(scan_spec root distinct rooted).1]
  refine List.flatMap_congr fun d _ => ?_
  simp

theorem Inv.found_round {c : Closure} (inv : Inv source root members c) :
    (c.round source root).found =
      (c.found.flatMap fun d => d.2.refTree.names root).foldl (enlist source) c.found := by
  rw [Closure.round, found_foldl_add, (scan_spec root inv.part.distinct inv.rooted).1]
  refine enlist_all_skip fun d found walked name member defined => ?_
  have seen : Walked c.visited d.1 := Std.HashSet.mem_iff_contains.mpr walked
  exact inv.walkedClosed d found seen name ((Schema.mem_names_refTree d.2).mp member) defined

theorem Inv.freshRound_eq {c : Closure} (inv : Inv source root members c) :
    freshRound source root c.found = (c.round source root).found := by
  rw [freshRound, scan_fresh inv.part.distinct, inv.found_round]

theorem rescan_of_loop {c last : Closure} (inv : Inv source root members c)
    (loop : Loop source root c last) : rescan source root c.found = last.found := by
  induction loop with
  | @stop c still =>
    rw [rescan.eq_1, inv.freshRound_eq, dif_pos still]
  | @again c last grown next ih =>
    rw [rescan.eq_1, inv.freshRound_eq, dif_neg grown]
    exact ih inv.round

theorem worklist_step {listed : Definitions} {scanned : Nat} {d : String × Schema}
    (next : listed[scanned]? = some d) :
    worklist source root listed scanned =
      worklist source root ((d.2.refTree.names root).foldl (enlist source) listed) (scanned + 1) := by
  rw [worklist.eq_1]
  split
  · rename_i none
    rw [next] at none
    cases none
  · rename_i e next'
    rw [next] at next'
    cases next'
    rfl

theorem worklist_run (before run after : Definitions) :
    worklist source root (before ++ run ++ after) before.length =
      worklist source root
        ((run.flatMap fun d => d.2.refTree.names root).foldl (enlist source)
          (before ++ run ++ after))
        (before ++ run).length := by
  induction run generalizing before after with
  | nil => simp
  | cons d rest ih =>
    have here : (before ++ d :: rest ++ after)[before.length]? = some d := by simp
    obtain ⟨new, grown⟩ := enlist_all_isPrefix source (before ++ d :: rest ++ after)
      (d.2.refTree.names root)
    have moved : before ++ d :: rest ++ after ++ new = (before ++ [d]) ++ rest ++ (after ++ new) := by
      simp
    have ends : (before ++ d :: rest).length = (before ++ [d] ++ rest).length := by simp
    have position : before.length + 1 = (before ++ [d]).length := by simp
    rw [worklist_step here, List.flatMap_cons, List.foldl_append, ← grown, moved, ends, position]
    exact ih (before ++ [d]) (after ++ new)

theorem worklist_end (listed : Definitions) :
    worklist source root listed listed.length = listed := by
  rw [worklist]
  split
  · rfl
  · rename_i d next
    rw [List.getElem?_length] at next
    cases next

/-- A round takes the queue from the definitions found last to those that it finds itself. -/
theorem Inv.worklist_round {c : Closure} (inv : Inv source root members c)
    {walked new : Definitions} (split : c.found = walked ++ new)
    (seen : ∀ d ∈ walked, Walked c.visited d.1) :
    worklist source root c.found walked.length =
      worklist source root (c.round source root).found c.found.length := by
  have known : ∀ name ∈ walked.flatMap fun d => d.2.refTree.names root,
      Settled source c.found name := by
    intro name member defined
    obtain ⟨d, inside, mentioned⟩ := List.mem_flatMap.mp member
    have found : d ∈ c.found := split ▸ List.mem_append_left _ inside
    have mentions := (Schema.mem_names_refTree d.2).mp mentioned
    exact inv.walkedClosed d found (seen d inside) name mentions defined
  have all : (c.round source root).found =
      (new.flatMap fun d => d.2.refTree.names root).foldl (enlist source) c.found := by
    rw [inv.found_round, split, List.flatMap_append, List.foldl_append, ← split,
      enlist_all_of_settled known]
  have run : worklist source root (walked ++ new ++ []) walked.length = _ :=
    worklist_run walked new []
  rw [List.append_nil, ← split, ← all] at run
  exact run

/-- Between rounds the queue stands where the definitions begin that were found last. -/
theorem worklist_of_loop {c last : Closure} (inv : Inv source root members c)
    (loop : Loop source root c last) {walked new : Definitions} (split : c.found = walked ++ new)
    (seen : ∀ d ∈ walked, Walked c.visited d.1) :
    worklist source root c.found walked.length = last.found := by
  induction loop generalizing walked new with
  | @stop c still =>
    obtain ⟨more, grown, -⟩ := inv.round_spec
    have none : more = [] := by
      rw [grown, List.length_append] at still
      exact List.eq_nil_of_length_eq_zero (by omega)
    rw [inv.worklist_round split seen, grown, none, List.append_nil, worklist_end]
  | @again c last grown next ih =>
    obtain ⟨more, longer, -, -, -, walkedNow, -⟩ := inv.round_spec
    rw [inv.worklist_round split seen]
    exact ih inv.round longer fun d found => (walkedNow d.1).mpr (List.mem_map_of_mem found)

/-- Sharing what was visited between the rounds is a matter of speed only. The closure lists the
    given definitions first, and all others in the order in which rounds that forget what they
    visited would find them, which is that of a queue that scans each definition once. -/
theorem ofMembers_found_eq (part : PartOf members source) (root : String) :
    (ofMembers source root members).found = rescan source root members ∧
      (ofMembers source root members).found = worklist source root members 0 ∧
      members <+: (ofMembers source root members).found := by
  have start : Inv source root members { found := members } := .start part
  have loop := (ofMembers_loop part root).1
  have queued := worklist_of_loop start loop (List.nil_append members).symm nofun
  exact ⟨(rescan_of_loop start loop).symm, queued.symm, loop.found_isPrefix start⟩

/-- A definition that refers to a later one before an earlier one, twice to one and to itself, and to
    one that does not exist. -/
theorem ofMembers_found_eq_cycle :
    let root := "#/definitions/"
    let a : Schema :=
      { properties := [("c", .reference "#/definitions/C"), ("gone", .reference "#/definitions/Gone"),
          ("b", .reference "#/definitions/B"), ("again", .reference "#/definitions/C")] }
    let c : Schema :=
      { items := some (.reference "#/definitions/C"),
        allOf := [.reference "#/definitions/D", .reference "#/definitions/A"] }
    let source : Definitions := [("D", {}), ("A", a), ("B", {}), ("C", c)]
    let closure := ofMembers source root [("A", a)]
    PartOf [("A", a)] source ∧ closure.found = rescan source root [("A", a)] ∧
      closure.found = worklist source root [("A", a)] 0 ∧ [("A", a)] <+: closure.found ∧
      names closure.found = ["A", "C", "B", "D"] := by
  intro root a c source closure
  have part : PartOf [("A", a)] source := by
    refine ⟨by decide, ?_⟩
    intro d member
    rw [List.mem_singleton.mp member]
    rfl
  obtain ⟨fresh, queued, first⟩ := ofMembers_found_eq part root
  refine ⟨part, fresh, queued, first, ?_⟩
  have wanted : a.refTree.names root = ["C", "Gone", "B", "C"] := by decide +kernel
  have wanted' : c.refTree.names root = ["C", "D", "A"] := by decide +kernel
  have all : worklist source root [("A", a)] 0 = [("A", a), ("C", c), ("B", {}), ("D", {})] := by
    rw [worklist_step (d := ("A", a)) rfl, wanted]
    show worklist source root [("A", a), ("C", c), ("B", {})] 1 = _
    rw [worklist_step (d := ("C", c)) rfl, wanted']
    show worklist source root [("A", a), ("C", c), ("B", {}), ("D", {})] 2 = _
    rw [worklist_step (d := ("B", {})) rfl, worklist_step (d := ("D", {})) rfl]
    exact worklist_end _
  rw [queued, all]
  rfl

end Closure
end SchemaSplit
