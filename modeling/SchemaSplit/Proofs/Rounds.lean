import SchemaSplit.Proofs.Discovery

/-!
The work that a closure takes. A walk is written once more with a log of the nodes that it expands,
which are those whose children it goes through. A node is expanded when it is first visited, and all
rounds share what they have visited, so no node is expanded twice. Every round but the last finds a
definition, so there are no more rounds than definitions.
-/

namespace SchemaSplit

/-- What a walk reports, the nodes that it expands one after the other, and what is visited behind it. -/
structure Walk where
  names : List String
  expanded : List NodeId
  visited : Visited

namespace Walk

def nothing (visited : Visited) : Walk := ⟨[], [], visited⟩

def andThen (first : Walk) (next : Visited → Walk) : Walk :=
  let second := next first.visited
  ⟨first.names ++ second.names, first.expanded ++ second.expanded, second.visited⟩

def result (w : Walk) : List String × Visited := (w.names, w.visited)

structure Once (before : Visited) (expanded : List NodeId) (after : Visited) : Prop where
  distinct : expanded.Nodup
  fresh : ∀ x ∈ expanded, x ∉ before
  visited : ∀ x, x ∈ after ↔ x ∈ before ∨ x ∈ expanded

namespace Once

variable {before after last : Visited} {first second : List NodeId} {id : NodeId}

protected theorem nil (visited : Visited) : Once visited [] visited :=
  ⟨List.nodup_nil, nofun, fun x => by simp⟩

protected theorem append (one : Once before first after) (two : Once after second last) :
    Once before (first ++ second) last where
  distinct := one.distinct.append two.distinct fun x inside again =>
    two.fresh x again ((one.visited x).mpr (.inr inside))
  fresh x inside seen := by
    rcases List.mem_append.mp inside with inside | inside
    · exact one.fresh x inside seen
    · exact two.fresh x inside ((one.visited x).mpr (.inl seen))
  visited x := by rw [two.visited, one.visited, List.mem_append, or_assoc]

protected theorem expand (unseen : id ∉ before) (below : Once (before.insert id) first after) :
    Once before (id :: first) after where
  distinct := by
    refine List.nodup_cons.mpr ⟨fun again => below.fresh id again ?_, below.distinct⟩
    exact Std.HashSet.mem_insert_self
  fresh x inside seen := by
    rcases List.mem_cons.mp inside with rfl | inside
    · exact unseen seen
    · exact below.fresh x inside (Std.HashSet.mem_insert.mpr (.inr seen))
  visited x := by
    rw [below.visited, Std.HashSet.mem_insert, List.mem_cons, beq_iff_eq, eq_comm, or_assoc]
    exact or_left_comm

end Once
end Walk

namespace RefTree

mutual

def walk (root : String) (id : NodeId) : RefTree → Visited → Walk
  | node r cs, visited =>
    if visited.contains id then .nothing visited
    else
      let below := walkAll root id 0 cs (visited.insert id)
      ⟨(r.bind (referenceName? root)).toList ++ below.names, id :: below.expanded, below.visited⟩
termination_by structural t => t

def walkAll (root : String) (parent : NodeId) (i : Nat) : List RefTree → Visited → Walk
  | [], visited => .nothing visited
  | t :: rest, visited =>
    (walk root ⟨parent.root, i :: parent.path⟩ t visited).andThen
      (walkAll root parent (i + 1) rest)
termination_by structural ts => ts

end

mutual

theorem collect_eq_walk (root : String) (id : NodeId) (t : RefTree) (visited : Visited) :
    t.collect root id visited = (t.walk root id visited).result := by
  cases t with
  | node r cs =>
    rw [collect, walk]
    split
    · rfl
    · rw [collectAll_eq_walkAll root id 0 cs]
      rfl
termination_by structural t

theorem collectAll_eq_walkAll (root : String) (parent : NodeId) (i : Nat) (ts : List RefTree)
    (visited : Visited) :
    collectAll root parent i ts visited = (walkAll root parent i ts visited).result := by
  cases ts with
  | nil => rfl
  | cons t rest =>
    rw [collectAll, walkAll, collect_eq_walk root _ t]
    dsimp only [Walk.result]
    rw [collectAll_eq_walkAll root parent (i + 1) rest]
    rfl
termination_by structural ts

end

mutual

theorem walk_once (root : String) (id : NodeId) (t : RefTree) (visited : Visited) :
    Walk.Once visited (t.walk root id visited).expanded (t.walk root id visited).visited := by
  cases t with
  | node r cs =>
    rw [walk]
    split
    · exact .nil visited
    · rename_i unseen
      rw [← Std.HashSet.mem_iff_contains] at unseen
      exact .expand unseen (walkAll_once root id 0 cs _)
termination_by structural t

theorem walkAll_once (root : String) (parent : NodeId) (i : Nat) (ts : List RefTree)
    (visited : Visited) :
    Walk.Once visited (walkAll root parent i ts visited).expanded
      (walkAll root parent i ts visited).visited := by
  cases ts with
  | nil => exact .nil visited
  | cons t rest =>
    exact (walk_once root _ t visited).append (walkAll_once root parent (i + 1) rest _)
termination_by structural ts

end

end RefTree

namespace Closure
open Definitions RefTree PlacedNode

def scanWalk (root : String) : Definitions → Visited → Walk
  | [], visited => .nothing visited
  | (name, s) :: rest, visited =>
    (s.refTree.walk root ⟨name, []⟩ visited).andThen (scanWalk root rest)

theorem scan_eq_scanWalk (root : String) (found : Definitions) (visited : Visited) :
    scan root found visited = (scanWalk root found visited).result := by
  induction found generalizing visited with
  | nil => rfl
  | cons d rest ih =>
    rw [scan, scanWalk, Schema.references, collect_eq_walk]
    dsimp only [Walk.result]
    rw [ih]
    rfl

theorem scanWalk_once (root : String) (found : Definitions) (visited : Visited) :
    Walk.Once visited (scanWalk root found visited).expanded
      (scanWalk root found visited).visited := by
  induction found generalizing visited with
  | nil => exact .nil visited
  | cons d rest ih => exact (walk_once root _ d.2.refTree visited).append (ih _)

def expanded (root : String) (c : Closure) : List NodeId := (scanWalk root c.found c.visited).expanded

/-- Rounds without a bound, as the loop makes them, with the nodes that each of them expands. -/
inductive Run (source : Definitions) (root : String) :
    Closure → List (List NodeId) → Closure → Prop
  | stop {c : Closure} (still : (c.round source root).found.length = c.found.length) :
      Run source root c [c.expanded root] (c.round source root)
  | again {c last : Closure} {log : List (List NodeId)}
      (grown : (c.round source root).found.length ≠ c.found.length)
      (next : Run source root (c.round source root) log last) :
      Run source root c (c.expanded root :: log) last

variable {source members : Definitions} {root : String} {c last : Closure} {log : List (List NodeId)}

theorem Loop.exists_run (loop : Loop source root c last) : ∃ log, Run source root c log last := by
  induction loop with
  | stop still => exact ⟨_, .stop still⟩
  | again grown _ ih =>
    obtain ⟨log, run⟩ := ih
    exact ⟨_, .again grown run⟩

theorem Run.unique {log' : List (List NodeId)} {last' : Closure} (first : Run source root c log last)
    (second : Run source root c log' last') : log' = log ∧ last' = last := by
  induction first generalizing log' with
  | stop still =>
    cases second with
    | stop => exact ⟨rfl, rfl⟩
    | again grown => exact absurd still grown
  | again grown _ ih =>
    cases second with
    | stop still => exact absurd still grown
    | again _ next =>
      obtain ⟨rfl, rfl⟩ := ih next
      exact ⟨rfl, rfl⟩

theorem visited_round (source : Definitions) (root : String) (c : Closure) :
    (c.round source root).visited = (scan root c.found c.visited).2 := by
  obtain ⟨-, -, kept, -⟩ := adds_spec source (scan root c.found c.visited).1
    { c with visited := (scan root c.found c.visited).2 }
  exact kept

theorem round_once (source : Definitions) (root : String) (c : Closure) :
    Walk.Once c.visited (c.expanded root) (c.round source root).visited := by
  rw [visited_round, scan_eq_scanWalk]
  exact scanWalk_once root c.found c.visited

theorem Run.once (run : Run source root c log last) :
    Walk.Once c.visited log.flatten last.visited := by
  induction run with
  | @stop c still =>
    rw [List.flatten_singleton]
    exact round_once source root c
  | @again c last log grown next ih =>
    rw [List.flatten_cons]
    exact (round_once source root c).append ih

/-! The number of rounds -/

theorem Inv.length_round_le (inv : Inv source root members c) :
    c.found.length ≤ (c.round source root).found.length := by
  obtain ⟨new, grown, -⟩ := inv.round_spec
  rw [grown, List.length_append]
  exact Nat.le_add_right _ _

/-- Each round but the last takes one of the definitions that are left to find. -/
theorem Run.length_le (inv : Inv source root members c) (run : Run source root c log last) :
    log.length + c.found.length ≤ source.length + 1 := by
  induction run with
  | @stop c still =>
    have := inv.part.length_le
    rw [List.length_singleton]
    omega
  | @again c last log grown next ih =>
    have longer := inv.length_round_le
    have later := ih inv.round
    rw [List.length_cons]
    omega

theorem Run.length_le_max (part : PartOf members source)
    (run : Run source root { found := members } log last) : log.length ≤ max 1 source.length := by
  cases members with
  | nil =>
    cases run with
    | stop => exact Nat.le_max_left _ _
    | again grown => exact absurd rfl grown
  | cons d rest =>
    have bound := run.length_le (.start part)
    rw [List.length_cons] at bound
    omega

/-! The nodes visited -/

def calls (found : Definitions) : List PlacedNode := found.map fun d => ⟨⟨d.1, []⟩, d.2⟩

theorem visited_scan (root : String) (found : Definitions) (visited : Visited) :
    (scan root found visited).2 = (collectEach root visited (calls found)).2 := by
  induction found generalizing visited with
  | nil => rfl
  | cons d rest ih => exact ih _

theorem isNodeOf_of_mem_calls {found : Definitions} (part : PartOf found source) :
    ∀ call ∈ calls found, call.IsNodeOf source := by
  intro call member
  obtain ⟨d, inside, rfl⟩ := List.mem_map.mp member
  exact Option.bind_eq_some_iff.mpr ⟨d.2, part.same d inside, rfl⟩

theorem reaches_calls {found : Definitions} {x : NodeId} :
    Reaches (calls found) x ↔ ∃ d ∈ found, x ∈ d.2.places ⟨d.1, []⟩ := by
  simp only [Reaches, calls, List.mem_map, exists_exists_and_eq_and]

def VisitedByCalls (root : String) (c : Closure) : Prop :=
  ∃ made ⊆ calls c.found, c.visited = (collectEach root ∅ made).2

theorem VisitedByCalls.round (inv : Inv source root members c) (visited : VisitedByCalls root c) :
    VisitedByCalls root (c.round source root) ∧
      ∀ x, x ∈ (c.round source root).visited ↔ Reaches (calls c.found) x := by
  obtain ⟨made, known, visited⟩ := visited
  obtain ⟨new, grown, -⟩ := inv.round_spec
  have all : (c.round source root).visited = (collectEach root ∅ (made ++ calls c.found)).2 := by
    rw [visited_round, visited_scan, visited, collectEach_append]
  have inside : made ++ calls c.found ⊆ calls c.found := List.append_subset.mpr ⟨known, fun _ => id⟩
  refine ⟨⟨_, fun call member => ?_, all⟩, fun x => ?_⟩
  · rw [grown, calls, List.map_append]
    exact List.mem_append_left _ (inside member)
  · have placed := isNodeOf_of_mem_calls inv.part
    rw [all, mem_collectEach root fun call member => placed call (inside member)]
    constructor
    · rintro ⟨call, member, reached⟩
      exact ⟨call, inside member, reached⟩
    · rintro ⟨call, member, reached⟩
      exact ⟨call, List.mem_append_right _ member, reached⟩

/-- The last round leaves exactly the nodes of the definitions found visited. -/
theorem Run.mem_visited (inv : Inv source root members c) (visited : VisitedByCalls root c)
    (run : Run source root c log last) (x : NodeId) :
    x ∈ last.visited ↔ ∃ d ∈ last.found, x ∈ d.2.places ⟨d.1, []⟩ := by
  induction run with
  | @stop c still =>
    obtain ⟨new, grown, -⟩ := inv.round_spec
    have none : new = [] := by
      rw [grown, List.length_append] at still
      exact List.eq_nil_of_length_eq_zero (by omega)
    rw [(visited.round inv).2, reaches_calls, grown, none, List.append_nil]
  | again grown next ih => exact ih inv.round (visited.round inv).1

/-- The loop ends, and it has one way to go. It takes no more rounds than the source has definitions,
    or a single one. All rounds together expand no node twice: they expand each node of the definitions
    of the closure once, and none of another definition. -/
theorem ofMembers_rounds (part : PartOf members source) (root : String) :
    let closure := ofMembers source root members
    ∃ log, Run source root { found := members } log closure ∧
      (∀ log' last, Run source root { found := members } log' last → log' = log ∧ last = closure) ∧
      log.length ≤ max 1 source.length ∧
      log.flatten.Nodup ∧
      ∀ x, x ∈ log.flatten ↔ ∃ d ∈ closure.found, x ∈ d.2.places ⟨d.1, []⟩ := by
  intro closure
  obtain ⟨log, run⟩ := (ofMembers_loop part root).1.exists_run
  have unvisited : VisitedByCalls root { found := members } := ⟨[], List.nil_subset _, rfl⟩
  refine ⟨log, run, fun log' last => run.unique, run.length_le_max part, run.once.distinct, ?_⟩
  intro x
  have logged := run.once.visited x
  rw [or_iff_right Std.HashSet.not_mem_empty] at logged
  rw [← logged]
  exact run.mem_visited (.start part) unvisited x

/-- A chain of definitions, of which each round finds the next one: the bound is reached. -/
theorem ofMembers_rounds_chain :
    let root := "#/definitions/"
    let a : Schema := { items := some (.reference "#/definitions/B") }
    let b : Schema :=
      { properties := [("c", .reference "#/definitions/C"), ("a", .reference "#/definitions/A")] }
    let source : Definitions := [("A", a), ("B", b), ("C", {})]
    let closure := ofMembers source root [("A", a)]
    PartOf [("A", a)] source ∧ ∃ log, Run source root { found := [("A", a)] } log closure ∧
      log.length = max 1 source.length ∧ log.flatten.Nodup ∧
      ∀ x, x ∈ log.flatten ↔ ∃ d ∈ closure.found, x ∈ d.2.places ⟨d.1, []⟩ := by
  intro root a b source closure
  have part : PartOf [("A", a)] source := by
    refine ⟨by decide, ?_⟩
    intro d member
    rw [List.mem_singleton.mp member]
    rfl
  have start : Inv source root [("A", a)] { found := [("A", a)] } := .start part
  have toB : a.refTree.names root = ["B"] := by decide +kernel
  have toC : b.refTree.names root = ["C", "A"] := by decide +kernel
  have first : (Closure.round source root { found := [("A", a)] }).found = [("A", a), ("B", b)] := by
    rw [start.found_round, List.flatMap_singleton, toB]
    rfl
  have second :
      (Closure.round source root (Closure.round source root { found := [("A", a)] })).found =
        [("A", a), ("B", b), ("C", {})] := by
    rw [start.round.found_round, first, List.flatMap_cons, List.flatMap_singleton, toB, toC]
    rfl
  have enough : ∀ log last, Run source root { found := [("A", a)] } log last → 3 ≤ log.length := by
    intro log last run
    cases run with
    | stop still =>
      rw [first] at still
      cases still
    | again _ next =>
      cases next with
      | stop still =>
        rw [second, first] at still
        cases still
      | again _ next => cases next <;> simp
  obtain ⟨log, run, -, bound, distinct, nodes⟩ := ofMembers_rounds part root
  exact ⟨part, log, run, Nat.le_antisymm bound (enough log closure run), distinct, nodes⟩

end Closure
end SchemaSplit
