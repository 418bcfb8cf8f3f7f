import SchemaSplit.Document
import SchemaSplit.Proofs.Reference
import Mathlib.Data.List.Induction
import Mathlib.Data.List.Nodup

/-!
Walks that share what they have visited. Between two walks the visited nodes are those below the
nodes walked so far, all of them. So a walk may leave out everything below a visited node, and each
node is reported by the first walk that comes to it.
-/

namespace SchemaSplit

structure PlacedNode where
  place : NodeId
  node : Schema

namespace Schema

def target? (root : String) (s : Schema) : Option String := s.ref.bind (referenceName? root)

theorem target?_eq_some {root name : String} {s : Schema} :
    s.target? root = some name ↔ s.ref = some (root ++ name) ∧ name ≠ "" := by
  rw [target?, Option.bind_eq_some_iff]
  constructor
  · rintro ⟨reference, here, named⟩
    obtain ⟨rfl, filled⟩ := referenceName?_eq_some.mp named
    exact ⟨here, filled⟩
  · rintro ⟨here, filled⟩
    exact ⟨_, here, referenceName?_eq_some.mpr ⟨rfl, filled⟩⟩

def nodes (id : NodeId) (s : Schema) : List PlacedNode :=
  ⟨id, s⟩ :: s.children.attach.zipIdx.flatMap fun (c, i) => c.1.nodes (id.child i)
termination_by sizeOf s
decreasing_by exact sizeOf_child_lt c.2

def nodesBelow (id : NodeId) (i : Nat) (ss : List Schema) : List PlacedNode :=
  (ss.zipIdx i).flatMap fun (c, j) => c.nodes (id.child j)

theorem nodes_eq (place : NodeId) (s : Schema) :
    s.nodes place = ⟨place, s⟩ :: nodesBelow place 0 s.children := by
  have detached : s.children.zipIdx = s.children.attach.zipIdx.map (Prod.map Subtype.val id) := by
    rw [← List.zipIdx_map, List.attach_map_subtype_val]
  rw [nodes, nodesBelow, detached, List.flatMap_map]
  rfl

theorem nodesBelow_cons (id : NodeId) (i : Nat) (c : Schema) (rest : List Schema) :
    nodesBelow id i (c :: rest) = c.nodes (id.child i) ++ nodesBelow id (i + 1) rest := by
  rw [nodesBelow, nodesBelow, List.zipIdx_cons, List.flatMap_cons]

theorem mem_nodesBelow {id : NodeId} {i : Nat} {ss : List Schema} {n : PlacedNode} :
    n ∈ nodesBelow id i ss ↔
      ∃ (j : Nat) (c : Schema), ss[j]? = some c ∧ n ∈ c.nodes (id.child (i + j)) := by
  rw [nodesBelow, List.mem_flatMap]
  constructor
  · rintro ⟨⟨c, k⟩, member, inside⟩
    obtain ⟨above, here⟩ := List.mk_mem_zipIdx_iff_le_and_getElem?_sub.mp member
    refine ⟨k - i, c, here, ?_⟩
    rwa [Nat.add_sub_cancel' above]
  · rintro ⟨j, c, here, inside⟩
    refine ⟨(c, i + j), ?_, inside⟩
    rw [List.mk_mem_zipIdx_iff_le_and_getElem?_sub]
    exact ⟨Nat.le_add_right i j, by rwa [Nat.add_sub_cancel_left]⟩

theorem mem_nodes {id : NodeId} {s : Schema} {n : PlacedNode} :
    n ∈ s.nodes id ↔
      n = ⟨id, s⟩ ∨ ∃ (i : Nat) (c : Schema), s.children[i]? = some c ∧ n ∈ c.nodes (id.child i) := by
  rw [nodes_eq, List.mem_cons, mem_nodesBelow]
  simp only [Nat.zero_add]

theorem self_mem_nodes (id : NodeId) (s : Schema) : ⟨id, s⟩ ∈ s.nodes id := mem_nodes.mpr (.inl rfl)

/-- The names in the tree of a schema are what its nodes refer to, in the order of the walk. -/
theorem names_refTree (root : String) (id : NodeId) (s : Schema) :
    s.refTree.names root = (s.nodes id).filterMap (·.node.target? root) := by
  have below : ∀ (ss : List Schema) (i : Nat), (∀ c ∈ ss, c ∈ s.children) →
      RefTree.namesOfAll root (ss.map refTree) =
        (nodesBelow id i ss).filterMap (·.node.target? root) := by
    intro ss
    induction ss with
    | nil => exact fun _ _ => rfl
    | cons c rest ih =>
      intro i children
      have smaller := sizeOf_child_lt (children c List.mem_cons_self)
      rw [List.map_cons, RefTree.namesOfAll, nodesBelow_cons, List.filterMap_append,
        names_refTree root (id.child i) c,
        ih (i + 1) fun d later => children d (List.mem_cons_of_mem _ later)]
  rw [refTree_eq, RefTree.names, below s.children 0 fun _ member => member, nodes_eq,
    List.filterMap_cons, target?]
  cases s.ref.bind (referenceName? root) <;> rfl
termination_by sizeOf s

theorem covers_of_mem_nodes {id : NodeId} {s : Schema} {n : PlacedNode} (inside : n ∈ s.nodes id) :
    id.Covers n.place := by
  rcases mem_nodes.mp inside with rfl | ⟨i, c, child, below⟩
  · exact id.covers_refl
  · have smaller := sizeOf_child_lt (List.mem_of_getElem? child)
    exact (covers_of_mem_nodes below).of_child
termination_by sizeOf s

theorem nodes_subset_of_mem {id : NodeId} {s : Schema} {n : PlacedNode} (inside : n ∈ s.nodes id) :
    n.node.nodes n.place ⊆ s.nodes id := by
  rcases mem_nodes.mp inside with rfl | ⟨i, c, child, below⟩
  · exact fun _ member => member
  · have smaller := sizeOf_child_lt (List.mem_of_getElem? child)
    intro m member
    exact mem_nodes.mpr (.inr ⟨i, c, child, nodes_subset_of_mem below member⟩)
termination_by sizeOf s

abbrev places (id : NodeId) (s : Schema) : List NodeId := (s.nodes id).map (·.place)

theorem not_mem_placesBelow {id x : NodeId} {i j : Nat} (ss : List Schema)
    (covered : (id.child i).Covers x) (later : i < j) :
    x ∉ (nodesBelow id j ss).map (·.place) := by
  intro member
  obtain ⟨n, inside, rfl⟩ := List.mem_map.mp member
  obtain ⟨k, c, -, below⟩ := mem_nodesBelow.mp inside
  have same := covered.child_unique (covers_of_mem_nodes below)
  omega

theorem nodup_places (id : NodeId) (s : Schema) : (s.places id).Nodup := by
  have below : ∀ (ss : List Schema) (i : Nat), (∀ c ∈ ss, c ∈ s.children) →
      ((nodesBelow id i ss).map (·.place)).Nodup := by
    intro ss
    induction ss with
    | nil => exact fun _ _ => List.nodup_nil
    | cons c rest ih =>
      intro i children
      have smaller := sizeOf_child_lt (children c List.mem_cons_self)
      rw [nodesBelow_cons, List.map_append]
      refine List.Nodup.append (nodup_places (id.child i) c)
        (ih (i + 1) fun d later => children d (List.mem_cons_of_mem _ later)) ?_
      intro x first
      obtain ⟨n, inside, rfl⟩ := List.mem_map.mp first
      exact not_mem_placesBelow rest (covers_of_mem_nodes inside) (Nat.lt_succ_self i)
  rw [places, nodes_eq, List.map_cons, List.nodup_cons]
  refine ⟨?_, below s.children 0 fun _ member => member⟩
  intro member
  obtain ⟨n, inside, same⟩ := List.mem_map.mp member
  obtain ⟨i, c, -, under⟩ := mem_nodesBelow.mp inside
  have covered := covers_of_mem_nodes under
  rw [same] at covered
  exact covered.ne_child
termination_by sizeOf s

/-- The node at a place below a schema, from the last step of the way down to the first. -/
def node? (s : Schema) : List Nat → Option Schema
  | [] => some s
  | i :: path => (s.node? path).bind (·.children[i]?)

end Schema

def Definitions.node? (source : Definitions) (id : NodeId) : Option Schema :=
  (source.lookup id.root).bind (·.node? id.path)

namespace PlacedNode
open Schema

def IsNodeOf (n : PlacedNode) (source : Definitions) : Prop := source.node? n.place = some n.node

abbrev subtree (n : PlacedNode) : List PlacedNode := n.node.nodes n.place

def Reaches (calls : List PlacedNode) (x : NodeId) : Prop :=
  ∃ call ∈ calls, ∃ n ∈ call.subtree, n.place = x

theorem IsNodeOf.below {source : Definitions} {id : NodeId} {s : Schema} {n : PlacedNode}
    (placed : IsNodeOf ⟨id, s⟩ source) (inside : n ∈ s.nodes id) : n.IsNodeOf source := by
  rcases mem_nodes.mp inside with rfl | ⟨i, c, child, below⟩
  · exact placed
  · have smaller := sizeOf_child_lt (List.mem_of_getElem? child)
    have placedChild : IsNodeOf ⟨id.child i, c⟩ source := by
      obtain ⟨definition, found, here⟩ := Option.bind_eq_some_iff.mp placed
      refine Option.bind_eq_some_iff.mpr ⟨definition, found, ?_⟩
      rw [Schema.node?, here, Option.bind_some, child]
    exact placedChild.below below
termination_by sizeOf s

theorem IsNodeOf.unique {source : Definitions} {n m : PlacedNode} (here : n.IsNodeOf source)
    (there : m.IsNodeOf source) (same : n.place = m.place) : n = m := by
  rcases n with ⟨place, node⟩
  rcases m with ⟨place', node'⟩
  subst same
  cases here.symm.trans there
  rfl

def unvisited (visited : Visited) (ns : List PlacedNode) : List PlacedNode :=
  ns.filter fun n => !visited.contains n.place

theorem mem_unvisited {visited : Visited} {ns : List PlacedNode} {n : PlacedNode} :
    n ∈ unvisited visited ns ↔ n ∈ ns ∧ n.place ∉ visited := by
  rw [unvisited, List.mem_filter, Bool.not_eq_true', ← Bool.not_eq_true,
    ← Std.HashSet.mem_iff_contains]

theorem unvisited_congr {visited visited' : Visited} {ns : List PlacedNode}
    (same : ∀ n ∈ ns, n.place ∈ visited ↔ n.place ∈ visited') :
    unvisited visited ns = unvisited visited' ns := by
  refine List.filter_congr fun n inside => ?_
  rw [Bool.eq_iff_iff, Bool.not_eq_true', Bool.not_eq_true', ← Bool.not_eq_true,
    ← Bool.not_eq_true, ← Std.HashSet.mem_iff_contains, ← Std.HashSet.mem_iff_contains]
  exact not_congr (same n inside)

def ClosedBelow (visited : Visited) (ns : List PlacedNode) : Prop :=
  ∀ n ∈ ns, n.place ∈ visited → ∀ m ∈ n.subtree, m.place ∈ visited

end PlacedNode

namespace RefTree
open Schema PlacedNode

/-- What a walk of some nodes does: it reports those that were not visited, and it visits them all. -/
structure Collects (root : String) (ns : List PlacedNode) (visited : Visited)
    (result : List String × Visited) : Prop where
  reported : result.1 = (unvisited visited ns).filterMap (·.node.target? root)
  visited : ∀ x, x ∈ result.2 ↔ x ∈ visited ∨ x ∈ ns.map (·.place)

theorem collects_children (root : String) (id : NodeId) (ss : List Schema)
    (each : ∀ c ∈ ss, ∀ (id : NodeId) (visited : Visited), ClosedBelow visited (c.nodes id) →
      Collects root (c.nodes id) visited (c.refTree.collect root id visited))
    (i : Nat) (visited : Visited) (closed : ClosedBelow visited (nodesBelow id i ss)) :
    Collects root (nodesBelow id i ss) visited
      (collectAll root id i (ss.map refTree) visited) := by
  induction ss generalizing i visited with
  | nil => exact ⟨rfl, fun x => by simp [collectAll, nodesBelow]⟩
  | cons c rest ih =>
    rw [nodesBelow_cons] at closed ⊢
    have first := each c List.mem_cons_self (id.child i) visited
      fun n inside => closed n (List.mem_append_left _ inside)
    -- The walk of the first child visits nothing below the others.
    have apart : ∀ n ∈ nodesBelow id (i + 1) rest,
        (n.place ∈ (c.refTree.collect root (id.child i) visited).2 ↔ n.place ∈ visited) := by
      intro n later
      rw [first.visited]
      refine or_iff_left fun inside => ?_
      obtain ⟨m, inside, same⟩ := List.mem_map.mp inside
      refine not_mem_placesBelow rest (covers_of_mem_nodes inside) (Nat.lt_succ_self i) ?_
      rw [same]
      exact List.mem_map_of_mem later
    have closedLater : ClosedBelow (c.refTree.collect root (id.child i) visited).2
        (nodesBelow id (i + 1) rest) := by
      intro n later seen m below
      rw [apart n later] at seen
      rw [first.visited]
      exact .inl (closed n (List.mem_append_right _ later) seen m below)
    have others := ih (fun d later => each d (List.mem_cons_of_mem _ later)) (i + 1) _ closedLater
    constructor
    · simp only [List.map_cons, collectAll, first.reported, others.reported, unvisited_congr apart]
      rw [unvisited, unvisited, unvisited, List.filter_append, List.filterMap_append]
    · intro x
      simp only [List.map_cons, collectAll, others.visited x, first.visited x, List.map_append,
        List.mem_append, or_assoc]

/-- A walk may stop at a visited node if all below it was visited too. -/
theorem collects (root : String) (s : Schema) (id : NodeId) (visited : Visited)
    (closed : ClosedBelow visited (s.nodes id)) :
    Collects root (s.nodes id) visited (s.refTree.collect root id visited) := by
  by_cases seen : id ∈ visited
  · have all : ∀ m ∈ s.nodes id, m.place ∈ visited := closed ⟨id, s⟩ (self_mem_nodes id s) seen
    rw [collect_visited seen]
    constructor
    · have none : unvisited visited (s.nodes id) = [] := by
        rw [unvisited, List.filter_eq_nil_iff]
        intro m inside
        simpa using all m inside
      rw [none, List.filterMap_nil]
    · intro x
      refine (or_iff_left_of_imp fun member => ?_).symm
      obtain ⟨m, inside, rfl⟩ := List.mem_map.mp member
      exact all m inside
  · -- No node below stands at the place of the node itself.
    have apart : ∀ n ∈ nodesBelow id 0 s.children,
        (n.place ∈ visited.insert id ↔ n.place ∈ visited) := by
      intro n inside
      rw [Std.HashSet.mem_insert]
      refine or_iff_right fun same => ?_
      have distinct := nodup_places id s
      rw [places, nodes_eq, List.map_cons, List.nodup_cons] at distinct
      have here : id ∈ (nodesBelow id 0 s.children).map (·.place) :=
        List.mem_map.mpr ⟨n, inside, (eq_of_beq same).symm⟩
      exact distinct.1 here
    rw [nodes_eq] at closed ⊢
    have closedBelow : ClosedBelow (visited.insert id) (nodesBelow id 0 s.children) := by
      intro n inside seen m under
      rw [apart n inside] at seen
      rw [Std.HashSet.mem_insert]
      exact .inr (closed n (List.mem_cons_of_mem _ inside) seen m under)
    have each : ∀ c ∈ s.children, ∀ (id : NodeId) (visited : Visited),
        ClosedBelow visited (c.nodes id) →
        Collects root (c.nodes id) visited (c.refTree.collect root id visited) := by
      intro c child id visited
      have smaller := sizeOf_child_lt child
      exact collects root c id visited
    have below := collects_children root id s.children each 0 _ closedBelow
    have unseen : ¬ visited.contains id := fun h => seen (Std.HashSet.mem_iff_contains.mpr h)
    rw [refTree_eq]
    constructor
    · have here : unvisited visited (⟨id, s⟩ :: nodesBelow id 0 s.children) =
          ⟨id, s⟩ :: unvisited visited (nodesBelow id 0 s.children) := by
        simp [unvisited, unseen]
      rw [here, List.filterMap_cons]
      simp only [collect, unseen, Bool.false_eq_true, if_false, below.reported,
        unvisited_congr apart, target?]
      cases s.ref.bind (referenceName? root) <;> rfl
    · intro x
      simp only [collect, unseen, Bool.false_eq_true, if_false, below.visited x,
        Std.HashSet.mem_insert, beq_iff_eq, List.map_cons, List.mem_cons]
      rw [eq_comm (a := id), or_assoc]
      exact or_left_comm
termination_by sizeOf s

def collectEach (root : String) (visited : Visited) :
    List PlacedNode → List (List String) × Visited
  | [] => ([], visited)
  | call :: rest =>
    let (found, visited) := call.node.refTree.collect root call.place visited
    let (more, visited) := collectEach root visited rest
    (found :: more, visited)

theorem collectEach_append (root : String) (visited : Visited) (before rest : List PlacedNode) :
    collectEach root visited (before ++ rest) =
      ((collectEach root visited before).1 ++
          (collectEach root (collectEach root visited before).2 rest).1,
        (collectEach root (collectEach root visited before).2 rest).2) := by
  induction before generalizing visited with
  | nil => rfl
  | cons call before ih => simp only [List.cons_append, collectEach, ih]

theorem length_collectEach (root : String) (visited : Visited) (calls : List PlacedNode) :
    (collectEach root visited calls).1.length = calls.length := by
  induction calls generalizing visited with
  | nil => rfl
  | cons call rest ih => simp only [collectEach, List.length_cons, ih]

section Calls

variable {source : Definitions} {calls : List PlacedNode} {call : PlacedNode}

theorem mem_of_reaches {n : PlacedNode} (placed : ∀ call ∈ calls, call.IsNodeOf source)
    (here : n.IsNodeOf source) (reached : Reaches calls n.place) :
    ∃ call ∈ calls, n ∈ call.subtree ∧ n.subtree ⊆ call.subtree := by
  obtain ⟨call, member, n', inside, same⟩ := reached
  obtain rfl := ((placed call member).below inside).unique here same
  exact ⟨call, member, inside, nodes_subset_of_mem inside⟩

/-- What a walk finds visited and leaves visited if the walks before it went through some nodes. -/
theorem collects_of_reaches (root : String) {visited : Visited}
    (placed : ∀ call ∈ calls, call.IsNodeOf source) (here : call.IsNodeOf source)
    (reached : ∀ x, x ∈ visited ↔ Reaches calls x) :
    Collects root call.subtree visited (call.node.refTree.collect root call.place visited) := by
  refine collects root call.node call.place visited ?_
  intro n inside seen m below
  obtain ⟨other, member, -, all⟩ :=
    mem_of_reaches placed (here.below inside) ((reached n.place).mp seen)
  exact (reached m.place).mpr ⟨other, member, m, all below, rfl⟩

theorem reaches_concat {x : NodeId} :
    Reaches (calls ++ [call]) x ↔ Reaches calls x ∨ x ∈ call.subtree.map (·.place) := by
  simp only [Reaches, List.mem_append, List.mem_singleton, or_and_right, exists_or, exists_eq_left,
    List.mem_map]

theorem mem_collectEach (root : String) (placed : ∀ call ∈ calls, call.IsNodeOf source)
    (x : NodeId) : x ∈ (collectEach root ∅ calls).2 ↔ Reaches calls x := by
  induction calls using List.reverseRecOn generalizing x with
  | nil => simp [collectEach, Reaches]
  | append_singleton before call ih =>
    rw [List.forall_mem_append, List.forall_mem_singleton] at placed
    have walk := collects_of_reaches root placed.1 placed.2 (ih placed.1)
    rw [collectEach_append, reaches_concat, ← ih placed.1]
    exact walk.visited x

/-- The nodes that walks report, each of them once. -/
theorem exists_reported (root : String) (placed : ∀ call ∈ calls, call.IsNodeOf source) :
    ∃ reported : List PlacedNode, (reported.map (·.place)).Nodup ∧
      (∀ n, n ∈ reported ↔ ∃ call ∈ calls, n ∈ call.subtree) ∧
      (collectEach root ∅ calls).1.flatten = reported.filterMap (·.node.target? root) := by
  induction calls using List.reverseRecOn with
  | nil => exact ⟨[], List.nodup_nil, by simp, rfl⟩
  | append_singleton before call ih =>
    rw [List.forall_mem_append, List.forall_mem_singleton] at placed
    obtain ⟨placed, here⟩ := placed
    obtain ⟨reported, distinct, members, texts⟩ := ih placed
    have reached := mem_collectEach root placed
    have walk := collects_of_reaches root placed here reached
    let visited := (collectEach root ∅ before).2
    refine ⟨reported ++ unvisited visited call.subtree, ?_, ?_, ?_⟩
    · rw [List.map_append]
      refine distinct.append ((nodup_places _ _).sublist (List.filter_sublist.map _)) ?_
      intro x first later
      obtain ⟨n, inside, rfl⟩ := List.mem_map.mp first
      obtain ⟨m, fresh, same⟩ := List.mem_map.mp later
      obtain ⟨other, member, inside⟩ := (members n).mp inside
      refine (mem_unvisited.mp fresh).2 ((reached m.place).mpr ?_)
      exact ⟨other, member, n, inside, same.symm⟩
    · intro n
      rw [List.mem_append, members, mem_unvisited]
      simp only [List.mem_append, List.mem_singleton, or_and_right, exists_or, exists_eq_left]
      refine ⟨Or.imp_right And.left, ?_⟩
      rintro (earlier | inside)
      · exact .inl earlier
      · -- A node of the last walk that was visited before stands below a node of an earlier one.
        by_cases seen : n.place ∈ visited
        · obtain ⟨other, member, inside, -⟩ :=
            mem_of_reaches placed (here.below inside) ((reached n.place).mp seen)
          exact .inl ⟨other, member, inside⟩
        · exact .inr ⟨inside, seen⟩
    · rw [collectEach_append, List.flatten_append, texts, List.filterMap_append, ← walk.reported]
      simp [collectEach]

/-- Walks of any nodes of a source, one after the other, share what they visit. Behind each of them
    the visited nodes are those below the nodes walked so far. It reports the names at those nodes
    below its own that no walk before it visited, in their order, and so all walks together report
    the name at each node that they go through once. -/
theorem collectEach_reports (root : String) (placed : ∀ call ∈ calls, call.IsNodeOf source) :
    (∀ before call after, calls = before ++ call :: after →
      (∀ x, x ∈ (collectEach root ∅ (before ++ [call])).2 ↔ Reaches (before ++ [call]) x) ∧
      (collectEach root ∅ calls).1[before.length]? =
        some ((unvisited (collectEach root ∅ before).2 call.subtree).filterMap
          (·.node.target? root))) ∧
    ∃ reported : List PlacedNode, (reported.map (·.place)).Nodup ∧
      (∀ n, n ∈ reported ↔ ∃ call ∈ calls, n ∈ call.subtree) ∧
      (collectEach root ∅ calls).1.flatten = reported.filterMap (·.node.target? root) := by
  refine ⟨?_, exists_reported root placed⟩
  rintro before call after rfl
  have placedBefore : ∀ call ∈ before, call.IsNodeOf source :=
    fun other member => placed other (List.mem_append_left _ member)
  have here : call.IsNodeOf source := placed call (by simp)
  constructor
  · have placedUpTo : ∀ other ∈ before ++ [call], other.IsNodeOf source := by
      rw [List.forall_mem_append, List.forall_mem_singleton]
      exact ⟨placedBefore, here⟩
    exact mem_collectEach root placedUpTo
  · have walk := collects_of_reaches root placedBefore here (mem_collectEach root placedBefore)
    rw [collectEach_append, List.getElem?_append_right (Nat.le_of_eq (length_collectEach _ _ _)),
      length_collectEach, Nat.sub_self]
    exact congrArg some walk.reported

end Calls

/-- A node inside a definition, then the definition with all else in it, then both of these again. -/
theorem collectEach_reports_overlap :
    let root := "#/definitions/"
    let b : Schema := .reference "#/definitions/B"
    let items : Schema := { allOf := [.reference "#/definitions/A"] }
    let a : Schema := { properties := [("b", b)], items := some items }
    let source : Definitions := [("A", a), ("B", {})]
    let calls : List PlacedNode :=
      [⟨⟨"A", [1]⟩, items⟩, ⟨⟨"A", []⟩, a⟩, ⟨⟨"A", [0]⟩, b⟩, ⟨⟨"A", []⟩, a⟩]
    (∀ call ∈ calls, call.IsNodeOf source) ∧
      (∀ x, x ∈ (collectEach root ∅ (calls.take 2)).2 ↔ Reaches (calls.take 2) x) ∧
      (∃ reported : List PlacedNode, (reported.map (·.place)).Nodup ∧
        (∀ n, n ∈ reported ↔ ∃ call ∈ calls, n ∈ call.subtree) ∧
        (collectEach root ∅ calls).1.flatten = reported.filterMap (·.node.target? root)) ∧
      (collectEach root ∅ calls).1 = [["A"], ["B"], [], []] := by
  intro root b items a source calls
  have placed : ∀ call ∈ calls, call.IsNodeOf source := by
    simp only [calls, List.forall_mem_cons]
    exact ⟨rfl, rfl, rfl, rfl, nofun⟩
  obtain ⟨each, once⟩ := collectEach_reports root placed
  refine ⟨placed, (each [_] _ [_, _] rfl).1, once, ?_⟩
  have toA : referenceName? root "#/definitions/A" = some "A" := by decide
  have toB : referenceName? root "#/definitions/B" = some "B" := by decide
  have leaf : b.refTree = .node (some "#/definitions/B") [] := rfl
  have inner : items.refTree = .node none [.node (some "#/definitions/A") []] := rfl
  have whole : a.refTree = .node none [b.refTree, items.refTree] := rfl
  simp [calls, collectEach, whole, inner, leaf, collect, collectAll, toA, toB]

end RefTree
end SchemaSplit
