import SchemaSplit.Reference

namespace SchemaSplit

theorem referenceName?_eq_some {root reference name : String} :
    referenceName? root reference = some name ↔ reference = root ++ name ∧ name ≠ "" := by
  unfold referenceName?
  constructor
  · intro h
    split at h
    · rename_i rooted
      obtain ⟨rest, split⟩ := List.isPrefixOf_iff_prefix.mp rooted.1
      have longer := rooted.2
      cases h
      rw [← split, ← String.length_toList, List.drop_left]
      have whole : reference = root ++ String.ofList rest :=
        String.ext (by rw [String.toList_append, String.toList_ofList, split])
      refine ⟨whole, ?_⟩
      intro empty
      rw [whole, empty] at longer
      simp at longer
    · cases h
  · rintro ⟨rfl, nonempty⟩
    have longer : 0 < name.length := by
      rw [← String.length_toList]
      exact List.length_pos_iff.mpr fun h => nonempty (String.ext (by simpa using h))
    have split : (root ++ name).toList.drop root.length = name.toList := by
      rw [String.toList_append, ← String.length_toList, List.drop_left]
    rw [if_pos ⟨by simp [String.toList_append], by simp only [String.length_append]; omega⟩, split,
      String.ofList_toList]

theorem referenceName?_eq_none {root reference : String} :
    referenceName? root reference = none ↔
      ¬ root.toList <+: reference.toList ∨ reference = root := by
  rw [referenceName?, ite_eq_right_iff, List.isPrefixOf_iff_prefix]
  simp only [reduceCtorEq, imp_false]
  by_cases rooted : root.toList <+: reference.toList
  · obtain ⟨rest, split⟩ := rooted
    have lengths := congrArg List.length split
    rw [List.length_append, String.length_toList, String.length_toList] at lengths
    constructor
    · intro short
      have atEnd : rest = [] := by
        refine List.eq_nil_of_length_eq_zero (Nat.eq_zero_of_not_pos fun longer => ?_)
        exact short ⟨⟨rest, split⟩, by omega⟩
      rw [atEnd, List.append_nil] at split
      exact .inr (String.ext split.symm)
    · rintro (other | rfl)
      · exact absurd ⟨rest, split⟩ other
      · exact fun longer => Nat.lt_irrefl _ longer.2
  · exact ⟨fun _ => .inl rooted, fun _ both => rooted both.1⟩

namespace Schema

theorem mem_children {s c : Schema} :
    c ∈ s.children ↔ c ∈ s.properties.map (·.2) ∨ s.items = some c ∨ s.valueSchema = some c ∨
      c ∈ s.allOf ∨ c ∈ s.anyOf ∨ c ∈ s.oneOf := by
  simp only [children, List.mem_append, Option.mem_toList, or_assoc]

theorem properties_subset_children (s : Schema) : s.properties.map (·.2) ⊆ s.children :=
  fun _ inside => mem_children.mpr (.inl inside)

theorem allOf_subset_children (s : Schema) : s.allOf ⊆ s.children :=
  fun _ inside => mem_children.mpr (.inr (.inr (.inr (.inl inside))))

theorem anyOf_subset_children (s : Schema) : s.anyOf ⊆ s.children :=
  fun _ inside => mem_children.mpr (.inr (.inr (.inr (.inr (.inl inside)))))

theorem oneOf_subset_children (s : Schema) : s.oneOf ⊆ s.children :=
  fun _ inside => mem_children.mpr (.inr (.inr (.inr (.inr (.inr inside)))))

inductive Within : Schema → Schema → Prop
  | refl (s : Schema) : Within s s
  | child {node c s : Schema} (below : c ∈ s.children) (inside : Within node c) : Within node s

theorem Within.trans {a b c : Schema} (first : Within a b) (second : Within b c) : Within a c := by
  induction second with
  | refl => exact first
  | child below _ ih => exact .child below ih

theorem forall_within_iff {P : Schema → Prop} {s : Schema} :
    (∀ node, Within node s → P node) ↔ P s ∧ ∀ c ∈ s.children, ∀ node, Within node c → P node := by
  constructor
  · exact fun all => ⟨all s (.refl s), fun c below node inside => all node (.child below inside)⟩
  · rintro ⟨here, below⟩ node inside
    cases inside with
    | refl => exact here
    | child member inside => exact below _ member node inside

theorem forall_within_leaf {P : Schema → Prop} {s : Schema} (leaf : s.children = []) (here : P s) :
    ∀ node, Within node s → P node :=
  forall_within_iff.mpr ⟨here, leaf ▸ nofun⟩

/-- Some node of the schema refers to a definition: to the root followed by its name. -/
def Mentions (root : String) (s : Schema) (name : String) : Prop :=
  ∃ node, Within node s ∧ node.ref = some (root ++ name) ∧ name ≠ ""

theorem mentions_iff {root name : String} {s : Schema} :
    s.Mentions root name ↔
      s.ref.bind (referenceName? root) = some name ∨ ∃ c ∈ s.children, c.Mentions root name := by
  simp only [Mentions, Option.bind_eq_some_iff, referenceName?_eq_some]
  constructor
  · rintro ⟨node, inside, target, nonempty⟩
    cases inside with
    | refl => exact .inl ⟨_, target, rfl, nonempty⟩
    | child below inside => exact .inr ⟨_, below, node, inside, target, nonempty⟩
  · rintro (⟨reference, here, rfl, nonempty⟩ | ⟨c, below, node, inside, target, nonempty⟩)
    · exact ⟨s, .refl s, here, nonempty⟩
    · exact ⟨node, .child below inside, target, nonempty⟩

end Schema

namespace RefTree

mutual

def names (root : String) : RefTree → List String
  | node r cs => (r.bind (referenceName? root)).toList ++ namesOfAll root cs
termination_by structural t => t

def namesOfAll (root : String) : List RefTree → List String
  | [] => []
  | t :: rest => t.names root ++ namesOfAll root rest
termination_by structural ts => ts

end

theorem mem_namesOfAll {root name : String} {ts : List RefTree} :
    name ∈ namesOfAll root ts ↔ ∃ t ∈ ts, name ∈ t.names root := by
  induction ts with
  | nil => simp [namesOfAll]
  | cons t rest ih => simp [namesOfAll, ih]

end RefTree

namespace Schema

theorem sizeOf_child_lt {c s : Schema} (below : c ∈ s.children) : sizeOf c < sizeOf s := by
  rcases s with ⟨k, properties, items, additional, allOf, anyOf, oneOf⟩
  simp only [children, List.mem_append, Option.mem_toList] at below
  rcases below with ((((inside | inside) | inside) | inside) | inside) | inside
  · obtain ⟨p, member, rfl⟩ := List.mem_map.mp inside
    have small := List.sizeOf_lt_of_mem member
    rcases p with ⟨name, c⟩
    simp only [Prod.mk.sizeOf_spec, mk.sizeOf_spec] at small ⊢
    omega
  · subst inside
    simp only [Option.some.sizeOf_spec, mk.sizeOf_spec]
    omega
  · rcases additional with _ | (_ | values) <;> simp only [valueSchema] at inside
    · cases inside
    · cases inside
    · cases inside
      simp only [Option.some.sizeOf_spec, Additional.schema.sizeOf_spec, mk.sizeOf_spec]
      omega
  all_goals
    have small := List.sizeOf_lt_of_mem inside
    simp only [mk.sizeOf_spec]
    omega

theorem mem_names_refTree {root name : String} (s : Schema) :
    name ∈ s.refTree.names root ↔ s.Mentions root name := by
  rw [mentions_iff, refTree_eq, RefTree.names, List.mem_append, Option.mem_toList,
    RefTree.mem_namesOfAll]
  refine or_congr_right ?_
  constructor
  · rintro ⟨t, member, named⟩
    obtain ⟨c, below, rfl⟩ := List.mem_map.mp member
    have := sizeOf_child_lt below
    exact ⟨c, below, (mem_names_refTree c).mp named⟩
  · rintro ⟨c, below, mentioned⟩
    have := sizeOf_child_lt below
    exact ⟨c.refTree, List.mem_map_of_mem below, (mem_names_refTree c).mpr mentioned⟩
termination_by sizeOf s

end Schema

namespace NodeId

abbrev child (id : NodeId) (i : Nat) : NodeId := ⟨id.root, i :: id.path⟩

def Covers (id x : NodeId) : Prop := x.root = id.root ∧ id.path <:+ x.path

theorem covers_refl (id : NodeId) : id.Covers id := ⟨rfl, List.suffix_refl _⟩

theorem Covers.of_child {id x : NodeId} {i : Nat} (h : (id.child i).Covers x) : id.Covers x :=
  ⟨h.1, (List.suffix_cons i id.path).trans h.2⟩

theorem Covers.child_unique {id x : NodeId} {i j : Nat} (hi : (id.child i).Covers x)
    (hj : (id.child j).Covers x) : i = j := by
  obtain ⟨before, split⟩ := hi.2
  obtain ⟨before', split'⟩ := hj.2
  have same := List.append_inj_right' (split.trans split'.symm) (by simp)
  exact (List.cons.inj same).1

theorem Covers.ne_child {id : NodeId} {i : Nat} : ¬ (id.child i).Covers id := by
  rintro ⟨-, suffix⟩
  exact absurd suffix.length_le (Nat.not_succ_le_self _)

end NodeId

namespace RefTree

theorem collect_visited {root : String} {id : NodeId} {visited : Visited} (seen : id ∈ visited)
    (t : RefTree) : t.collect root id visited = ([], visited) := by
  cases t
  simp [collect, seen]

end RefTree
end SchemaSplit
