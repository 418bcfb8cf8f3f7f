import SchemaSplit.Proofs.Group
import Mathlib.Data.List.Induction
import Mathlib.Data.List.Nodup
import Mathlib.Data.List.TakeWhile

namespace List

variable {α : Type} [BEq α] [LawfulBEq α]

theorem eraseDups_concat (xs : List α) (x : α) :
    (xs ++ [x]).eraseDups = if xs.contains x then xs.eraseDups else xs.eraseDups ++ [x] := by
  rw [eraseDups_append, removeAll]
  by_cases known : x ∈ xs <;> simp [known, eraseDups_cons]

theorem pairwise_eraseDups (xs : List α) :
    xs.eraseDups.Pairwise fun a b => xs.idxOf a < xs.idxOf b := by
  induction xs using reverseRecOn with
  | nil => exact .nil
  | append_singleton xs x ih =>
    have before : xs.eraseDups.Pairwise fun a b => (xs ++ [x]).idxOf a < (xs ++ [x]).idxOf b := by
      refine ih.imp_of_mem fun {a b} ha hb first => ?_
      rwa [idxOf_append_of_mem (mem_eraseDups.mp ha), idxOf_append_of_mem (mem_eraseDups.mp hb)]
    rw [eraseDups_concat]
    split
    · exact before
    · rename_i new
      refine pairwise_append.mpr ⟨before, pairwise_singleton _ x, fun a ha b hb => ?_⟩
      have known := mem_eraseDups.mp ha
      rw [mem_singleton.mp hb, idxOf_append_of_mem known,
        idxOf_append_of_notMem (by simpa using new)]
      exact Nat.lt_of_lt_of_le (idxOf_lt_length_of_mem known) (Nat.le_add_right _ _)

end List

namespace SchemaSplit

open Definitions

namespace Group

/-- One more definition: a member of the group of its key, or of a new group behind the others. -/
def place (key : String → String) (groups : List Group) (e : String × Schema) : List Group :=
  if (groups.map (·.key)).contains (key e.1) then
    groups.map fun g => if g.key = key e.1 then { g with members := g.members ++ [e] } else g
  else groups ++ [⟨key e.1, [e]⟩]

theorem keys_ofDefinitions (key : String → String) (source : Definitions) :
    (ofDefinitions key source).map (·.key) = (source.map fun d => key d.1).eraseDups := by
  rw [ofDefinitions, List.map_map]
  exact List.map_id _

theorem ofDefinitions_concat (key : String → String) (source : Definitions) (e : String × Schema) :
    ofDefinitions key (source ++ [e]) = place key (ofDefinitions key source) e := by
  have known : ((ofDefinitions key source).map (·.key)).contains (key e.1) =
      (source.map fun d => key d.1).contains (key e.1) := by
    rw [keys_ofDefinitions, Bool.eq_iff_iff, List.contains_iff_mem, List.contains_iff_mem,
      List.mem_eraseDups]
  rw [place, known, ofDefinitions, List.map_append, List.map_singleton, List.eraseDups_concat]
  split
  · -- The key is there already, so only the members of its group change.
    rw [ofDefinitions, List.map_map]
    refine List.map_congr_left fun k _ => ?_
    rw [List.filter_append, Function.comp_apply]
    by_cases same : k = key e.1
    · simp [same]
    · simp [same, Ne.symm same]
  · rename_i new
    have new : key e.1 ∉ source.map fun d => key d.1 := by simpa using new
    rw [ofDefinitions, List.map_append, List.map_singleton]
    refine congrArg₂ _ (List.map_congr_left fun k inside => ?_) ?_
    · have other : key e.1 ≠ k := by
        rintro rfl
        exact new (List.mem_eraseDups.mp inside)
      simp [List.filter_append, other]
    · have none : source.filter (fun d => key d.1 == key e.1) = [] := by
        refine List.filter_eq_nil_iff.mpr fun d inside same => new ?_
        exact List.mem_map.mpr ⟨d, inside, eq_of_beq same⟩
      rw [List.filter_append, none]
      simp

/-- The groups are what placing the definitions one after the other comes to. -/
theorem foldl_place (key : String → String) (source : Definitions) :
    source.foldl (place key) [] = ofDefinitions key source := by
  induction source using List.reverseRecOn with
  | nil => rfl
  | append_singleton source e ih =>
    rw [List.foldl_append, ih, List.foldl_cons, List.foldl_nil, ofDefinitions_concat]

structure Partition (key : String → String) (source : Definitions) (groups : List Group) : Prop where
  keys : (groups.map (·.key)).Nodup
  /-- A group stands before another if the source comes to its key first. -/
  order : groups.Pairwise fun g h =>
    (source.map fun d => key d.1).idxOf g.key < (source.map fun d => key d.1).idxOf h.key
  nonempty : ∀ g ∈ groups, g.members ≠ []
  /-- Members are as the source has them, in its order. -/
  sublist : ∀ g ∈ groups, g.members.Sublist source
  member : ∀ e ∈ source, ∀ g ∈ groups, e ∈ g.members ↔ g.key = key e.1
  unique : ∀ e ∈ source, ∃! g, g ∈ groups ∧ e ∈ g.members

theorem ofDefinitions_partition (key : String → String) (source : Definitions) :
    Partition key source (ofDefinitions key source) := by
  have order := List.pairwise_eraseDups (source.map fun d => key d.1)
  have keys : ((ofDefinitions key source).map (·.key)).Nodup := by
    rw [keys_ofDefinitions]
    refine order.imp fun {a b} first => ?_
    rintro rfl
    exact Nat.lt_irrefl _ first
  have member : ∀ e ∈ source, ∀ g ∈ ofDefinitions key source, e ∈ g.members ↔ g.key = key e.1 := by
    intro e inside g isGroup
    rw [(mem_ofDefinitions.mp isGroup).1, List.mem_filter, beq_iff_eq, eq_comm]
    exact and_iff_right inside
  constructor
  case keys => exact keys
  case order =>
    rw [← keys_ofDefinitions, List.pairwise_map] at order
    exact order
  case nonempty => exact fun g isGroup => (mem_ofDefinitions.mp isGroup).2
  case sublist =>
    intro g isGroup
    rw [(mem_ofDefinitions.mp isGroup).1]
    exact List.filter_sublist
  case member => exact member
  case unique =>
    intro e inside
    have known : key e.1 ∈ (ofDefinitions key source).map (·.key) := by
      rw [keys_ofDefinitions, List.mem_eraseDups]
      exact List.mem_map_of_mem inside
    obtain ⟨g, isGroup, named⟩ := List.mem_map.mp known
    refine ⟨g, ⟨isGroup, (member e inside g isGroup).mpr named⟩, ?_⟩
    rintro h ⟨isGroup', inside'⟩
    have named' := (member e inside h isGroup').mp inside'
    exact List.inj_on_of_nodup_map keys isGroup' isGroup (named'.trans named.symm)

end Group

def segments (separator : Char) (name : String) : List (List Char) :=
  name.toList.splitOn separator

/-- Of a name with a separator, the namespace is all segments but the last, put together again. -/
theorem namespaceKey_eq (separator : Char) (name : String) :
    namespaceKey separator name =
      if separator ∈ name.toList then
        String.ofList ([separator].intercalate (segments separator name).dropLast)
      else globalNamespace := by
  rw [namespaceKey, segments]
  split_ifs with present
  · obtain ⟨last, reversed, split, apart⟩ := List.eq_append_cons_of_mem (List.mem_reverse.mpr present)
    have whole : name.toList = reversed.reverse ++ separator :: last.reverse := by
      rw [← List.reverse_reverse name.toList, split]
      simp
    have passed : ∀ c ∈ last, decide (c ≠ separator) = true := by
      rintro c inside
      exact decide_eq_true fun same => apart (same ▸ inside)
    have rest : name.toList.reverse.dropWhile (fun c => decide (c ≠ separator)) =
        separator :: reversed := by
      rw [split, List.dropWhile_append_of_pos passed]
      simp
    have apart' : separator ∉ last.reverse := fun inside => apart (List.mem_reverse.mp inside)
    rw [rest, whole, List.splitOn_append_cons_self, List.splitOn_eq_singleton apart',
      List.dropLast_concat, List.intercalate_splitOn]
  · have none : name.toList.reverse.dropWhile (fun c => decide (c ≠ separator)) = [] := by
      refine List.dropWhile_eq_nil_iff.mpr fun c inside => decide_eq_true ?_
      rintro rfl
      exact present (List.mem_reverse.mp inside)
    rw [none]

namespace Document

/-- The groups of a document, by any key, are a partition of its definitions, which is what placing
    these one after the other gives. By namespaces, which are all segments of a name but the last, two
    definitions share a group exactly if they share a namespace, each definition is in the document
    of its own group, and the documents of all groups hold the definitions of the source and no
    others. -/
theorem groups_partition {d : Document} (distinct : (names d.definitions).Nodup)
    (separator : Char) :
    (∀ key, d.definitions.foldl (Group.place key) [] = Group.ofDefinitions key d.definitions ∧
      Group.Partition key d.definitions (Group.ofDefinitions key d.definitions)) ∧
    (∀ name, namespaceKey separator name =
      if separator ∈ name.toList then
        String.ofList ([separator].intercalate (segments separator name).dropLast)
      else globalNamespace) ∧
    (∀ x ∈ d.definitions, ∀ y ∈ d.definitions,
      (∃ g ∈ d.groups separator, x ∈ g.members ∧ y ∈ g.members) ↔
        namespaceKey separator x.1 = namespaceKey separator y.1) ∧
    (∀ e ∈ d.definitions, ∃ g ∈ d.groups separator, g.key = namespaceKey separator e.1 ∧
      e ∈ (d.isolate g).definitions) ∧
    ∀ e, e ∈ d.definitions ↔ ∃ g ∈ d.groups separator, e ∈ (d.isolate g).definitions := by
  have parted := Group.ofDefinitions_partition (namespaceKey separator) d.definitions
  have own : ∀ e ∈ d.definitions, ∃ g ∈ d.groups separator, g.key = namespaceKey separator e.1 ∧
      e ∈ (d.isolate g).definitions := by
    intro e inside
    obtain ⟨g, ⟨isGroup, member⟩, -⟩ := parted.unique e inside
    exact ⟨g, isGroup, (parted.member e inside g isGroup).mp member,
      (members_prefix_isolate isGroup distinct).subset member⟩
  refine ⟨fun key => ⟨Group.foldl_place key _, Group.ofDefinitions_partition key _⟩,
    namespaceKey_eq separator, ?_, own, fun e => ⟨fun inside => ?_, ?_⟩⟩
  · intro x hx y hy
    constructor
    · rintro ⟨g, isGroup, first, second⟩
      exact ((parted.member x hx g isGroup).mp first).symm.trans
        ((parted.member y hy g isGroup).mp second)
    · intro same
      obtain ⟨g, ⟨isGroup, first⟩, -⟩ := parted.unique x hx
      have named := (parted.member x hx g isGroup).mp first
      exact ⟨g, isGroup, first, (parted.member y hy g isGroup).mpr (named.trans same)⟩
  · obtain ⟨g, isGroup, -, inside⟩ := own e inside
    exact ⟨g, isGroup, inside⟩
  · rintro ⟨g, isGroup, inside⟩
    exact (partOf_isolate isGroup distinct).subset inside

/-- Namespaces that alternate, one of them empty, a name that ends in a separator, and a name without
    one that shares its group with the namespace of the same spelling. -/
theorem groups_partition_mixed :
    let node : Schema := .ofType "object"
    let d : Document := { definitions :=
      [("Plain", node), ("é..x", node), (".Leading", node), ("Global.x", node), ("é.", node),
        ("é..y", node)] }
    (names d.definitions).Nodup ∧
      (∃ g ∈ d.groups '.', ("Plain", node) ∈ g.members ∧ ("Global.x", node) ∈ g.members) ∧
      (∃ g ∈ d.groups '.', ("é..x", node) ∈ g.members ∧ ("é..y", node) ∈ g.members) ∧
      (¬ ∃ g ∈ d.groups '.', ("é..x", node) ∈ g.members ∧ ("é.", node) ∈ g.members) ∧
      ∃ g ∈ d.groups '.', g.key = "" ∧ (".Leading", node) ∈ (d.isolate g).definitions := by
  intro node d
  have distinct : (names d.definitions).Nodup := by decide
  have keys : ["Plain", "é..x", ".Leading", "Global.x", "é.", "é..y"].map (namespaceKey '.') =
      ["Global", "é.", "", "Global", "é", "é."] := by decide +kernel
  simp only [List.map_cons, List.map_nil, List.cons.injEq, and_true] at keys
  obtain ⟨plain, first, leading, global, last, second⟩ := keys
  obtain ⟨-, -, shared, own, -⟩ := groups_partition distinct '.'
  refine ⟨distinct, (shared _ ?_ _ ?_).mpr ?_, (shared _ ?_ _ ?_).mpr ?_,
    fun both => ?_, leading ▸ own (".Leading", node) ?_⟩
  any_goals simp [d]
  · exact plain.trans global.symm
  · exact first.trans second.symm
  · have same := (shared _ (by simp [d]) _ (by simp [d])).mp both
    rw [first, last] at same
    exact absurd same (by decide)

end Document
end SchemaSplit
