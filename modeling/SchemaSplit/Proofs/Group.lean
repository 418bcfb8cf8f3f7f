import SchemaSplit.Group
import SchemaSplit.Proofs.Closure

namespace SchemaSplit

namespace Definitions

theorem lookup_eq_none {ds : Definitions} {name : String} :
    ds.lookup name = none ↔ name ∉ names ds := by
  rw [mem_names, Option.eq_none_iff_forall_ne_some, not_exists]

theorem PartOf.filter {source : Definitions} (distinct : (names source).Nodup)
    (keep : String × Schema → Bool) : PartOf (source.filter keep) source where
  distinct := distinct.sublist (List.filter_sublist.map _)
  same _ member := lookup_of_mem distinct (List.mem_of_mem_filter member)

theorem PartOf.subset {part source : Definitions} (h : PartOf part source) : part ⊆ source :=
  fun d member => mem_of_lookup (h.same d member)

theorem PartOf.not_mem_right {front rest source : Definitions} (h : PartOf (front ++ rest) source)
    {e : String × Schema} (given : e.1 ∈ names front) : e ∉ rest := by
  intro inside
  have apart := h.distinct
  rw [names, List.map_append] at apart
  exact (List.nodup_append.mp apart).2.2 _ given _ (List.mem_map_of_mem inside) rfl

theorem PartOf.eq_filterMap {part source : Definitions} (h : PartOf part source) :
    part = (names part).filterMap fun name => (source.lookup name).map (name, ·) := by
  have found : ∀ d ∈ part, (source.lookup d.1).map (d.1, ·) = some d := fun d member => by
    rw [h.same d member]
    rfl
  rw [names, List.filterMap_map]
  exact ((List.filterMap_congr found).trans List.filterMap_some).symm

theorem PartOf.eq_of_names {part other source : Definitions} (h : PartOf part source)
    (h' : PartOf other source) (same : names part = names other) : part = other := by
  rw [h.eq_filterMap, h'.eq_filterMap, same]

end Definitions

open Definitions

namespace Closure

theorem Loop.found_isPrefix {source members : Definitions} {root : String} {c last : Closure}
    (inv : Inv source root members c) (loop : Loop source root c last) :
    c.found <+: last.found := by
  induction loop with
  | stop =>
    obtain ⟨new, grown, -⟩ := inv.round_spec
    exact ⟨new, grown.symm⟩
  | again _ _ ih =>
    obtain ⟨new, grown, -⟩ := inv.round_spec
    exact List.IsPrefix.trans ⟨new, grown.symm⟩ (ih inv.round)

end Closure

namespace Group

variable {key : String → String} {source : Definitions} {g : Group}

/-- The groups are all that hold the definitions of some key, and each holds at least one. -/
theorem mem_ofDefinitions :
    g ∈ ofDefinitions key source ↔
      g.members = source.filter (fun d => key d.1 == g.key) ∧ g.members ≠ [] := by
  simp only [ofDefinitions, List.mem_map, List.mem_eraseDups]
  constructor
  · rintro ⟨k, ⟨d, member, rfl⟩, rfl⟩
    exact ⟨rfl, List.ne_nil_of_mem (List.mem_filter.mpr ⟨member, beq_self_eq_true _⟩)⟩
  · rintro ⟨all, nonempty⟩
    obtain ⟨d, member⟩ := List.exists_mem_of_ne_nil _ nonempty
    rw [all, List.mem_filter, beq_iff_eq] at member
    refine ⟨g.key, ⟨d, member⟩, ?_⟩
    rw [← all]

theorem head?_ofDefinitions (d : String × Schema) (rest : Definitions) :
    (ofDefinitions key (d :: rest)).head? =
      some ⟨key d.1, (d :: rest).filter fun e => key e.1 == key d.1⟩ := by
  rw [ofDefinitions, List.map_cons, List.eraseDups_cons]
  rfl

end Group

def IsolatedDocument.document (d : IsolatedDocument) : Document where
  info := d.info
  dialect := d.dialect
  specVersion := d.specVersion
  definitions := d.definitions

namespace Document

section
variable {d : Document} {separator : Char} {g : Group}
  (member : g ∈ d.groups separator) (distinct : (names d.definitions).Nodup)
include member distinct

theorem partOf_members : PartOf g.members d.definitions := by
  rw [(Group.mem_ofDefinitions.mp member).1]
  exact .filter distinct _

theorem partOf_isolate : PartOf (d.isolate g).definitions d.definitions :=
  (Closure.ofMembers_loop (partOf_members member distinct) d.dialect.referenceRoot).2.1.part

theorem mem_isolate_of_mentions {e : String × Schema} (inside : e ∈ (d.isolate g).definitions)
    {name : String} (mentions : e.2.Mentions d.dialect.referenceRoot name)
    (defined : name ∈ names d.definitions) : name ∈ names (d.isolate g).definitions := by
  obtain ⟨-, inv, closed⟩ :=
    Closure.ofMembers_loop (partOf_members member distinct) d.dialect.referenceRoot
  exact closed.closed e.1 (List.mem_map_of_mem inside) e.2 (inv.part.same e inside) name mentions
    defined

theorem members_prefix_isolate : g.members <+: (d.isolate g).definitions :=
  have part := partOf_members member distinct
  (Closure.ofMembers_loop part _).1.found_isPrefix (Closure.Inv.start part)

/-- A group that refers to nothing outside of it is on its own in its document. -/
theorem isolate_of_closed (closed : ∀ e ∈ g.members,
      ∀ name ∈ e.2.refTree.names d.dialect.referenceRoot, name ∈ names d.definitions →
        name ∈ names g.members) :
    d.isolate g = ⟨g.key, d.info, d.dialect, d.specVersion, g.members⟩ := by
  have part := partOf_members member distinct
  obtain ⟨-, inv, -⟩ := Closure.ofMembers_loop part d.dialect.referenceRoot
  have closedUnder : Closure.ClosedUnder d.definitions d.dialect.referenceRoot g.members
      {name | name ∈ names g.members} := by
    refine ⟨fun _ given => given, ?_⟩
    intro name given s found other mentions defined
    obtain ⟨e, inside, rfl⟩ := List.mem_map.mp given
    rw [part.same e inside] at found
    cases found
    exact closed e inside other ((Schema.mem_names_refTree e.2).mpr mentions) defined
  obtain ⟨others, split⟩ := members_prefix_isolate member distinct
  -- The closure is the least closed set, and the members are closed.
  have none : others = [] := by
    refine List.eq_nil_iff_forall_not_mem.mpr fun e inside => ?_
    have known : e ∈ (d.isolate g).definitions := split ▸ List.mem_append_right _ inside
    have again : e.1 ∈ names g.members := inv.least _ closedUnder e.1 (List.mem_map_of_mem known)
    exact PartOf.not_mem_right (split ▸ partOf_isolate member distinct) again inside
  have alone : (d.isolate g).definitions = g.members := by rw [← split, none, List.append_nil]
  exact congrArg (IsolatedDocument.mk g.key d.info d.dialect d.specVersion) alone

end
end Document
end SchemaSplit
