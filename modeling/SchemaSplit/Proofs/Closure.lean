import SchemaSplit.Closure
import SchemaSplit.Proofs.Lookup
import SchemaSplit.Proofs.Walk
import Mathlib.Data.List.Perm.Subperm
import Mathlib.Order.Bounds.Basic

/-!
The closure of some definitions is the least set of names that holds theirs and, with each name, all
defined names that its schema mentions. A definition is walked once, in the round after the one
that found it. So between rounds everything that a walked definition mentions has been found, and a
round that finds nothing new has walked them all.
-/

namespace SchemaSplit

namespace Definitions

def names (ds : Definitions) : List String := ds.map Prod.fst

theorem mem_names {ds : Definitions} {name : String} :
    name ∈ names ds ↔ ∃ s, ds.lookup name = some s := by
  rw [names, ← Option.isSome_iff_exists, List.lookup_isSome_iff, List.mem_map]
  exact exists_congr fun d => and_congr_right fun _ => by rw [beq_iff_eq, eq_comm]

/-- The definitions of some names of a source, each as the source has it. -/
structure PartOf (part source : Definitions) : Prop where
  distinct : (names part).Nodup
  same : ∀ d ∈ part, source.lookup d.1 = some d.2

theorem PartOf.length_le {part source : Definitions} (h : PartOf part source) :
    part.length ≤ source.length := by
  have inside : names part ⊆ names source := by
    intro name member
    obtain ⟨d, found, rfl⟩ := List.mem_map.mp member
    exact mem_names.mpr ⟨d.2, h.same d found⟩
  simpa [names] using (List.subperm_of_subset h.distinct inside).length_le

end Definitions

namespace Closure
open Definitions

structure ClosedUnder (source : Definitions) (root : String) (members : Definitions)
    (set : Set String) : Prop where
  given : ∀ name ∈ names members, name ∈ set
  closed : ∀ name ∈ set, ∀ s, source.lookup name = some s →
    ∀ other, s.Mentions root other → other ∈ names source → other ∈ set

/-- Rounds without a bound: another one as long as the last one found something. -/
inductive Loop (source : Definitions) (root : String) : Closure → Closure → Prop
  | stop {c : Closure} (still : (c.round source root).found.length = c.found.length) :
      Loop source root c (c.round source root)
  | again {c last : Closure} (grown : (c.round source root).found.length ≠ c.found.length)
      (next : Loop source root (c.round source root) last) : Loop source root c last

/-! Walks -/

abbrev Walked (visited : Visited) (name : String) : Prop := (⟨name, []⟩ : NodeId) ∈ visited

def Rooted (visited : Visited) : Prop := ∀ x ∈ visited, Walked visited x.root

theorem references_walked {root name : String} {visited : Visited} (walked : Walked visited name)
    (s : Schema) : s.references root name visited = ([], visited) :=
  RefTree.collect_visited walked s.refTree

theorem references_fresh (root : String) {name : String} {visited : Visited}
    (rooted : Rooted visited) (fresh : ¬ Walked visited name) (s : Schema) :
    (s.references root name visited).1 = s.refTree.names root ∧
      Rooted (s.references root name visited).2 ∧
      ∀ n, Walked (s.references root name visited).2 n ↔ n = name ∨ Walked visited n := by
  have unseen : ∀ n ∈ s.nodes ⟨name, []⟩, n.place ∉ visited := by
    intro n inside seen
    have walked := rooted n.place seen
    rw [(Schema.covers_of_mem_nodes inside).1] at walked
    exact fresh walked
  have walk := RefTree.collects root s ⟨name, []⟩ visited
    fun n inside seen => absurd seen (unseen n inside)
  have here : Walked (s.references root name visited).2 name :=
    (walk.visited _).mpr (.inr (List.mem_map_of_mem (Schema.self_mem_nodes _ s)))
  have outside : ∀ x, x ∈ (s.references root name visited).2 → x ∈ visited ∨ x.root = name := by
    intro x member
    refine ((walk.visited x).mp member).imp_right fun below => ?_
    obtain ⟨n, inside, rfl⟩ := List.mem_map.mp below
    exact (Schema.covers_of_mem_nodes inside).1
  refine ⟨?_, ?_, fun n => ⟨fun walked => (outside _ walked).symm, ?_⟩⟩
  · have all : PlacedNode.unvisited visited (s.nodes ⟨name, []⟩) = s.nodes ⟨name, []⟩ :=
      List.filter_eq_self.mpr fun n inside => by simpa using unseen n inside
    rw [Schema.names_refTree root ⟨name, []⟩, ← all]
    exact walk.reported
  · intro x member
    rcases outside x member with member | same
    · exact (walk.visited _).mpr (.inl (rooted x member))
    · rw [same]
      exact here
  · rintro (rfl | walked)
    · exact here
    · exact (walk.visited _).mpr (.inl walked)

/-- A scan reports what the definitions that were not walked before mention, and walks them all. -/
theorem scan_spec (root : String) {found : Definitions} (distinct : (names found).Nodup)
    {visited : Visited} (rooted : Rooted visited) :
    (scan root found visited).1 = (found.flatMap fun d =>
        if visited.contains ⟨d.1, []⟩ then [] else d.2.refTree.names root) ∧
      Rooted (scan root found visited).2 ∧
      ∀ n, Walked (scan root found visited).2 n ↔ n ∈ names found ∨ Walked visited n := by
  induction found generalizing visited with
  | nil => exact ⟨rfl, rooted, by simp [scan, names]⟩
  | cons d rest ih =>
    obtain ⟨name, s⟩ := d
    obtain ⟨new, distinct⟩ := List.nodup_cons.mp distinct
    by_cases walked : Walked visited name
    · obtain ⟨reported, rooted', visited'⟩ := ih distinct rooted
      have seen : visited.contains ⟨name, []⟩ := Std.HashSet.mem_iff_contains.mp walked
      simp only [scan, references_walked walked, List.nil_append, List.flatMap_cons, seen, if_true,
        reported, rooted', visited', names, List.map_cons, List.mem_cons, true_and]
      intro n
      constructor
      · rintro (member | member)
        · exact .inl (.inr member)
        · exact .inr member
      · rintro ((rfl | member) | member)
        · exact .inr walked
        · exact .inl member
        · exact .inr member
    · obtain ⟨first, rooted₁, visited₁⟩ := references_fresh root rooted walked s
      obtain ⟨reported, rooted', visited'⟩ := ih distinct rooted₁
      have unseen : ¬ visited.contains ⟨name, []⟩ := fun seen =>
        walked (Std.HashSet.mem_iff_contains.mpr seen)
      -- The walk of the first definition leaves the others as they were.
      have later : (rest.flatMap fun d =>
          if (s.references root name visited).2.contains ⟨d.1, []⟩ then []
          else d.2.refTree.names root) =
          rest.flatMap fun d => if visited.contains ⟨d.1, []⟩ then [] else d.2.refTree.names root := by
        refine List.flatMap_congr fun d member => ?_
        have inside : d.1 ∈ names rest := List.mem_map_of_mem member
        have other : d.1 ≠ name := fun same => new (same ▸ inside)
        have same : (s.references root name visited).2.contains ⟨d.1, []⟩ =
            visited.contains ⟨d.1, []⟩ := by
          rw [Bool.eq_iff_iff, ← Std.HashSet.mem_iff_contains, ← Std.HashSet.mem_iff_contains]
          simpa [other] using visited₁ d.1
        rw [same]
      simp only [scan, first, reported, later, List.flatMap_cons, unseen, Bool.false_eq_true,
        if_false, rooted', visited', visited₁, names, List.map_cons, List.mem_cons, true_and]
      intro n
      constructor
      · rintro (member | rfl | member)
        · exact .inl (.inr member)
        · exact .inl (.inl rfl)
        · exact .inr member
      · rintro ((rfl | member) | member)
        · exact .inr (.inl rfl)
        · exact .inl member
        · exact .inr (.inr member)

theorem mem_scan {root : String} {found : Definitions} (distinct : (names found).Nodup)
    {visited : Visited} (rooted : Rooted visited) {name : String} :
    name ∈ (scan root found visited).1 ↔
      ∃ d ∈ found, ¬ Walked visited d.1 ∧ d.2.Mentions root name := by
  rw [(scan_spec root distinct rooted).1, List.mem_flatMap]
  refine exists_congr fun d => and_congr_right fun _ => ?_
  split
  · rename_i seen
    simp [Std.HashSet.mem_iff_contains.mpr seen]
  · rename_i unseen
    rw [Schema.mem_names_refTree, Walked, Std.HashSet.mem_iff_contains]
    simp [unseen]

/-! Additions -/

theorem add_cases (source : Definitions) (c : Closure) (name : String) :
    (name ∈ names c.found ∧ add source c name = c) ∨
    (∃ s, name ∉ names c.found ∧ source.lookup name = some s ∧
      add source c name = { c with found := c.found ++ [(name, s)] }) ∨
    (name ∉ names c.found ∧ source.lookup name = none ∧
      add source c name = { c with dangling := c.dangling ++ [name] }) := by
  have present : c.found.any (·.1 == name) = true ↔ name ∈ names c.found := by
    simp [names]
  unfold add
  split
  · rename_i h
    exact .inl ⟨present.mp h, rfl⟩
  · rename_i h
    have absent := mt present.mpr h
    cases defined : source.lookup name with
    | some s => exact .inr (.inl ⟨s, absent, rfl, rfl⟩)
    | none => exact .inr (.inr ⟨absent, rfl, rfl⟩)

/-- Additions put new definitions behind those found, all of them asked for and from the source, and
    leave out none that exists. -/
theorem adds_spec (source : Definitions) (wanted : List String) (c : Closure) :
    ∃ new, (wanted.foldl (add source) c).found = c.found ++ new ∧
      (wanted.foldl (add source) c).visited = c.visited ∧
      (∀ d ∈ new, d.1 ∈ wanted ∧ d.1 ∉ names c.found ∧ source.lookup d.1 = some d.2) ∧
      ((names c.found).Nodup → (names (c.found ++ new)).Nodup) ∧
      ∀ name ∈ wanted, name ∈ names source → name ∈ names (c.found ++ new) := by
  induction wanted generalizing c with
  | nil => exact ⟨[], by simp, rfl, by simp, by simp, by simp⟩
  | cons name rest ih =>
    rw [List.foldl_cons]
    obtain ⟨new, grown, kept, origin, distinct, all⟩ := ih (add source c name)
    rcases add_cases source c name with ⟨present, same⟩ | ⟨s, absent, defined, same⟩ |
      ⟨absent, undefined, same⟩
    · rw [same] at grown kept origin distinct all ⊢
      refine ⟨new, grown, kept, fun d member => ?_, distinct, ?_⟩
      · exact ⟨List.mem_cons_of_mem _ (origin d member).1, (origin d member).2⟩
      · intro n member inSource
        rcases List.mem_cons.mp member with rfl | member
        · exact List.mem_map.mpr (by
            obtain ⟨d, found, rfl⟩ := List.mem_map.mp present
            exact ⟨d, List.mem_append_left _ found, rfl⟩)
        · exact all n member inSource
    · rw [same] at grown kept origin distinct all ⊢
      simp only [List.append_assoc, List.cons_append, List.nil_append] at grown distinct all
      refine ⟨(name, s) :: new, grown, kept, ?_, ?_, ?_⟩
      · intro d member
        rcases List.mem_cons.mp member with rfl | member
        · exact ⟨List.mem_cons_self, absent, defined⟩
        · obtain ⟨asked, other, fromSource⟩ := origin d member
          refine ⟨List.mem_cons_of_mem _ asked, fun inside => other ?_, fromSource⟩
          simp only [names, List.map_append, List.mem_append]
          exact .inl inside
      · intro unique
        refine distinct ?_
        simp only [names, List.map_append, List.map_cons, List.map_nil] at unique absent ⊢
        exact List.nodup_append.mpr ⟨unique, by simp, by
          intro a inside b single
          rw [List.mem_singleton.mp single]
          exact fun equal => absent (equal ▸ inside)⟩
      · intro n member inSource
        rcases List.mem_cons.mp member with rfl | member
        · simp [names]
        · exact all n member inSource
    · rw [same] at grown kept origin distinct all ⊢
      refine ⟨new, grown, kept, fun d member => ?_, distinct, ?_⟩
      · exact ⟨List.mem_cons_of_mem _ (origin d member).1, (origin d member).2⟩
      · intro n member inSource
        rcases List.mem_cons.mp member with rfl | member
        · obtain ⟨s, defined⟩ := mem_names.mp inSource
          rw [undefined] at defined
          cases defined
        · exact all n member inSource

/-! Rounds -/

structure Inv (source : Definitions) (root : String) (members : Definitions) (c : Closure) :
    Prop where
  part : PartOf c.found source
  given : ∀ name ∈ names members, name ∈ names c.found
  least : ∀ set, ClosedUnder source root members set → ∀ name ∈ names c.found, name ∈ set
  rooted : Rooted c.visited
  walkedFound : ∀ name, Walked c.visited name → name ∈ names c.found
  walkedClosed : ∀ d ∈ c.found, Walked c.visited d.1 →
    ∀ other, d.2.Mentions root other → other ∈ names source → other ∈ names c.found

theorem Inv.start {source members : Definitions} {root : String} (part : PartOf members source) :
    Inv source root members { found := members } where
  part := part
  given _ member := member
  least _ closed name member := closed.given name member
  rooted x member := by simp at member
  walkedFound name walked := by simp at walked
  walkedClosed d _ walked := by simp at walked

section
variable {source members : Definitions} {root : String} {c : Closure}

theorem Inv.round_spec (inv : Inv source root members c) :
    ∃ new, (c.round source root).found = c.found ++ new ∧
      (∀ d ∈ new, d.1 ∉ names c.found ∧ source.lookup d.1 = some d.2 ∧
        ∃ e ∈ c.found, e.2.Mentions root d.1) ∧
      (names (c.found ++ new)).Nodup ∧
      Rooted (c.round source root).visited ∧
      (∀ name, Walked (c.round source root).visited name ↔ name ∈ names c.found) ∧
      ∀ d ∈ c.found, ∀ other, d.2.Mentions root other → other ∈ names source →
        other ∈ names (c.found ++ new) := by
  obtain ⟨-, rooted, walked⟩ := scan_spec root inv.part.distinct inv.rooted
  obtain ⟨new, grown, kept, origin, distinct, all⟩ := adds_spec source
    (scan root c.found c.visited).1 { c with visited := (scan root c.found c.visited).2 }
  have inside : ∀ name ∈ names c.found, name ∈ names (c.found ++ new) := by
    intro name member
    simp only [names, List.map_append, List.mem_append]
    exact .inl member
  refine ⟨new, grown, ?_, distinct inv.part.distinct, ?_, ?_, ?_⟩
  · intro d member
    obtain ⟨asked, absent, defined⟩ := origin d member
    obtain ⟨e, found, -, mentioned⟩ := (mem_scan inv.part.distinct inv.rooted).mp asked
    exact ⟨absent, defined, e, found, mentioned⟩
  · simpa only [round, kept] using rooted
  · intro name
    have once := walked name
    simp only [round, kept]
    exact once.trans ⟨fun h => h.elim id (inv.walkedFound name), .inl⟩
  · intro d found other mentioned inSource
    by_cases before : Walked c.visited d.1
    · exact inside other (inv.walkedClosed d found before other mentioned inSource)
    · exact all other ((mem_scan inv.part.distinct inv.rooted).mpr ⟨d, found, before, mentioned⟩)
        inSource

theorem Inv.round (inv : Inv source root members c) :
    Inv source root members (c.round source root) := by
  obtain ⟨new, grown, origin, distinct, rooted, walked, closed⟩ := inv.round_spec
  have inside : ∀ name ∈ names c.found, name ∈ names (c.round source root).found := by
    intro name member
    simp only [grown, names, List.map_append, List.mem_append]
    exact .inl member
  have same : ∀ d ∈ (c.round source root).found, source.lookup d.1 = some d.2 := by
    intro d member
    rw [grown] at member
    rcases List.mem_append.mp member with found | added
    · exact inv.part.same d found
    · exact (origin d added).2.1
  constructor
  · exact ⟨grown ▸ distinct, same⟩
  · exact fun name member => inside name (inv.given name member)
  · intro set closedSet name member
    obtain ⟨d, found, rfl⟩ := List.mem_map.mp member
    rw [grown] at found
    rcases List.mem_append.mp found with found | added
    · exact inv.least set closedSet d.1 (List.mem_map_of_mem found)
    · obtain ⟨-, defined, e, found, mentioned⟩ := origin d added
      have before := inv.least set closedSet e.1 (List.mem_map_of_mem found)
      exact closedSet.closed e.1 before e.2 (inv.part.same e found) d.1 mentioned
        (mem_names.mpr ⟨d.2, defined⟩)
  · exact rooted
  · exact fun name h => inside name ((walked name).mp h)
  · intro d found isWalked other mentioned inSource
    obtain ⟨e, before, sameName⟩ := List.mem_map.mp ((walked d.1).mp isWalked)
    have sameSchema : e.2 = d.2 := by
      have here := inv.part.same e before
      rw [sameName, same d found] at here
      exact (Option.some.inj here).symm
    rw [← sameSchema] at mentioned
    rw [grown]
    exact closed e before other mentioned inSource

theorem Inv.closed_of_still (inv : Inv source root members c)
    (still : (c.round source root).found.length = c.found.length) :
    ClosedUnder source root members {name | name ∈ names (c.round source root).found} := by
  obtain ⟨new, grown, -, -, -, -, closed⟩ := inv.round_spec
  have none : new = [] := by
    rw [grown, List.length_append] at still
    exact List.eq_nil_of_length_eq_zero (by omega)
  subst none
  refine ⟨inv.round.given, ?_⟩
  intro name member s defined other mentioned inSource
  rw [Set.mem_ofPred_eq, grown, List.append_nil] at member
  obtain ⟨d, found, rfl⟩ := List.mem_map.mp member
  have here := inv.part.same d found
  rw [defined] at here
  cases here
  rw [Set.mem_ofPred_eq, grown]
  exact closed d found other mentioned inSource

/-- As many rounds as there are definitions left to find, and one more, reach the end of the loop. -/
theorem Inv.rounds_loop (inv : Inv source root members c) {n : Nat}
    (enough : source.length < n + c.found.length) :
    Loop source root c (rounds source root n c) ∧ Inv source root members (rounds source root n c) ∧
      ClosedUnder source root members {name | name ∈ names (rounds source root n c).found} := by
  induction n generalizing c with
  | zero =>
    have := inv.part.length_le
    omega
  | succ n ih =>
    rw [rounds]
    by_cases still : (c.round source root).found.length = c.found.length
    · simp only [still, if_true]
      exact ⟨.stop still, inv.round, inv.closed_of_still still⟩
    · simp only [still, if_false]
      have longer : c.found.length ≤ (c.round source root).found.length := by
        obtain ⟨new, grown, -⟩ := inv.round_spec
        rw [grown, List.length_append]
        omega
      obtain ⟨loop, last, closed⟩ := ih inv.round (by omega)
      exact ⟨.again still loop, last, closed⟩

end

/-- The bound of the rounds is never what ends them. -/
theorem ofMembers_loop {source members : Definitions} (part : PartOf members source) (root : String) :
    Loop source root { found := members } (ofMembers source root members) ∧
      Inv source root members (ofMembers source root members) ∧
      ClosedUnder source root members {name | name ∈ names (ofMembers source root members).found} := by
  cases members with
  | nil =>
    have still : (round source root { found := [] }).found.length = 0 := rfl
    have one : ofMembers source root [] = round source root { found := [] } := by
      have positive : max 1 source.length = (max 1 source.length - 1) + 1 := by omega
      rw [ofMembers, positive, rounds]
      exact if_pos still
    rw [one]
    have inv : Inv source root [] { found := [] } := .start part
    exact ⟨.stop still, inv.round, inv.closed_of_still still⟩
  | cons d rest =>
    refine (Inv.start part).rounds_loop ?_
    simp only [List.length_cons]
    omega

/-- The loop ends, and the names of the closure are the least set that holds the given names and is
    closed under reference. Each name occurs once, with the schema of the source. -/
theorem ofMembers_isLeast {source members : Definitions} (part : PartOf members source)
    (root : String) :
    Loop source root { found := members } (ofMembers source root members) ∧
      IsLeast {set | ClosedUnder source root members set}
        {name | name ∈ names (ofMembers source root members).found} ∧
      PartOf (ofMembers source root members).found source := by
  obtain ⟨loop, inv, closed⟩ := ofMembers_loop part root
  exact ⟨loop, ⟨closed, fun set other name member => inv.least set other name member⟩, inv.part⟩

/-- Two definitions that refer to each other, one of them also to itself, with a dangling name and a
    definition that nobody refers to. -/
theorem ofMembers_isLeast_cycle :
    let root := "#/definitions/"
    let a : Schema :=
      { properties := [("b", .reference "#/definitions/B"), ("gone", .reference "#/definitions/Gone")] }
    let b : Schema :=
      { items := some (.reference "#/definitions/A"), allOf := [.reference "#/definitions/B"] }
    let source : Definitions := [("Alone", {}), ("A", a), ("B", b)]
    let closure := ofMembers source root [("A", a)]
    PartOf [("A", a)] source ∧ Loop source root { found := [("A", a)] } closure ∧
      IsLeast {set | ClosedUnder source root [("A", a)] set} {name | name ∈ names closure.found} ∧
      PartOf closure.found source ∧ "B" ∈ names closure.found := by
  intro root a b source closure
  have part : PartOf [("A", a)] source := by
    refine ⟨by decide, ?_⟩
    intro d member
    rw [List.mem_singleton.mp member]
    rfl
  obtain ⟨loop, least, result⟩ := ofMembers_isLeast part root
  refine ⟨part, loop, least, result, ?_⟩
  have mentioned : a.Mentions root "B" :=
    ⟨.reference "#/definitions/B", .child (by simp [a, Schema.children]) (.refl _), rfl, by decide⟩
  exact least.1.closed "A" (least.1.given "A" (by decide)) a rfl "B" mentioned (by decide)

end Closure
end SchemaSplit
