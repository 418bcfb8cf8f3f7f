import SchemaSplit.Run
import SchemaSplit.Proofs.Group

/-!
The document of a group depends on nothing outside of it. Two sources that agree on all names that a
closure mentions lead through the same rounds, so a group can be isolated from any source that has
the definitions of its document, from that document itself as well.
-/

namespace SchemaSplit

open Definitions

namespace Closure

variable {source other members : Definitions} {root : String} {c last : Closure}

theorem Loop.unique {last' : Closure} (first : Loop source root c last)
    (second : Loop source root c last') : last = last' := by
  induction first with
  | stop still =>
    cases second with
    | stop => rfl
    | again grown => exact absurd still grown
  | again grown _ ih =>
    cases second with
    | stop still => exact absurd still grown
    | again _ next => exact ih next

theorem Inv.round_congr (inv : Inv source root members c)
    (agree : ∀ d ∈ c.found, ∀ name, d.2.Mentions root name →
      source.lookup name = other.lookup name) : c.round source root = c.round other root := by
  -- The scan looks at the definitions found only; of a source it is the answers that count.
  refine List.foldl_ext _ _ _ fun c' name asked => ?_
  obtain ⟨d, found, -, mentions⟩ := (mem_scan inv.part.distinct inv.rooted).mp asked
  rw [add, add, agree d found name mentions]

/-- Sources that agree on what the last closure mentions go through the same rounds. -/
theorem Loop.congr (inv : Inv source root members c) (loop : Loop source root c last)
    (agree : ∀ d ∈ last.found, ∀ name, d.2.Mentions root name →
      source.lookup name = other.lookup name) : Loop other root c last := by
  -- All that is found on the way is found at the end, where the sources are known to agree.
  induction loop with
  | @stop c still =>
    have inside := (Loop.stop still).found_isPrefix inv
    have same := inv.round_congr fun d found => agree d (inside.subset found)
    rw [same] at still ⊢
    exact .stop still
  | @again c last grown next ih =>
    have inside := (Loop.again grown next).found_isPrefix inv
    have same := inv.round_congr fun d found => agree d (inside.subset found)
    have later := ih inv.round agree
    rw [same] at grown later
    exact .again grown later

/-- The closure of some definitions is the same in every source that has all definitions of it, and
    none with a name that it mentions in vain. -/
theorem ofMembers_congr (part : PartOf members source)
    (same : ∀ d ∈ (ofMembers source root members).found, other.lookup d.1 = some d.2)
    (missing : ∀ d ∈ (ofMembers source root members).found, ∀ name, d.2.Mentions root name →
      name ∉ names source → name ∉ names other) :
    ofMembers other root members = ofMembers source root members := by
  obtain ⟨loop, inv, closed⟩ := ofMembers_loop part root
  have inside := loop.found_isPrefix (Inv.start part)
  have part' : PartOf members other := ⟨part.distinct, fun d given => same d (inside.subset given)⟩
  have agree : ∀ d ∈ (ofMembers source root members).found, ∀ name, d.2.Mentions root name →
      source.lookup name = other.lookup name := by
    intro d found name mentions
    by_cases defined : name ∈ names source
    · have member := closed.closed d.1 (List.mem_map_of_mem found) d.2 (inv.part.same d found) name
        mentions defined
      obtain ⟨e, found, rfl⟩ := List.mem_map.mp member
      rw [inv.part.same e found, same e found]
    · rw [lookup_eq_none.mpr defined, lookup_eq_none.mpr (missing d found name mentions defined)]
  exact (ofMembers_loop part' root).1.unique (loop.congr (Inv.start part) agree)

end Closure

namespace Document

section
variable {d : Document} {separator : Char} {g : Group}
  (member : g ∈ d.groups separator) (distinct : (names d.definitions).Nodup)
include member distinct

/-- Of its key, the document of a group holds the members and no other definition. -/
theorem filter_isolate :
    (d.isolate g).definitions.filter (fun e => namespaceKey separator e.1 == g.key) =
      g.members := by
  have part := partOf_isolate member distinct
  obtain ⟨others, split⟩ := members_prefix_isolate member distinct
  have all := (Group.mem_ofDefinitions.mp member).1
  have given : ∀ e ∈ g.members, (namespaceKey separator e.1 == g.key) = true := by
    intro e inside
    rw [all] at inside
    exact (List.mem_filter.mp inside).2
  have foreign : ∀ e ∈ others, ¬ (namespaceKey separator e.1 == g.key) = true := by
    intro e inside sameKey
    have known : e ∈ d.definitions := part.subset (split ▸ List.mem_append_right _ inside)
    have again : e ∈ g.members := all ▸ List.mem_filter.mpr ⟨known, sameKey⟩
    exact PartOf.not_mem_right (split ▸ part) (List.mem_map_of_mem again) inside
  rw [← split, List.filter_append, List.filter_eq_self.mpr given,
    List.filter_eq_nil_iff.mpr foreign, List.append_nil]

theorem closure_eq_of_shared {e : Document} (dialect : e.dialect = d.dialect)
    (same : ∀ x ∈ (d.isolate g).definitions, e.definitions.lookup x.1 = some x.2)
    (missing : ∀ x ∈ (d.isolate g).definitions, ∀ name,
      x.2.Mentions d.dialect.referenceRoot name → name ∉ names d.definitions →
        name ∉ names e.definitions) : e.closure g = d.closure g := by
  rw [closure, closure, dialect]
  exact Closure.ofMembers_congr (partOf_members member distinct) same missing

end

theorem isolateWith_eq {d e : Document} (info : e.info = d.info) (dialect : e.dialect = d.dialect)
    (specVersion : e.specVersion = d.specVersion) (g : Group) (c : Closure) :
    e.isolateWith g c = d.isolateWith g c := by
  rw [isolateWith, isolateWith, info, dialect, specVersion]

/-- What becomes of a group depends on its document only. If another source has the same group, all
    definitions of its document and none that these mention in vain, then its document and both
    kinds of artifact are the same there, and so is all that is done to write it. -/
theorem isolate_eq_of_shared {d e : Document} (info : e.info = d.info)
    (dialect : e.dialect = d.dialect) (specVersion : e.specVersion = d.specVersion)
    (distinct : (names d.definitions).Nodup) (distinct' : (names e.definitions).Nodup)
    {separator : Char} {g h : Group} (member : g ∈ d.groups separator)
    (member' : h ∈ e.groups separator) (key : h.key = g.key) (sameNames : h.names = g.names)
    (shared : ∀ x ∈ (d.isolate g).definitions, x ∈ e.definitions)
    (missing : ∀ x ∈ (d.isolate g).definitions, ∀ name,
      x.2.Mentions d.dialect.referenceRoot name → name ∉ names d.definitions →
        name ∉ names e.definitions) :
    e.isolate h = d.isolate g ∧
      (∀ (format : ArtifactFormat) (settings : TypeScript.Settings) (fileName : String),
        (format.generator settings).generate (e.isolate h) fileName =
          (format.generator settings).generate (d.isolate g) fileName) ∧
      ∀ {m : Type → Type} [Monad m] (machine : Machine m) (generator : Generator)
        (options : RunOptions) (claimed : List (String × String)),
        e.writeGroup machine generator options h claimed =
          d.writeGroup machine generator options g claimed := by
  have same : ∀ x ∈ (d.isolate g).definitions, e.definitions.lookup x.1 = some x.2 :=
    fun x inside => lookup_of_mem distinct' (shared x inside)
  have sameGroup : h = g := by
    have part := partOf_members member distinct
    have part' := partOf_members member' distinct'
    have inside := members_prefix_isolate member distinct
    have given : PartOf g.members e.definitions :=
      ⟨part.distinct, fun x found => same x (inside.subset found)⟩
    have members := part'.eq_of_names given sameNames
    cases g
    cases h
    cases key
    cases members
    rfl
  subst sameGroup
  have sameClosure := closure_eq_of_shared member distinct dialect same missing
  have sameDocument := isolateWith_eq info dialect specVersion h
  have isolated : e.isolate h = d.isolate h := by
    rw [isolate, isolate, sameClosure, sameDocument]
  refine ⟨isolated, fun format settings fileName => by rw [isolated], ?_⟩
  intro m _ machine generator options claimed
  unfold writeGroup
  rw [sameClosure]
  simp only [sameDocument]

/-- Two sources in different orders, with a cycle through both namespaces, a dangling name and an
    unrelated definition that only one of them has as it is. -/
theorem isolate_eq_of_shared_cycle :
    let one : Schema := { properties := [("two", .reference "#/definitions/B.Two"),
      ("gone", .reference "#/definitions/A.Gone")] }
    let self : Schema := { allOf := [.reference "#/definitions/A.Self"] }
    let two : Schema := { items := some (.reference "#/definitions/A.One") }
    let d : Document := { definitions :=
      [("A.One", one), ("B.Two", two), ("A.Self", self), ("C.Other", .ofType "string")] }
    let e : Document := { definitions :=
      [("C.Else", two), ("C.Other", .ofType "object"), ("A.One", one), ("A.Self", self),
        ("B.Two", two)] }
    let g : Group := ⟨"A", [("A.One", one), ("A.Self", self)]⟩
    (names d.definitions).Nodup ∧ (names e.definitions).Nodup ∧ g ∈ d.groups '.' ∧
      g ∈ e.groups '.' ∧ (∀ x ∈ (d.isolate g).definitions, x ∈ e.definitions) ∧
      (∀ x ∈ (d.isolate g).definitions, ∀ name,
        x.2.Mentions d.dialect.referenceRoot name → name ∉ names d.definitions →
          name ∉ names e.definitions) ∧
      e.isolate g = d.isolate g ∧ "B.Two" ∈ names (d.isolate g).definitions := by
  intro one self two d e g
  have distinct : (names d.definitions).Nodup := by decide
  have distinct' : (names e.definitions).Nodup := by decide
  have keys : ["A.One", "A.Self", "B.Two", "C.Other", "C.Else"].map (namespaceKey '.') =
      ["A", "A", "B", "C", "C"] := by decide +kernel
  simp only [List.map_cons, List.map_nil, List.cons.injEq, and_true] at keys
  have member : g ∈ d.groups '.' :=
    Group.mem_ofDefinitions.mpr ⟨by simp [d, g, keys], nofun⟩
  have member' : g ∈ e.groups '.' :=
    Group.mem_ofDefinitions.mpr ⟨by simp [e, g, keys], nofun⟩
  have part := partOf_isolate member distinct
  have reached : ∀ x ∈ (d.isolate g).definitions, x.1 ∈ ["A.One", "A.Self", "B.Two"] := by
    have inv := (Closure.ofMembers_loop (partOf_members member distinct)
      d.dialect.referenceRoot).2.1
    refine fun x inside => inv.least {name | name ∈ ["A.One", "A.Self", "B.Two"]} ⟨?_, ?_⟩ x.1
      (List.mem_map_of_mem inside)
    · decide
    · have all : ∀ x ∈ d.definitions, x.1 ∈ ["A.One", "A.Self", "B.Two"] →
          ∀ name ∈ x.2.refTree.names "#/definitions/", name ∈ names d.definitions →
            name ∈ ["A.One", "A.Self", "B.Two"] := by decide +kernel
      intro name inside s found other mentions
      exact all (name, s) (mem_of_lookup found) inside other
        ((Schema.mem_names_refTree s).mpr mentions)
  have shared : ∀ x ∈ (d.isolate g).definitions, x ∈ e.definitions := by
    intro x inside
    have known := part.subset inside
    have name := reached x inside
    simp only [d, List.mem_cons, List.not_mem_nil, or_false] at known
    rcases known with rfl | rfl | rfl | rfl
    · simp [e]
    · simp [e]
    · simp [e]
    · simp at name
  have missing : ∀ x ∈ (d.isolate g).definitions, ∀ name,
      x.2.Mentions d.dialect.referenceRoot name → name ∉ names d.definitions →
        name ∉ names e.definitions := by
    intro x inside name mentions
    have named := (Schema.mem_names_refTree x.2).mpr mentions
    have all : ∀ x ∈ d.definitions, ∀ name ∈ x.2.refTree.names "#/definitions/",
      name ∉ names d.definitions → name ∉ names e.definitions := by decide +kernel
    exact all x (part.subset inside) name named
  have same := (isolate_eq_of_shared (d := d) (e := e) rfl rfl rfl distinct distinct' member member'
    rfl rfl shared missing).1
  have first : ("A.One", one) ∈ (d.isolate g).definitions :=
    (members_prefix_isolate member distinct).subset (by simp [g])
  have mentions : one.Mentions d.dialect.referenceRoot "B.Two" :=
    (Schema.mem_names_refTree one).mp (by decide +kernel)
  exact ⟨distinct, distinct', member, member', shared, missing, same,
    mem_isolate_of_mentions member distinct first mentions (by decide)⟩

/-- An isolated document splits like its source: its first group is the one it was made for, and the
    document of that group is the whole of it again. -/
theorem groups_isolate {d : Document} (distinct : (names d.definitions).Nodup) {separator : Char}
    {g : Group} (member : g ∈ d.groups separator) :
    ((d.isolate g).document.groups separator).head? = some g ∧
      (d.isolate g).document.isolate g = d.isolate g := by
  have part := partOf_isolate member distinct
  constructor
  · obtain ⟨others, split⟩ := members_prefix_isolate member distinct
    have all := filter_isolate member distinct
    obtain ⟨members, nonempty⟩ := Group.mem_ofDefinitions.mp member
    obtain ⟨first, rest, starts⟩ := List.exists_cons_of_ne_nil nonempty
    have key : namespaceKey separator first.1 = g.key := by
      have inside : first ∈ g.members := starts ▸ List.mem_cons_self
      rw [members, List.mem_filter, beq_iff_eq] at inside
      exact inside.2
    show (Group.ofDefinitions (namespaceKey separator) (d.isolate g).definitions).head? = some g
    rw [← split, starts, List.cons_append] at all ⊢
    rw [Group.head?_ofDefinitions, key, all, ← starts]
  · have same : ∀ x ∈ (d.isolate g).definitions,
        (d.isolate g).document.definitions.lookup x.1 = some x.2 :=
      fun x inside => lookup_of_mem part.distinct inside
    have missing : ∀ x ∈ (d.isolate g).definitions, ∀ name,
        x.2.Mentions d.dialect.referenceRoot name → name ∉ names d.definitions →
          name ∉ names (d.isolate g).document.definitions :=
      fun _ _ name _ undefined inside => undefined (List.map_subset Prod.fst part.subset inside)
    have sameClosure : (d.isolate g).document.closure g = d.closure g :=
      closure_eq_of_shared member distinct rfl same missing
    rw [isolate, sameClosure]
    rfl

/-- A namespace whose definitions refer to each other and to another one, which refers back. -/
theorem groups_isolate_cycle :
    let one : Schema := { properties := [("two", .reference "#/definitions/B.Two"),
      ("gone", .reference "#/definitions/A.Gone")] }
    let two : Schema := { items := some (.reference "#/definitions/A.One") }
    let d : Document := { definitions := [("C.Other", two), ("A.One", one), ("B.Two", two)] }
    let g : Group := ⟨"A", [("A.One", one)]⟩
    (names d.definitions).Nodup ∧ g ∈ d.groups '.' ∧
      ((d.isolate g).document.groups '.').head? = some g ∧
      (d.isolate g).document.isolate g = d.isolate g := by
  intro one two d g
  have distinct : (names d.definitions).Nodup := by decide
  have keys : ["A.One", "B.Two", "C.Other"].map (namespaceKey '.') = ["A", "B", "C"] := by
    decide +kernel
  simp only [List.map_cons, List.map_nil, List.cons.injEq, and_true] at keys
  have member : g ∈ d.groups '.' := Group.mem_ofDefinitions.mpr ⟨by simp [d, g, keys], nofun⟩
  exact ⟨distinct, member, groups_isolate distinct member⟩

end Document
end SchemaSplit
