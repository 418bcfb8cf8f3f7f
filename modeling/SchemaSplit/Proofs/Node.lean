import SchemaSplit.Proofs.Json.Basic
import SchemaSplit.Proofs.Lookup
import SchemaSplit.Proofs.Traversal
import SchemaSplit.Node.Draft

namespace SchemaSplit

def Leaf.Fits (l : Leaf) : Prop := ∀ n, l.value? = some (.int n) → fitsEither 64 n

namespace Node

inductive Fits : Node → Prop
  | leaf {l : Leaf} (number : l.Fits) : Fits (.leaf l)
  | list {items : List Node} {isSealed : Bool} (below : ∀ n ∈ items, Fits n) :
    Fits (.list items isSealed)
  | map {entries : List (Node × Node)} {isSealed : Bool} (below : ∀ e ∈ entries, Fits e.2) :
    Fits (.map entries isSealed)
  | reuse {anchor : Nat} : Fits (.reuse anchor)

theorem Fits.ofLeaf {l : Leaf} (fits : Fits (.leaf l)) : l.Fits := by
  cases fits with
  | leaf number => exact number

theorem Fits.ofList {items : List Node} {isSealed : Bool} (fits : Fits (.list items isSealed)) :
    ∀ n ∈ items, Fits n := by
  cases fits with
  | list below => exact below

theorem Fits.ofMap {entries : List (Node × Node)} {isSealed : Bool}
    (fits : Fits (.map entries isSealed)) : ∀ e ∈ entries, Fits e.2 := by
  cases fits with
  | map below => exact below

theorem ofJsonItems_eq_map (js : List Json) : ofJsonItems js = js.map ofJson := by
  induction js with
  | nil => rfl
  | cons j rest ih => rw [ofJsonItems, ih, List.map_cons]

theorem ofJsonFields_eq_map (fs : List (String × Json)) :
    ofJsonFields fs = fs.map fun f => (leaf (.ofScalar (.string f.1)), ofJson f.2) := by
  induction fs with
  | nil => rfl
  | cons f rest ih => rw [ofJsonFields, ih, List.map_cons]

theorem key?_ofString (settled : Bool) (name : String) :
    (leaf (.ofScalar (.string name))).key? settled = some name := by
  rw [key?, Leaf.under_ofScalar]
  rfl

theorem optional_ofJson {α : Type} {j : Json} (present : j ≠ .scalar .null) (settled : Bool)
    (read : Node → Option α) : (ofJson j).optional settled read = (read (ofJson j)).map some := by
  cases j with
  | scalar s =>
    have isThere : ((Leaf.ofScalar s).under settled).present? = some true := by
      rw [Leaf.under_ofScalar]
      refine congrArg some (bne_iff_ne.mpr ?_)
      exact fun none => present (congrArg Json.scalar none)
    rw [ofJson, optional, isThere]
  | array items => rfl
  | object fields => rfl

theorem eq_some_of_optional {α : Type} {settled : Bool} {n : Node} {read : Node → Option α} {v : α}
    (known : n.optional settled read = some (some v)) : read n = some v := by
  unfold optional at known
  split at known
  · split at known
    · obtain ⟨w, here, same⟩ := Option.map_eq_some_iff.mp known
      cases same
      exact here
    · cases known
    · cases known
  · obtain ⟨w, here, same⟩ := Option.map_eq_some_iff.mp known
    cases same
    exact here

theorem jsonItems?_eq_mapM (ns : List Node) : jsonItems? ns = ns.mapM json? := by
  induction ns with
  | nil => rfl
  | cons n rest ih => rw [jsonItems?, List.mapM_cons, ih]

def jsonField? (entry : Node × Node) : Option (String × Json) := do
  return (← entry.1.key? true, ← entry.2.json?)

theorem jsonEntries?_eq_mapM (entries : List (Node × Node)) :
    jsonEntries? entries = entries.mapM jsonField? := by
  induction entries with
  | nil => rfl
  | cons entry rest ih =>
    rcases entry with ⟨k, n⟩
    rw [jsonEntries?, List.mapM_cons, ih, jsonField?]
    cases k.key? true with
    | none => rfl
    | some name => cases n.json? <;> rfl

theorem Fits.json {n : Node} (fits : n.Fits) {j : Json} (value : n.json? = some j) {i : Int}
    (member : .int i ∈ j.scalars) : fitsEither 64 i := by
  induction fits generalizing j with
  | leaf number =>
    obtain ⟨s, known, rfl⟩ := Option.map_eq_some_iff.mp value
    rw [Json.scalars, List.mem_singleton] at member
    exact number i (member ▸ known)
  | @list items isSealed _ ih =>
    cases isSealed with
    | true => cases value
    | false =>
      obtain ⟨js, read, rfl⟩ := Option.map_eq_some_iff.mp value
      rw [jsonItems?_eq_mapM, List.mapM_eq_some] at read
      rw [Json.scalars, Json.itemScalars_eq_flatMap, List.mem_flatMap] at member
      obtain ⟨j, inside, member⟩ := member
      obtain ⟨n, source, known⟩ := read.exists_left inside
      exact ih n source known member
  | @map entries isSealed _ ih =>
    cases isSealed with
    | true => cases value
    | false =>
      obtain ⟨fs, read, rfl⟩ := Option.map_eq_some_iff.mp value
      rw [jsonEntries?_eq_mapM, List.mapM_eq_some] at read
      rw [Json.scalars, Json.fieldScalars_eq_flatMap, List.mem_flatMap] at member
      obtain ⟨f, inside, member⟩ := member
      obtain ⟨e, source, known⟩ := read.exists_left inside
      have known : e.2.json? = some f.2 := by
        unfold jsonField? at known
        simp only [Option.bind_eq_bind, Option.bind_eq_some_iff, Option.pure_def,
          Option.some_inj] at known
        obtain ⟨_, _, _, known, rfl⟩ := known
        exact known
      exact ih e source known member
  | reuse => cases value

theorem Fits.record {n : Node} {names : List String} {fields : List (String × Node)}
    (fits : n.Fits) (read : n.record? names = some fields) : ∀ f ∈ fields, f.2.Fits := by
  intro f inside
  cases n with
  | map entries isSealed =>
    unfold record? at read
    obtain ⟨all, each, known⟩ := Option.bind_eq_some_iff.mp read
    dsimp only at known
    split at known
    · cases known
      obtain ⟨e, source, here⟩ :=
        (List.mapM_eq_some.mp each).exists_left (List.mem_of_mem_filter inside)
      obtain ⟨name, _, same⟩ := Option.bind_eq_some_iff.mp here
      cases same
      exact fits.ofMap e source
    · cases known
  | list items isSealed =>
    unfold record? at read
    dsimp only at read
    split at read
    · cases read
      exact fits.ofList f.2 (List.of_mem_zip inside).2
    · cases read
  | leaf l =>
    unfold record? at read
    dsimp only at read
    split at read <;> cases read
    cases inside
  | reuse anchor => cases read

theorem Fits.field {α : Type} {fields : List (String × Node)} (fits : ∀ f ∈ fields, f.2.Fits)
    {name : String} {read : Node → Option α} {v : α}
    (known : Node.field fields name read = some (some v)) : ∃ n, n.Fits ∧ read n = some v := by
  unfold Node.field at known
  split at known
  · rename_i n found
    obtain ⟨before, after, rfl, _⟩ := List.lookup_eq_some_iff.mp found
    exact ⟨n, fits _ (List.mem_append_right _ List.mem_cons_self), eq_some_of_optional known⟩
  · cases known

theorem record?_ofJson {names : List String} {fs : List (String × Json)}
    (known : ∀ f ∈ fs, f.1 ∈ names) (distinct : (fs.map (·.1)).Nodup) :
    (ofJson (.object fs)).record? names = some (fs.map fun f => (f.1, ofJson f.2)) := by
  have whole : (fs.map fun f => (f.1, ofJson f.2)).filter (names.contains ·.1) =
      fs.map fun f => (f.1, ofJson f.2) := by
    rw [List.filter_eq_self, List.forall_mem_map]
    exact fun f inside => List.contains_iff_mem.mpr (known f inside)
  rw [ofJson, ofJsonFields_eq_map]
  refine Option.bind_eq_some_iff.mpr ⟨fs.map fun f => (f.1, ofJson f.2), ?_, ?_⟩
  · rw [List.mapM_eq_some, List.forall₂_map_left_iff, List.forall₂_map_right_iff]
    exact List.forall₂_same.mpr fun _ _ => rfl
  · dsimp only
    rw [whole, List.map_map]
    exact if_pos distinct

end Node

namespace Draft

def Fits (d : Draft) : Prop := d.root.Fits ∧ ∀ a ∈ d.anchors, a.2.Fits

variable {d : Draft} {n : Node}

theorem keeps_target (fits : d.Fits) (node : n.Fits) :
    Keeps (fun _ => True) (d.target n) Node.Fits := by
  cases n with
  | reuse i =>
    unfold target
    refine Keeps.get.bind fun left _ => ?_
    split
    · rename_i found
      exact (Keeps.set trivial).bind fun _ _ => Keeps.pure (fits.2 _ (mem_of_lookup found))
    · exact Keeps.failure
  | leaf l => exact Keeps.pure node
  | list items isSealed => exact Keeps.pure node
  | map entries isSealed => exact Keeps.pure node

theorem keeps_leaf (fits : d.Fits) (node : n.Fits) :
    Keeps (fun _ => True) (d.leaf n) Leaf.Fits := by
  unfold leaf
  refine (keeps_target fits node).bind fun reached there => ?_
  cases reached with
  | leaf l => exact Keeps.pure there.ofLeaf
  | _ => exact Keeps.failure

def Selects (select : Nat → Node → Reader Node) : Prop :=
  ∀ depth n, n.Fits → Keeps (fun _ => True) (select depth n) Node.Fits

theorem selects_whole (fits : d.Fits) : Selects d.whole := by
  intro depth
  induction depth with
  | zero =>
    intro n node
    unfold whole
    exact (keeps_leaf fits node).bind fun l there => Keeps.pure (.leaf there)
  | succ depth ih =>
    intro n node
    unfold whole
    refine (keeps_target fits node).bind fun reached there => ?_
    cases reached with
    | leaf l => exact Keeps.pure there
    | list items isSealed =>
      have each : Keeps (fun _ => True) (items.mapM (d.whole depth)) fun ns =>
          ∀ n ∈ ns, n.Fits := Keeps.mapM fun item inside => ih item (there.ofList item inside)
      exact each.bind fun ns below => Keeps.pure (.list below)
    | map entries isSealed =>
      refine Keeps.bind (P := fun es => ∀ e ∈ es, e.2.Fits) (Keeps.mapM fun e inside => ?_)
        fun es below => Keeps.pure (.map below)
      refine (Keeps.anything _).bind fun key _ => ?_
      exact (ih e.2 (there.ofMap e inside)).bind fun value here => Keeps.pure here
    | reuse i => exact Keeps.failure

theorem selects_record (fits : d.Fits) {fields : List (String × (Nat → Node → Reader Node))}
    (each : ∀ f ∈ fields, Selects f.2) : Selects (d.record fields) := by
  intro depth n node
  unfold record
  refine (keeps_target fits node).bind fun reached there => ?_
  split
  · exact Keeps.pure there
  · refine Keeps.bind (P := fun es => ∀ e ∈ es, e.2.Fits) (Keeps.filterMapM fun e inside => ?_)
      fun es below => Keeps.pure (.map below)
    refine (Keeps.anything _).bind fun key _ => ?_
    split
    · exact Keeps.failure
    · split
      · rename_i select found
        obtain ⟨before, after, rfl, _⟩ := List.lookup_eq_some_iff.mp found
        have known := each _ (List.mem_append_right _ List.mem_cons_self)
        refine (known _ e.2 (there.ofMap e inside)).bind fun value here => Keeps.pure ?_
        intro _ same
        cases same
        exact here
      · exact Keeps.pure nofun
  · rename_i items isSealed depth
    split
    · refine Keeps.bind (P := fun ns => ∀ n ∈ ns, n.Fits) (Keeps.mapM fun e inside => ?_)
        fun ns below => Keeps.pure (.list below)
      have here := List.of_mem_zip inside
      exact each e.2 here.2 _ e.1 (there.ofList e.1 here.1)
    · exact Keeps.failure
  · exact Keeps.failure

theorem fits_of_take? (fits : d.Fits) {select : Nat → Node → Reader Node}
    (selects : Selects select) (taken : d.take? select = some n) : n.Fits := by
  obtain ⟨⟨_, t⟩, run, rfl⟩ := Option.map_eq_some_iff.mp taken
  exact (selects d.depth d.root fits.1 d.jumps trivial _ t run).1

theorem target_ofJson (d : Draft) (j : Json) : d.target (.ofJson j) = pure (.ofJson j) := by
  cases j <;> rfl

theorem whole_ofJson (d : Draft) {j : Json} {depth : Nat} (shallow : j.depth ≤ depth) :
    d.whole depth (.ofJson j) = pure (.ofJson j) := by
  induction depth generalizing j with
  | zero =>
    cases j with
    | scalar s => rfl
    | array items => cases shallow
    | object fields => cases shallow
  | succ depth ih =>
    unfold whole
    rw [target_ofJson, pure_bind]
    cases j with
    | scalar s => rfl
    | array items =>
      have below := Json.itemDepth_le.mp (Nat.le_of_succ_le_succ shallow)
      have same : (Node.ofJsonItems items).mapM (d.whole depth) =
          pure (Node.ofJsonItems items) := by
        rw [Node.ofJsonItems_eq_map]
        refine List.mapM_eq_pure (List.forall_mem_map.mpr fun item inside => ?_)
        exact ih (below item inside)
      rw [Node.ofJson]
      dsimp only
      rw [same, pure_bind]
    | object fields =>
      have below := Json.fieldDepth_le.mp (Nat.le_of_succ_le_succ shallow)
      rw [Node.ofJson]
      dsimp only
      rw [Node.ofJsonFields_eq_map]
      rw [List.mapM_eq_pure (List.forall_mem_map.mpr fun f inside => ?_), pure_bind]
      rw [ih (below f inside)]
      rfl

theorem leaf_ofScalar (d : Draft) (s : Scalar) :
    d.leaf (.leaf (.ofScalar s)) = pure (.ofScalar s) := rfl

theorem record_ofJson (d : Draft) {fields : List (String × (Nat → Node → Reader Node))}
    {depth : Nat} {fs : List (String × Json)}
    (each : ∀ f ∈ fs, ∀ select, fields.lookup f.1 = some select →
      select depth (.ofJson f.2) = pure (.ofJson f.2)) :
    d.record fields (depth + 1) (.ofJson (.object fs)) =
      pure (.ofJson (.object (fs.filter fun f => (fields.lookup f.1).isSome))) := by
  unfold record
  rw [target_ofJson, pure_bind, Node.ofJson, Node.ofJson]
  dsimp only
  refine Eq.trans (congrArg (· >>= _) (?_ : _ = pure (Node.ofJsonFields
    (fs.filter fun f => (fields.lookup f.1).isSome)))) (pure_bind _ _)
  induction fs with
  | nil => rfl
  | cons f rest ih =>
    have later := ih fun f inside => each f (List.mem_cons_of_mem _ inside)
    rw [Node.ofJsonFields, List.filterMapM_cons, later]
    rw [leaf_ofScalar, pure_bind]
    have text : (Leaf.ofScalar (.string f.1)).text? = some f.1 := rfl
    rw [text]
    dsimp only
    cases selected : fields.lookup f.1 with
    | none =>
      dsimp only
      rw [pure_bind, List.filter_cons_of_neg (by simp [selected])]
    | some select =>
      dsimp only
      rw [each f List.mem_cons_self select selected, pure_bind, pure_bind,
        List.filter_cons_of_pos (by simp [selected])]
      rfl

end Draft
end SchemaSplit
