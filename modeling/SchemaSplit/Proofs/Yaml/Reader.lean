import SchemaSplit.Yaml.Reader
import SchemaSplit.Proofs.Node
import Mathlib.Data.Option.Basic

namespace SchemaSplit.Yaml

theorem fits_of_readInt {text : List Char} {n : Int} (read : readInt text = .int n) :
    fitsEither 64 n := by
  unfold readInt at read
  split at read
  · cases read
  · split at read
    · rename_i fits
      cases read
      exact fits
    · split at read <;> cases read

theorem fits_of_spelled? {text : List Char} {n : Int} (read : spelled? text = some (.int n)) :
    fitsEither 64 n := by
  unfold spelled? at read
  dsimp only at read
  split at read
  · cases read
  · split at read
    · cases read
    · rename_i known
      cases read
      exact fits_of_readInt known
    · cases read
    · split at read <;> cases read

theorem fits_leaf (style : Style) (tag? : Option Tag) (text : List Char) :
    (leaf style tag? text).Fits := by
  intro n read
  change value? style tag? text = some (.int n) at read
  unfold value? at read
  dsimp only at read
  split at read
  · split at read
    · exact fits_of_spelled? read
    · cases read
  · split at read <;> cases read
  · obtain ⟨b, _, same⟩ := Option.map_eq_some_iff.mp read
    cases same
  · split at read
    · rename_i known
      cases read
      exact fits_of_readInt known
    · cases read
  · obtain ⟨d, _, same⟩ := Option.map_eq_some_iff.mp read
    cases same
  · cases read
  · cases read

def Progress.Fits (s : Progress) : Prop := ∀ a ∈ s.anchored, a.node.Fits

namespace Parser

section Steps

theorem keeps_peek : Keeps Progress.Fits peek fun _ => True :=
  Keeps.get.bind fun _ _ => Keeps.pure trivial

theorem keeps_skip : Keeps Progress.Fits skip fun _ => True := Keeps.modify fun _ fits => fits

theorem keeps_counted (n : Nat) : Keeps Progress.Fits (counted n) fun _ => True :=
  Keeps.modify fun _ fits => fits

theorem keeps_expect (t : Token) : Keeps Progress.Fits (expect t) fun _ => True := by
  refine keeps_peek.bind fun next _ => ?_
  split
  · exact keeps_skip
  · exact Keeps.failure

theorem keeps_empty : Keeps Progress.Fits empty Node.Fits :=
  (keeps_counted 1).bind fun _ _ => Keeps.pure (.leaf (fits_leaf _ _ _))

theorem keeps_anchor : Keeps Progress.Fits anchor fun _ => True := by
  refine keeps_peek.bind fun next _ => ?_
  split
  · exact keeps_skip.bind fun _ _ => Keeps.pure trivial
  · exact Keeps.pure trivial

theorem keeps_tag : Keeps Progress.Fits tag fun _ => True := by
  refine keeps_peek.bind fun next _ => ?_
  split
  · exact keeps_skip.bind fun _ _ => Keeps.pure trivial
  · refine keeps_skip.bind fun _ _ => Keeps.get.bind fun s _ => ?_
    split
    · exact Keeps.pure trivial
    · exact Keeps.failure
  · exact Keeps.pure trivial

theorem keeps_properties : Keeps Progress.Fits properties fun _ => True := by
  refine keeps_anchor.bind fun name _ => ?_
  split
  · exact keeps_tag.bind fun _ _ => Keeps.pure trivial
  · refine keeps_tag.bind fun octets _ => ?_
    split
    · exact keeps_anchor.bind fun _ _ => Keeps.pure trivial
    · exact Keeps.pure trivial

theorem keeps_assign (name : List Char) : Keeps Progress.Fits (assign name) fun _ => True :=
  Keeps.get.bind fun _ fits => Keeps.bind (Keeps.set fits) fun _ _ => Keeps.pure trivial

theorem keeps_anchoring (name? : Option (List Char)) {read : Parser Node}
    (known : Keeps Progress.Fits read Node.Fits) :
    Keeps Progress.Fits (anchoring name? read) Node.Fits := by
  unfold anchoring
  split
  · exact known
  · refine (keeps_assign _).bind fun number _ => Keeps.get.bind fun s _ => ?_
    refine known.bind fun n fits => ?_
    refine (Keeps.modify fun s before => ?_).bind fun _ _ => Keeps.pure fits
    exact List.forall_mem_cons.mpr ⟨fits, before⟩

/-- The value behind a key may be missing, and what comes next takes an empty node for it. -/
theorem keeps_valueAfter {α : Type} {P : α → Prop} {read : Parser Node} {next : Node → Parser α}
    (known : Keeps Progress.Fits read Node.Fits)
    (further : ∀ n, n.Fits → Keeps Progress.Fits (next n) P) :
    Keeps Progress.Fits (do
      if (← peek) = some .value then
        skip
        let n ← read
        next n
      else
        let n ← empty
        next n) P := by
  refine keeps_peek.bind fun token _ => ?_
  split
  · exact keeps_skip.bind fun _ _ => known.bind further
  · exact keeps_empty.bind further

theorem keeps_directives (versioned : Bool) (ts : List Token) :
    Keeps Progress.Fits (directives versioned ts) fun _ => True := by
  induction ts generalizing versioned with
  | nil => exact Keeps.pure trivial
  | cons t rest ih =>
    unfold directives
    split
    · rename_i same
      cases same
      refine (Keeps.guard _).bind fun _ _ => keeps_skip.bind fun _ _ => ih true
    · rename_i same
      cases same
      refine Keeps.get.bind fun s fits => (Keeps.guard _).bind fun _ _ => ?_
      exact Keeps.bind (Keeps.set fits) fun _ _ => keeps_skip.bind fun _ _ => ih versioned
    · exact Keeps.pure trivial

end Steps

structure KeepsAt (fuel : Nat) : Prop where
  node : ∀ block bare, Keeps Progress.Fits (node fuel block bare) Node.Fits
  nodeUnless : ∀ ends block bare, Keeps Progress.Fits (nodeUnless fuel ends block bare) Node.Fits
  blockItems : Keeps Progress.Fits (blockItems fuel) fun ns => ∀ n ∈ ns, n.Fits
  bareItems : Keeps Progress.Fits (bareItems fuel) fun ns => ∀ n ∈ ns, n.Fits
  blockEntries : Keeps Progress.Fits (blockEntries fuel) fun es => ∀ e ∈ es, e.2.Fits
  flowItems : ∀ first, Keeps Progress.Fits (flowItems fuel first) fun ns => ∀ n ∈ ns, n.Fits
  flowPair : Keeps Progress.Fits (flowPair fuel) fun e => e.2.Fits
  flowEntries : ∀ first, Keeps Progress.Fits (flowEntries fuel first) fun es => ∀ e ∈ es, e.2.Fits

theorem keepsAt_zero : KeepsAt 0 := by
  constructor <;> intros <;> exact Keeps.failure

section Step

variable {fuel : Nat} (below : KeepsAt fuel)
include below

theorem keeps_node (block bare : Bool) :
    Keeps Progress.Fits (node (fuel + 1) block bare) Node.Fits := by
  have bare_leaf (condition : Bool) (tag? : Option Tag) : Keeps Progress.Fits
      (if condition then do
        counted 1
        return .leaf (leaf .plain tag? [])
      else failure) Node.Fits := by
    split
    · exact (keeps_counted 1).bind fun _ _ => Keeps.pure (.leaf (fits_leaf _ _ _))
    · exact Keeps.failure
  unfold node
  refine keeps_peek.bind fun next _ => ?_
  extract_lets marked
  have known : Keeps Progress.Fits (marked ()) Node.Fits := by
    refine keeps_properties.bind fun found _ => keeps_anchoring _ ?_
    extract_lets tag? isSealed
    refine keeps_peek.bind fun next _ => ?_
    split
    · refine keeps_skip.bind fun _ _ => (keeps_counted 1).bind fun _ _ => ?_
      exact Keeps.pure (.leaf (fits_leaf _ _ _))
    · refine keeps_skip.bind fun _ _ => (keeps_counted 2).bind fun _ _ => ?_
      exact (below.flowItems true).bind fun _ fits => Keeps.pure (.list fits)
    · refine keeps_skip.bind fun _ _ => (keeps_counted 2).bind fun _ _ => ?_
      exact (below.flowEntries true).bind fun _ fits => Keeps.pure (.map fits)
    · refine keeps_skip.bind fun _ _ => (keeps_counted 2).bind fun _ _ => ?_
      exact below.blockItems.bind fun _ fits => Keeps.pure (.list fits)
    · refine keeps_skip.bind fun _ _ => (keeps_counted 2).bind fun _ _ => ?_
      exact below.blockEntries.bind fun _ fits => Keeps.pure (.map fits)
    · split
      · refine (keeps_counted 2).bind fun _ _ => ?_
        exact below.bareItems.bind fun _ fits => Keeps.pure (.list fits)
      · exact bare_leaf _ tag?
    · exact bare_leaf _ tag?
  split
  · refine keeps_skip.bind fun _ _ => (keeps_counted 1).bind fun _ _ => Keeps.get.bind fun s _ => ?_
    split
    · exact Keeps.pure .reuse
    · exact Keeps.bind (P := fun _ => True) Keeps.failure fun _ _ => known
  · exact known

theorem keeps_nodeUnless (ends : List Token) (block bare : Bool) :
    Keeps Progress.Fits (nodeUnless (fuel + 1) ends block bare) Node.Fits := by
  unfold nodeUnless
  refine keeps_peek.bind fun next _ => ?_
  split
  · split
    · exact keeps_empty
    · exact below.node block bare
  · exact below.node block bare

theorem keeps_blockItems :
    Keeps Progress.Fits (blockItems (fuel + 1)) fun ns => ∀ n ∈ ns, n.Fits := by
  unfold blockItems
  refine keeps_peek.bind fun next _ => ?_
  split
  · refine keeps_skip.bind fun _ _ => (below.nodeUnless _ true false).bind fun n here => ?_
    exact below.blockItems.bind fun ns there => Keeps.pure (List.forall_mem_cons.mpr ⟨here, there⟩)
  · exact keeps_skip.bind fun _ _ => Keeps.pure nofun
  · exact Keeps.failure

theorem keeps_bareItems :
    Keeps Progress.Fits (bareItems (fuel + 1)) fun ns => ∀ n ∈ ns, n.Fits := by
  unfold bareItems
  refine keeps_peek.bind fun next _ => ?_
  split
  · refine keeps_skip.bind fun _ _ => (below.nodeUnless _ true false).bind fun n here => ?_
    exact below.bareItems.bind fun ns there => Keeps.pure (List.forall_mem_cons.mpr ⟨here, there⟩)
  · exact Keeps.pure nofun

theorem keeps_blockEntries :
    Keeps Progress.Fits (blockEntries (fuel + 1)) fun es => ∀ e ∈ es, e.2.Fits := by
  unfold blockEntries
  refine keeps_peek.bind fun next _ => ?_
  split
  · refine keeps_skip.bind fun _ _ => (below.nodeUnless _ true true).bind fun k _ => ?_
    refine keeps_valueAfter (below.nodeUnless _ true true) fun n here => ?_
    exact below.blockEntries.bind fun es there =>
      Keeps.pure (List.forall_mem_cons.mpr ⟨here, there⟩)
  · exact keeps_skip.bind fun _ _ => Keeps.pure nofun
  · exact Keeps.failure

theorem keeps_flowPair : Keeps Progress.Fits (flowPair (fuel + 1)) fun e => e.2.Fits := by
  unfold flowPair
  refine keeps_peek.bind fun next _ => ?_
  extract_lets behindKey
  have known (k : Node) : Keeps Progress.Fits (behindKey k) fun e => e.2.Fits :=
    keeps_valueAfter (below.nodeUnless _ false false) fun n here => Keeps.pure here
  split
  · exact keeps_skip.bind fun _ _ => keeps_empty.bind fun k _ => known k
  · exact keeps_skip.bind fun _ _ => keeps_empty.bind fun k _ => known k
  · exact keeps_skip.bind fun _ _ => keeps_empty.bind fun k _ => known k
  · exact (below.node false false).bind fun k _ => known k

theorem keeps_flowItems (first : Bool) :
    Keeps Progress.Fits (flowItems (fuel + 1) first) fun ns => ∀ n ∈ ns, n.Fits := by
  unfold flowItems
  refine keeps_peek.bind fun next _ => ?_
  split
  · exact keeps_skip.bind fun _ _ => Keeps.pure nofun
  extract_lets item
  have known : Keeps Progress.Fits (item ()) fun ns => ∀ n ∈ ns, n.Fits := by
    refine keeps_peek.bind fun next _ => ?_
    split
    · exact keeps_skip.bind fun _ _ => Keeps.pure nofun
    · refine keeps_skip.bind fun _ _ => (keeps_counted 2).bind fun _ _ => ?_
      refine below.flowPair.bind fun e here => (below.flowItems false).bind fun ns there => ?_
      refine Keeps.pure (List.forall_mem_cons.mpr ⟨.map fun e' inside => ?_, there⟩)
      exact List.mem_singleton.mp inside ▸ here
    · refine (below.node false false).bind fun n here => ?_
      exact (below.flowItems false).bind fun ns there =>
        Keeps.pure (List.forall_mem_cons.mpr ⟨here, there⟩)
  split
  · exact (keeps_expect .comma).bind fun _ _ => known
  · exact known

theorem keeps_flowEntries (first : Bool) :
    Keeps Progress.Fits (flowEntries (fuel + 1) first) fun es => ∀ e ∈ es, e.2.Fits := by
  unfold flowEntries
  refine keeps_peek.bind fun next _ => ?_
  split
  · exact keeps_skip.bind fun _ _ => Keeps.pure nofun
  extract_lets entry
  have further (k n : Node) (here : n.Fits) : Keeps Progress.Fits (do
      return (k, n) :: (← flowEntries fuel false)) fun es => ∀ e ∈ es, e.2.Fits :=
    (below.flowEntries false).bind fun es there =>
      Keeps.pure (List.forall_mem_cons.mpr ⟨here, there⟩)
  have known : Keeps Progress.Fits (entry ()) fun es => ∀ e ∈ es, e.2.Fits := by
    refine keeps_peek.bind fun next _ => ?_
    split
    · exact keeps_skip.bind fun _ _ => Keeps.pure nofun
    · refine keeps_skip.bind fun _ _ => (below.nodeUnless _ false false).bind fun k _ => ?_
      exact keeps_valueAfter (below.nodeUnless _ false false) (further k)
    · exact (below.node false false).bind fun k _ => keeps_empty.bind fun n here => further k n here
  split
  · exact (keeps_expect .comma).bind fun _ _ => known
  · exact known

theorem keepsAt_succ : KeepsAt (fuel + 1) where
  node := keeps_node below
  nodeUnless := keeps_nodeUnless below
  blockItems := keeps_blockItems below
  bareItems := keeps_bareItems below
  blockEntries := keeps_blockEntries below
  flowItems := keeps_flowItems below
  flowPair := keeps_flowPair below
  flowEntries := keeps_flowEntries below

end Step

theorem keepsAt (fuel : Nat) : KeepsAt fuel := by
  induction fuel with
  | zero => exact keepsAt_zero
  | succ fuel ih => exact keepsAt_succ ih

theorem keeps_document : Keeps Progress.Fits document Node.Fits := by
  unfold document
  refine Keeps.get.bind fun s _ => ?_
  extract_lets tokens fuel
  refine (keeps_directives false tokens).bind fun _ _ => ?_
  refine Keeps.bind (Keeps.modify fun _ fits => fits) fun _ _ => ?_
  have known := (keepsAt fuel).node true false
  refine keeps_peek.bind fun next _ => ?_
  split
  · refine keeps_skip.bind fun _ _ => keeps_peek.bind fun next _ => ?_
    split
    · exact keeps_empty
    · exact keeps_empty
    · exact keeps_empty
    · exact keeps_empty
    · exact keeps_empty
    · exact known
  · refine Keeps.get.bind fun s _ => (Keeps.guard _).bind fun _ _ => ?_
    cases next with
    | none => exact Keeps.pure (.leaf (fits_leaf _ _ _))
    | some t => exact known

end Parser

theorem fits_of_draft? {text : List Char} {d : Draft} (read : draft? text = some d) : d.Fits := by
  obtain ⟨tokens, _, parsed⟩ := Option.bind_eq_some_iff.mp read
  obtain ⟨⟨root, last⟩, run, more⟩ := Option.bind_eq_some_iff.mp parsed
  obtain ⟨_, _, same⟩ := Option.bind_eq_some_iff.mp more
  cases same
  have start : Progress.Fits { tokens, handles := [] } := by
    intro a inside
    cases inside
  obtain ⟨fits, anchored⟩ := Parser.keeps_document _ start root last run
  refine ⟨fits, fun a inside => ?_⟩
  obtain ⟨found, member, rfl⟩ := List.mem_map.mp inside
  exact anchored found (List.mem_of_mem_filter member)

end SchemaSplit.Yaml
