import SchemaSplit.Node.Basic

/-!
Drafts: a text as read, with its aliases unresolved and its limits unchecked. A reader takes from a
draft only what it asks for; what it passes over may be nested at any depth and may hold scalars
that could not be read.
-/

namespace SchemaSplit

structure Draft where
  root : Node
  /-- The anchored nodes by their numbers. -/
  anchors : List (Nat × Node) := []
  /-- How deep collections may be nested. -/
  depth : Nat
  /-- How often aliases may be followed. -/
  jumps : Nat := 0
  /-- Whether a record may be written as the list of its fields. -/
  positional : Bool

namespace Draft

/-- A reading that may fail, with the number of aliases it may still follow. -/
abbrev Reader := StateT Nat Option

def target (d : Draft) : Node → Reader Node
  | .reuse i => do
    match ← get, d.anchors.lookup i with
    | left + 1, some n => do
      set left
      return n
    | _, _ => failure
  | n => return n

def leaf (d : Draft) (n : Node) : Reader Leaf := do
  match ← d.target n with
  | .leaf l => return l
  | _ => failure

/-- The whole node, free of aliases and at most `depth` collections deep. -/
def whole (d : Draft) : (depth : Nat) → Node → Reader Node
  | 0, n => return .leaf (← d.leaf n)
  | depth + 1, n => do
    match ← d.target n with
    | .leaf l => return .leaf l
    | .list items isSealed => return .list (← items.mapM (d.whole depth)) isSealed
    | .map entries isSealed =>
      let entries ← entries.mapM fun (k, n) => return (.leaf (← d.leaf k), ← d.whole depth n)
      return .map entries isSealed
    | .reuse _ => failure

def record (d : Draft) (fields : List (String × (Nat → Node → Reader Node))) (depth : Nat)
    (n : Node) : Reader Node := do
  match ← d.target n, depth with
  | .leaf l, _ => return .leaf l
  | .map entries _, depth + 1 =>
    let kept ← entries.filterMapM fun (k, n) => do
      let key ← d.leaf k
      match key.text? with
      | none => failure
      | some name =>
        match fields.lookup name with
        | some select => return some (.leaf key, ← select depth n)
        | none => return none
    return .map kept false
  | .list items _, depth + 1 =>
    if d.positional ∧ items.length = fields.length then
      return .list (← (items.zip fields).mapM fun (n, _, select) => select depth n) false
    else failure
  | _, _ => failure

def take? (d : Draft) (select : Nat → Node → Reader Node) : Option Node :=
  (select d.depth d.root).run' d.jumps

end Draft

namespace Node

def record? (names : List String) : Node → Option (List (String × Node))
  | map entries _ => do
    let fields ← entries.mapM fun (k, n) => return (← k.key? false, n)
    let known := fields.filter (names.contains ·.1)
    if (known.map (·.1)).Nodup then some known else none
  | list items _ => if items.length = names.length then some (names.zip items) else none
  | leaf l => if l.isBlank then some [] else none
  | reuse _ => none

def field {α : Type} (fields : List (String × Node)) (name : String) (read : Node → Option α) :
    Option (Option α) :=
  match fields.lookup name with
  | some n => n.optional false read
  | none => some none

def textMap? {α : Type} (settled : Bool) (read : Node → Option α) :
    Node → Option (List (String × α))
  | map entries _ => do
    return lastWins (← entries.mapM fun (k, n) => return (← k.key? settled, ← read n))
  | leaf l => if (l.under settled).isBlank then some [] else none
  | _ => none

end Node
end SchemaSplit
