import SchemaSplit.Json.Writer

/-!
Nodes: the tree that every source format is read into. A leaf keeps each reading its scalar admits,
so that what a plain `1.10` is depends on who asks: a title reads it as text, an enumeration as a
number.
-/

namespace SchemaSplit

/-- What a scalar may be read as; `none` where that reading is an error. -/
structure Leaf where
  /-- As a text. -/
  text? : Option String
  /-- As a version, for which a number may stand. -/
  version? : Option String
  /-- As a truth value. -/
  flag? : Option Bool
  /-- Whether an optional value is there. -/
  present? : Option Bool
  /-- Whether it stands for an empty collection. -/
  isBlank : Bool
  /-- Where any value may stand. -/
  value? : Option Scalar
  deriving Repr, Inhabited

namespace Leaf

def ofScalar (s : Scalar) : Leaf where
  text? := match s with | .string t => some t | _ => none
  version? := match s with
    | .string t => some t
    | .int _ | .double _ => some s.text
    | _ => none
  flag? := match s with | .bool b => some b | _ => none
  present? := some (s != .null)
  isBlank := false
  value? := some s

def unreadable : Leaf where
  text? := none
  version? := none
  flag? := none
  present? := none
  isBlank := false
  value? := none

/-- The leaf with its open reading settled: all later readings are those of that value. -/
def settle (l : Leaf) : Leaf :=
  match l.value? with
  | some s => ofScalar s
  | none => unreadable

def under (settled : Bool) (l : Leaf) : Leaf := if settled then l.settle else l

@[simp] theorem settle_ofScalar (s : Scalar) : (ofScalar s).settle = ofScalar s := rfl

@[simp] theorem under_ofScalar (settled : Bool) (s : Scalar) :
    (ofScalar s).under settled = ofScalar s := by
  cases settled <;> rfl

end Leaf

/-- An alias names an anchored node by its number. A sealed collection can be read as a value of
known type only. -/
inductive Node where
  | leaf (value : Leaf)
  | list (items : List Node) (isSealed : Bool)
  | map (entries : List (Node × Node)) (isSealed : Bool)
  | reuse (anchor : Nat)
  deriving Inhabited

namespace Node

def key? (settled : Bool) : Node → Option String
  | leaf l => (l.under settled).text?
  | _ => none

mutual

def json? : Node → Option Json
  | leaf l => l.value?.map .scalar
  | list items isSealed => if isSealed then none else (jsonItems? items).map .array
  | map entries isSealed => if isSealed then none else (jsonEntries? entries).map .object
  | reuse _ => none
termination_by structural n => n

def jsonItems? : List Node → Option (List Json)
  | [] => some []
  | n :: rest => do return (← n.json?) :: (← jsonItems? rest)
termination_by structural ns => ns

def jsonEntries? : List (Node × Node) → Option (List (String × Json))
  | [] => some []
  | (k, n) :: rest => do return (← k.key? true, ← n.json?) :: (← jsonEntries? rest)
termination_by structural es => es

end

mutual

def ofJson : Json → Node
  | .scalar s => leaf (.ofScalar s)
  | .array items => list (ofJsonItems items) false
  | .object fields => map (ofJsonFields fields) false
termination_by structural j => j

def ofJsonItems : List Json → List Node
  | [] => []
  | j :: rest => ofJson j :: ofJsonItems rest
termination_by structural js => js

def ofJsonFields : List (String × Json) → List (Node × Node)
  | [] => []
  | (name, j) :: rest => (leaf (.ofScalar (.string name)), ofJson j) :: ofJsonFields rest
termination_by structural fs => fs

end

mutual

theorem json?_ofJson : ∀ j : Json, (ofJson j).json? = some j
  | .scalar _ => rfl
  | .array items => by simp [ofJson, json?, jsonItems?_ofJsonItems items]
  | .object fields => by simp [ofJson, json?, jsonEntries?_ofJsonFields fields]

theorem jsonItems?_ofJsonItems : ∀ js : List Json, jsonItems? (ofJsonItems js) = some js
  | [] => rfl
  | j :: rest => by simp [ofJsonItems, jsonItems?, json?_ofJson j, jsonItems?_ofJsonItems rest]

theorem jsonEntries?_ofJsonFields :
    ∀ fs : List (String × Json), jsonEntries? (ofJsonFields fs) = some fs
  | [] => rfl
  | (name, j) :: rest => by
    simp only [ofJsonFields, jsonEntries?, json?_ofJson j, jsonEntries?_ofJsonFields rest, key?,
      Leaf.under_ofScalar]
    rfl

end

def optional {α : Type} (settled : Bool) (read : Node → Option α) : Node → Option (Option α)
  | leaf l =>
    match (l.under settled).present? with
    | some true => (read (leaf l)).map some
    | some false => some none
    | none => none
  | n => (read n).map some

def text? (settled : Bool) : Node → Option String
  | leaf l => (l.under settled).text?
  | _ => none

def version? : Node → Option String
  | leaf l => l.version?
  | _ => none

def flag? (settled : Bool) : Node → Option Bool
  | leaf l => (l.under settled).flag?
  | _ => none

def texts? (settled : Bool) : Node → Option (List String)
  | list items _ => items.mapM (text? settled)
  | leaf l => if (l.under settled).isBlank then some [] else none
  | _ => none

end Node
end SchemaSplit
