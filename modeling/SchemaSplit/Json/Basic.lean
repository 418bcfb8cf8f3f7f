import SchemaSplit.Double.Basic

namespace SchemaSplit

inductive Scalar where
  | null
  | bool (value : Bool)
  | int (value : Int)
  | double (value : Double)
  | string (value : String)
  deriving DecidableEq, Repr, Inhabited

inductive Json where
  | scalar (value : Scalar)
  | array (items : List Json)
  | object (fields : List (String × Json))
  deriving Inhabited

/-- Entries in order of their names' first occurrence, with the value of the last. -/
def lastWins {α : Type} (entries : List (String × α)) : List (String × α) :=
  entries.foldl
    (fun kept (name, value) =>
      if kept.any (·.1 == name) then kept.map fun e => if e.1 == name then (name, value) else e
      else kept ++ [(name, value)])
    []

def Scalar.settled : Scalar → Scalar
  | .double d => if d.isFinite then .double d else .null
  | s => s

mutual

def Json.settled : Json → Json
  | .scalar s => .scalar s.settled
  | .array items => .array (settledItems items)
  | .object fields => .object (lastWins (settledFields fields))
termination_by structural j => j

def settledItems : List Json → List Json
  | [] => []
  | j :: rest => j.settled :: settledItems rest
termination_by structural js => js

def settledFields : List (String × Json) → List (String × Json)
  | [] => []
  | (name, j) :: rest => (name, j.settled) :: settledFields rest
termination_by structural fs => fs

end

theorem settledItems_eq_map (js : List Json) : settledItems js = js.map Json.settled := by
  induction js with
  | nil => rfl
  | cons j rest ih => simp [settledItems, ih]

theorem settledFields_eq_map (fs : List (String × Json)) :
    settledFields fs = fs.map fun f => (f.1, f.2.settled) := by
  induction fs with
  | nil => rfl
  | cons f rest ih => simp [settledFields, ih]

end SchemaSplit
