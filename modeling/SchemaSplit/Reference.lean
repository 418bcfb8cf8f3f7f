import SchemaSplit.Schema.Basic
import Std.Data.HashSet

namespace SchemaSplit

/-- The definition that a reference names: what follows the root that local references share. -/
def referenceName? (root reference : String) : Option String :=
  if root.toList.isPrefixOf reference.toList ∧ root.length < reference.length then
    some (String.ofList (reference.toList.drop root.length))
  else none

/-- A schema as far as references go: that of each node, over those of its children. -/
inductive RefTree where
  | node (reference : Option String) (children : List RefTree)
  deriving Inhabited

namespace Schema

mutual

def refTree : Schema → RefTree
  | ⟨k, properties, items, additional, allOf, anyOf, oneOf⟩ =>
    .node k.ref (propertyTrees properties ++ itemTrees items ++ additionalTrees additional ++
      memberTrees allOf ++ memberTrees anyOf ++ memberTrees oneOf)
termination_by structural s => s

def propertyTrees : List (String × Schema) → List RefTree
  | [] => []
  | (_, s) :: rest => s.refTree :: propertyTrees rest
termination_by structural ps => ps

def itemTrees : Option Schema → List RefTree
  | none => []
  | some s => [s.refTree]
termination_by structural s => s

def additionalTrees : Option (Additional Schema) → List RefTree
  | some (.schema s) => [s.refTree]
  | some (.any _) => []
  | none => []
termination_by structural a => a

def memberTrees : List Schema → List RefTree
  | [] => []
  | s :: rest => s.refTree :: memberTrees rest
termination_by structural ss => ss

end

theorem propertyTrees_eq_map (ps : List (String × Schema)) :
    propertyTrees ps = ps.map fun p => p.2.refTree := by
  induction ps with
  | nil => rfl
  | cons p rest ih => simp [propertyTrees, ih]

theorem memberTrees_eq_map (ss : List Schema) : memberTrees ss = ss.map refTree := by
  induction ss with
  | nil => rfl
  | cons s rest ih => simp [memberTrees, ih]

theorem itemTrees_eq_map (s : Option Schema) : itemTrees s = s.toList.map refTree := by
  cases s <;> rfl

theorem additionalTrees_eq_map (a : Option (Additional Schema)) :
    additionalTrees a = (match a with | some (.schema s) => [s] | _ => []).map refTree := by
  rcases a with _ | (_ | _) <;> rfl

theorem refTree_eq (s : Schema) : s.refTree = .node s.ref (s.children.map refTree) := by
  rcases s with ⟨k, properties, items, additional, allOf, anyOf, oneOf⟩
  rcases additional with _ | (_ | values) <;>
    simp [refTree, children, valueSchema, propertyTrees_eq_map, memberTrees_eq_map,
      itemTrees_eq_map, additionalTrees_eq_map, Function.comp_def]

end Schema

/-- A node: the schema that it lies in, and the way down to it, the last step first. -/
structure NodeId where
  root : String
  path : List Nat
  deriving DecidableEq, Hashable, Repr, Inhabited

abbrev Visited := Std.HashSet NodeId

namespace RefTree

def reference : RefTree → Option String
  | node r _ => r

def children : RefTree → List RefTree
  | node _ cs => cs

mutual

/-- The names that occur at a node and below, in the order of the walk, with the nodes walked. -/
def collect (root : String) (id : NodeId) : RefTree → Visited → List String × Visited
  | node r cs, visited =>
    if visited.contains id then ([], visited)
    else
      let (below, visited) := collectAll root id 0 cs (visited.insert id)
      ((r.bind (referenceName? root)).toList ++ below, visited)
termination_by structural t => t

def collectAll (root : String) (parent : NodeId) (i : Nat) :
    List RefTree → Visited → List String × Visited
  | [], visited => ([], visited)
  | t :: rest, visited =>
    let (found, visited) := collect root ⟨parent.root, i :: parent.path⟩ t visited
    let (more, visited) := collectAll root parent (i + 1) rest visited
    (found ++ more, visited)
termination_by structural ts => ts

end

end RefTree

namespace Schema

def references (root name : String) (s : Schema) (visited : Visited) : List String × Visited :=
  s.refTree.collect root ⟨name, []⟩ visited

end Schema
end SchemaSplit
