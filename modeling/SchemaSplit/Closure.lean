import SchemaSplit.Document
import SchemaSplit.Reference

/-!
Closure under reference: the given definitions with all that they refer to, directly or through
others. Each round walks every definition found so far, and all rounds share the visited nodes.
-/

namespace SchemaSplit

structure Closure where
  /-- The given definitions, then the others as they were found. -/
  found : Definitions
  visited : Visited := ∅
  /-- The names that were met and that no definition has. -/
  dangling : List String := []

namespace Closure

def scan (root : String) (found : Definitions) (visited : Visited) : List String × Visited :=
  match found with
  | [] => ([], visited)
  | (name, s) :: rest =>
    let (names, visited) := s.references root name visited
    let (more, visited) := scan root rest visited
    (names ++ more, visited)

def add (source : Definitions) (c : Closure) (name : String) : Closure :=
  if c.found.any (·.1 == name) then c
  else
    match source.lookup name with
    | some s => { c with found := c.found ++ [(name, s)] }
    | none => { c with dangling := c.dangling ++ [name] }

def round (source : Definitions) (root : String) (c : Closure) : Closure :=
  let (names, visited) := scan root c.found c.visited
  names.foldl (add source) { c with visited }

def rounds (source : Definitions) (root : String) : Nat → Closure → Closure
  | 0, c => c
  | n + 1, c =>
    let next := c.round source root
    if next.found.length = c.found.length then next else rounds source root n next

/-- The closure of some definitions of a source. Every round but the last finds a definition, so
    there are no more rounds than definitions. -/
def ofMembers (source : Definitions) (root : String) (members : Definitions) : Closure :=
  rounds source root (max 1 source.length) { found := members }

end Closure
end SchemaSplit
