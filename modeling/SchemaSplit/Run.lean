import SchemaSplit.Artifact
import SchemaSplit.Machine

namespace SchemaSplit

structure RunOptions where
  outDir : String
  separator : Char := defaultSeparator
  /-- Whether the first group that fails ends the run. -/
  failFast : Bool := false
  deriving DecidableEq, Repr, Inhabited

structure Artifact where
  group : String
  path : String
  definitions : Nat
  deriving DecidableEq, Repr, Inhabited

structure Summary where
  written : List Artifact := []
  failed : List RunError := []
  deriving DecidableEq, Repr, Inhabited

namespace Summary

def isSuccess (s : Summary) : Bool := s.failed.isEmpty

end Summary

def artifactPath (outDir fileName extension : String) : String :=
  joinPath outDir (fileName ++ "." ++ extension)

structure RunState where
  summary : Summary := {}
  claimed : List (String × String) := []

section
variable {m : Type → Type} [Monad m]

/-- Writes one group. Its path is claimed once there is something to write. -/
def Document.writeGroup (machine : Machine m) (generator : Generator) (options : RunOptions)
    (d : Document) (g : Group) (claimed : List (String × String)) :
    m (Except RunError Artifact × List (String × String)) := do
  let closure := d.closure g
  (Event.ofClosure g closure).forM machine.log
  let isolated := d.isolateWith g closure
  let name := fileName g.key
  match generator.generate isolated name with
  | .error e => return (.error (.generation g.key e), claimed)
  | .ok text =>
    (generator.events isolated).forM machine.log
    let path := artifactPath options.outDir name generator.extension
    if let some previous := claimed.lookup path then
      machine.log (.overwriting path previous g.key)
    let claimed := (path, g.key) :: claimed
    match ← machine.write path text with
    | .error e => return (.error (.write path e.message), claimed)
    | .ok () =>
      machine.log (.generated g.key path isolated.definitions.length)
      return (.ok ⟨g.key, path, isolated.definitions.length⟩, claimed)

def Document.writeGroups (machine : Machine m) (generator : Generator) (options : RunOptions)
    (d : Document) : List Group → RunState → m (Except RunError Summary)
  | [], s => return .ok s.summary
  | g :: rest, s => do
    let (result, claimed) ← d.writeGroup machine generator options g s.claimed
    match result with
    | .ok artifact =>
      let summary := { s.summary with written := s.summary.written ++ [artifact] }
      d.writeGroups machine generator options rest ⟨summary, claimed⟩
    | .error e =>
      machine.log (.groupFailed options.failFast g.key e)
      if options.failFast then return .error e
      else
        let summary := { s.summary with failed := s.summary.failed ++ [e] }
        d.writeGroups machine generator options rest ⟨summary, claimed⟩

/-- Splits a document into files. Without groups not even the directory is made. -/
def Document.split (machine : Machine m) (generator : Generator) (options : RunOptions)
    (d : Document) : m (Except RunError Summary) := do
  let groups := d.groups options.separator
  machine.log (.partitioned d.definitions.length groups.length)
  if groups.isEmpty then return .ok {}
  match ← machine.makeDirs options.outDir with
  | .error e => return .error (.write options.outDir e.message)
  | .ok () =>
    let result ← d.writeGroups machine generator options groups {}
    if let .ok s := result then
      machine.log (.finished s.written.length s.failed.length)
    return result

end
end SchemaSplit
