import SchemaSplit.Program
import SchemaSplit.Proofs.Document
import SchemaSplit.Proofs.Effects
import SchemaSplit.Proofs.FileTree
import SchemaSplit.Proofs.Path
import SchemaSplit.Proofs.Traversal

namespace SchemaSplit

open CommandLine (Command SourceArguments GenerateArguments)
open Definitions (names)

/-- The files that a machine reads. Reading and logging leave them as they are. -/
structure Disk {σ : Type} (machine : Machine (StateM σ)) where
  Files : Type
  files : σ → Files
  textAt : Files → String → Except FileError String
  read : ∀ path s, ∃ s', (machine.read path).run s = (textAt (files s) path, s') ∧ files s' = files s
  log : ∀ e s, files ((machine.log e).run s).2 = files s

section
variable {σ : Type} {machine : Machine (StateM σ)}

def Disk.traced (disk : Disk machine) : Disk machine.traced where
  Files := disk.Files × List Effect
  files := fun (s, noted) => (disk.files s, noted)
  textAt := fun (files, _) => disk.textAt files
  read path := fun (s, noted) => by
    obtain ⟨s', ran, same⟩ := disk.read path s
    refine ⟨(s', noted), ?_, congrArg (·, noted) same⟩
    change (((machine.read path).run s).1, ((machine.read path).run s).2, noted) = _
    rw [ran]
  log e := fun (s, noted) => congrArg (·, noted) (disk.log e s)

/-! Taking notes changes nothing -/

namespace Disk

variable (disk : Disk machine)

end Disk

/-! How it ends -/

def Program.ending (a : GenerateArguments) (format : ArtifactFormat) :
    Except RunError Summary → Outcome
  | .error e => .failure e.message
  | .ok summary => summary.outcome format a.source a.out

namespace Disk

variable (disk : Disk machine) {a : GenerateArguments}
  (isFile : Locator.parse a.source = .ok (.file a.source)) {s s' : σ} {outcome : Outcome}
  {effects : List Effect}
  (ran : (Program.generate machine.traced a).run (s, []) = (outcome, s', effects))
include isFile ran

end Disk

end

namespace Summary

variable (s : Summary) (format : ArtifactFormat) (source out : String)

end Summary

section
variable {generator : Generator} {options : RunOptions} {d : Document} {effects : List Effect}
  {made : Except FileError Unit} {result : Except RunError Summary}
  {a : GenerateArguments} {format : ArtifactFormat}

namespace Document.SplitsTo

variable (splits : d.SplitsTo generator options made result effects)
include splits

end Document.SplitsTo

end

end SchemaSplit
