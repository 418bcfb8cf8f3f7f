import SchemaSplit.Run
import Mathlib.Data.List.Forall2

namespace SchemaSplit

inductive GroupOutcome where
  | written (artifact : Artifact) (text : String)
  | failed (e : RunError)

namespace GroupOutcome

def result : GroupOutcome → Except RunError Artifact
  | written artifact _ => .ok artifact
  | failed e => .error e

def artifact? : GroupOutcome → Option Artifact
  | written artifact _ => some artifact
  | failed _ => none

def error? : GroupOutcome → Option RunError
  | written .. => none
  | failed e => some e

def put? : GroupOutcome → Option (String × String)
  | written artifact text => some (artifact.path, text)
  | failed _ => none

end GroupOutcome

namespace Summary

def extend (s : Summary) (outcomes : List GroupOutcome) : Summary where
  written := s.written ++ outcomes.filterMap (·.artifact?)
  failed := s.failed ++ outcomes.filterMap (·.error?)

def ofOutcomes (outcomes : List GroupOutcome) : Summary where
  written := outcomes.filterMap (·.artifact?)
  failed := outcomes.filterMap (·.error?)

theorem extend_empty (outcomes : List GroupOutcome) : extend {} outcomes = ofOutcomes outcomes := by
  simp only [extend, ofOutcomes, List.nil_append]

theorem extend_written (s : Summary) (artifact : Artifact) (text : String)
    (outcomes : List GroupOutcome) :
    extend { s with written := s.written ++ [artifact] } outcomes =
      s.extend (.written artifact text :: outcomes) := by
  simp [extend, GroupOutcome.artifact?, GroupOutcome.error?]

theorem extend_failed (s : Summary) (e : RunError) (outcomes : List GroupOutcome) :
    extend { s with failed := s.failed ++ [e] } outcomes = s.extend (.failed e :: outcomes) := by
  simp [extend, GroupOutcome.artifact?, GroupOutcome.error?]

theorem ofOutcomes_failed_eq_nil {outcomes : List GroupOutcome} :
    (ofOutcomes outcomes).failed = [] ↔ ∀ o ∈ outcomes, o.error? = none :=
  List.filterMap_eq_nil_iff

theorem ofOutcomes_first_failed {outcomes : List GroupOutcome} {e : RunError}
    (first : (ofOutcomes outcomes).failed.head? = some e) :
    ∃ before after, outcomes = before ++ .failed e :: after ∧ (ofOutcomes before).failed = [] := by
  induction outcomes with
  | nil => cases first
  | cons o rest ih =>
    cases o with
    | written artifact text =>
      obtain ⟨before, after, split, none⟩ := ih first
      exact ⟨.written artifact text :: before, after, by rw [split]; rfl, none⟩
    | failed e' =>
      cases first
      exact ⟨[], rest, rfl, rfl⟩

end Summary

section
variable {σ : Type} {machine : Machine (StateM σ)}

theorem run_bind_eq {α β : Type} {x : StateM σ α} {f : α → StateM σ β} {s s₁ : σ} {a : α}
    (h : x.run s = (a, s₁)) : (x >>= f).run s = (f a).run s₁ := by
  rw [StateT.run_bind, h]
  rfl

section
variable {generator : Generator} {options : RunOptions} {d : Document} {s s₁ s₂ s' : σ}

theorem split_run_nothing (empty : (d.groups options.separator).isEmpty)
    (logged : (machine.log (.partitioned d.definitions.length
      (d.groups options.separator).length)).run s = ((), s₁)) :
    (d.split machine generator options).run s = (.ok {}, s₁) := by
  simp only [Document.split, run_bind_eq logged]
  rw [if_pos empty]
  rfl

variable (some : ¬ (d.groups options.separator).isEmpty)
  (logged : (machine.log (.partitioned d.definitions.length
    (d.groups options.separator).length)).run s = ((), s₁))
include some logged

theorem split_run_directory {cause : FileError}
    (made : (machine.makeDirs options.outDir).run s₁ = (.error cause, s₂)) :
    (d.split machine generator options).run s =
      (.error (.write options.outDir cause.message), s₂) := by
  simp only [Document.split, run_bind_eq logged]
  rw [if_neg some, run_bind_eq made]
  rfl

variable (made : (machine.makeDirs options.outDir).run s₁ = (.ok (), s₂))
include made

theorem split_run_ok {summary : Summary} {s₃ : σ}
    (ran : (d.writeGroups machine generator options (d.groups options.separator) {}).run s₂ =
      (.ok summary, s₃))
    (finished : (machine.log (.finished summary.written.length summary.failed.length)).run s₃ =
      ((), s')) :
    (d.split machine generator options).run s = (.ok summary, s') := by
  simp only [Document.split, run_bind_eq logged]
  rw [if_neg some, run_bind_eq made]
  simp only [run_bind_eq ran, run_bind_eq finished]
  rfl

theorem split_run_error {e : RunError}
    (ran : (d.writeGroups machine generator options (d.groups options.separator) {}).run s₂ =
      (.error e, s')) :
    (d.split machine generator options).run s = (.error e, s') := by
  simp only [Document.split, run_bind_eq logged]
  rw [if_neg some, run_bind_eq made]
  simp only [run_bind_eq ran]
  rfl

end

end
end SchemaSplit
