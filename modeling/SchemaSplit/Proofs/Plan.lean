import SchemaSplit.Proofs.Effects
import SchemaSplit.Proofs.Partition
import SchemaSplit.Proofs.Traversal
import Mathlib

namespace SchemaSplit

open Definitions

namespace Group

theorem sum_members (key : String → String) (source : Definitions) :
    ((ofDefinitions key source).map (·.members.length)).sum = source.length := by
  let keys := source.map fun d => key d.1
  have counts : (ofDefinitions key source).map (·.members.length) =
      keys.eraseDups.map fun k => keys.count k := by
    rw [ofDefinitions, List.map_map]
    refine List.map_congr_left fun k _ => ?_
    rw [List.count_eq_countP, List.countP_map, List.countP_eq_length_filter]
    rfl
  -- Keys without repetitions may be counted in any order.
  have unique : keys.eraseDups.Nodup := by
    rw [← keys_ofDefinitions]
    exact (ofDefinitions_partition key source).keys
  have same : keys.eraseDups.Perm keys.dedup :=
    (List.perm_ext_iff_of_nodup unique (List.nodup_dedup _)).mpr fun k => by
      rw [List.mem_eraseDups, List.mem_dedup]
  rw [counts, (same.map _).sum_eq, List.sum_map_count_dedup_eq_length, List.length_map]

end Group

namespace GroupPlan

def path (p : GroupPlan) (outDir extension : String) : String :=
  joinPath outDir (p.fileName ++ "." ++ extension)

def Predicts (outDir extension : String) (p : GroupPlan) : GroupOutcome → Prop
  | .written artifact _ => artifact = ⟨p.key, p.path outDir extension, p.definitions⟩
  | .failed (.generation group _) => group = p.key
  | .failed (.write path _) => path = p.path outDir extension

end GroupPlan

section
variable {generator : Generator} {options : RunOptions} {d : Document}

theorem Document.predicts_outcomes {separator : Char} {outcomes : List GroupOutcome}
    (all : List.Forall₂ (fun g o => ∃ first, d.WritesGroup generator options.outDir g o first)
      (d.groups separator) outcomes) :
    List.Forall₂ (GroupPlan.Predicts options.outDir generator.extension) (d.plan separator)
      outcomes := by
  rw [Document.plan, List.forall₂_map_left_iff]
  refine all.imp ?_
  rintro g o ⟨_, _ | _ | _⟩ <;> rfl

theorem Document.WritesGroups.paths {groups : List Group} {outcomes : List GroupOutcome}
    {effects : List Effect} {failFast : Bool}
    (writes : d.WritesGroups generator options.outDir failFast groups outcomes effects) :
    (effects.filterMap Effect.writtenPath?).Sublist
      (groups.map fun g => artifactPath options.outDir (fileName g.key) generator.extension) := by
  have one : ∀ {g : Group} {o : GroupOutcome} {first : List Effect},
      d.WritesGroup generator options.outDir g o first → (first.filterMap Effect.writtenPath?).Sublist
        [artifactPath options.outDir (fileName g.key) generator.extension] := by
    rintro g o first (_ | _ | _)
    · exact .refl _
    · exact List.nil_sublist _
    · exact .refl _
  induction writes with
  | nil => exact .refl _
  | cons here _ _ ih =>
    rw [List.filterMap_append, List.map_cons]
    exact (one here).append ih
  | stop here _ =>
    rw [List.map_cons]
    exact (one here).trans (List.singleton_sublist.mpr List.mem_cons_self)

theorem Document.SplitsTo.paths {made : Except FileError Unit} {result : Except RunError Summary}
    {effects : List Effect} (splits : d.SplitsTo generator options made result effects) :
    (effects.filterMap Effect.writtenPath?).Sublist
      ((d.groups options.separator).map fun g =>
        artifactPath options.outDir (fileName g.key) generator.extension) := by
  cases splits with
  | nothing empty => exact List.nil_sublist _
  | noDirectory _ cause => exact List.nil_sublist _
  | groups _ writes => exact writes.paths

end

/-- A plan has the entries of a run that ends well, in order: each says what becomes of its group, and
    an artifact has the key, the path and the size of its entry. Under any policy, what is written
    goes to the paths of the plan in its order. Keys tell entries apart. All members are all
    definitions, and each group has a member and is part of its closure, which is part of the
    document. -/
theorem Document.plan_predicts {σ : Type} (machine : Machine (StateM σ)) (generator : Generator)
    (options : RunOptions) {d : Document} (distinct : (names d.definitions).Nodup) (s : σ) :
    let plan := d.plan options.separator
    (∀ summary, ((d.split machine generator options).run s).1 = .ok summary →
      (∃ outcomes, List.Forall₂ (GroupPlan.Predicts options.outDir generator.extension) plan outcomes ∧
        summary = .ofOutcomes outcomes) ∧
      ∀ a ∈ summary.written, ∃ p ∈ plan, a.group = p.key ∧
        a.path = joinPath options.outDir (p.fileName ++ "." ++ generator.extension) ∧
        a.definitions = p.definitions) ∧
    ((((d.split machine.traced generator options).run (s, [])).2.2).filterMap
        Effect.writtenPath?).Sublist (plan.map (·.path options.outDir generator.extension)) ∧
    plan.map (·.key) = (d.groups options.separator).map (·.key) ∧ (plan.map (·.key)).Nodup ∧
    (plan.map (·.members)).sum = d.definitions.length ∧
    ∀ p ∈ plan, 1 ≤ p.members ∧ p.members ≤ p.definitions ∧ p.definitions ≤ d.definitions.length := by
  intro plan
  obtain ⟨_, effects, _, ends, splits, -⟩ := split_ends machine.tells_nothing generator options d s
  refine ⟨fun summary ended => ?_, ?_, ?_, ?_, ?_, ?_⟩
  · rw [ends.run] at ended
    cases ended
    obtain ⟨outcomes, all, rfl⟩ := splits.ofOutcomes
    have predicted := predicts_outcomes all
    refine ⟨⟨outcomes, predicted, rfl⟩, fun a reported => ?_⟩
    obtain ⟨o, inside, written⟩ := List.mem_filterMap.mp reported
    obtain ⟨p, planned, foreseen⟩ := predicted.exists_left inside
    cases o with
    | written artifact text =>
      cases written
      cases foreseen
      exact ⟨p, planned, rfl, rfl, rfl⟩
    | failed e => cases written
  · simp only [ends.noted, plan, Document.plan, List.map_map]
    exact splits.paths
  · simp only [plan, Document.plan, List.map_map]
    rfl
  · simp only [plan, Document.plan, List.map_map]
    exact (Group.ofDefinitions_partition _ _).keys
  · simp only [plan, Document.plan, List.map_map]
    exact Group.sum_members _ _
  · refine List.forall_mem_map.mpr fun g isGroup => ⟨?_, ?_, ?_⟩
    · exact List.length_pos_iff.mpr (Group.mem_ofDefinitions.mp isGroup).2
    · exact (members_prefix_isolate isGroup distinct).length_le
    · exact (partOf_isolate isGroup distinct).length_le

/-- Two groups that refer to each other and share a file, and one that has no artifact. -/
theorem Document.plan_predicts_cycle :
    let d : Document := { definitions :=
      [("A:B.One", .reference "#/definitions/A/B.Two"), ("Gone.X", .ofType "object"),
        ("A/B.Two", .reference "#/definitions/A:B.One")] }
    let generator : Generator := {
      extension := "txt"
      generate := fun d fileName =>
        if d.key = "Gone" then .error (.unwritable d.key "no text") else .ok fileName }
    let split := (d.split accepting generator { outDir := "out" }).run ()
    (names d.definitions).Nodup ∧
      ∃ outcomes, List.Forall₂ (GroupPlan.Predicts "out" "txt") (d.plan '.') outcomes ∧
        split.1 = .ok (.ofOutcomes outcomes) := by
  intro d generator split
  have distinct : (names d.definitions).Nodup := by decide
  obtain ⟨result, _, _, ends, splits, -⟩ :=
    split_ends accepting.tells_nothing generator { outDir := "out" } d ()
  obtain ⟨summary, rfl⟩ := splits.exists_summary rfl
  have ended : split.1 = .ok summary := congrArg Prod.fst ends.run
  obtain ⟨⟨outcomes, all, rfl⟩, -⟩ :=
    (plan_predicts accepting generator { outDir := "out" } distinct ()).1 summary ended
  exact ⟨distinct, outcomes, all, ended⟩

end SchemaSplit
