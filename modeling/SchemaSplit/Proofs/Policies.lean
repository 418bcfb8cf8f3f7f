import SchemaSplit.Proofs.Effects

namespace SchemaSplit

/-- Where a machine keeps its files: to which file a path leads, and what is in a file. A write
    changes one file, and a failed write changes none. -/
structure Storage {σ : Type} (machine : Machine (StateM σ)) where
  File : Type
  fileOf : String → File
  content : σ → File → Option ByteArray
  log : ∀ e s, content ((machine.log e).run s).2 = content s
  makeDirs : ∀ directory s, content ((machine.makeDirs directory).run s).2 = content s
  written : ∀ {path text s s'}, (machine.write path text).run s = (.ok (), s') →
    content s' (fileOf path) = some text.toUTF8
  others : ∀ {path text s s'}, (machine.write path text).run s = (.ok (), s') →
    ∀ file ≠ fileOf path, content s' file = content s file
  failed : ∀ {path text s s' e}, (machine.write path text).run s = (.error e, s') →
    content s' = content s

section
variable {σ : Type} {machine : Machine (StateM σ)} (storage : Storage machine)

/-- The files after texts were put on paths: each holds the last one put there, and all others are
    what they were. -/
structure Storage.FilesAfter (puts : List (String × String)) (s s' : σ) : Prop where
  last : ∀ before path text after, puts = before ++ (path, text) :: after →
    (∀ p ∈ after, storage.fileOf p.1 ≠ storage.fileOf path) →
    storage.content s' (storage.fileOf path) = some text.toUTF8
  untouched : ∀ file, (∀ p ∈ puts, storage.fileOf p.1 ≠ file) →
    storage.content s' file = storage.content s file

namespace Storage

variable {storage} {s s₁ s₂ : σ}

theorem FilesAfter.of_content_eq (same : storage.content s₁ = storage.content s) :
    storage.FilesAfter [] s s₁ where
  last before path text after split _ := by simp at split
  untouched file _ := congrFun same file

theorem FilesAfter.put {path text : String}
    (wrote : (machine.write path text).run s = (.ok (), s₁)) :
    storage.FilesAfter [(path, text)] s s₁ where
  last before path' text' after split _ := by
    rcases before with _ | ⟨p, before⟩
    · cases split
      exact storage.written wrote
    · simp at split
  untouched file outside :=
    storage.others wrote file (outside _ (List.mem_singleton_self _)).symm

theorem FilesAfter.append {first rest : List (String × String)}
    (one : storage.FilesAfter first s s₁) (two : storage.FilesAfter rest s₁ s₂) :
    storage.FilesAfter (first ++ rest) s s₂ where
  last before path text after split later := by
    rcases List.append_eq_append_iff.mp split with ⟨middle, whole, here⟩ | ⟨middle, whole, here⟩
    · exact two.last middle path text after here later
    · rcases middle with _ | ⟨p, middle⟩
      · exact two.last [] path text after here.symm later
      · cases here
        have unchanged := two.untouched (storage.fileOf path)
          fun p member => later p (List.mem_append_right _ member)
        rw [unchanged]
        exact one.last before path text middle whole
          fun p member => later p (List.mem_append_left _ member)
  untouched file outside := by
    rw [two.untouched file fun p member => outside p (List.mem_append_right _ member)]
    exact one.untouched file fun p member => outside p (List.mem_append_left _ member)

end Storage

theorem Storage.tells : machine.Tells fun effects s s' =>
    storage.FilesAfter (effects.filterMap Effect.put?) s s' where
  append one two := List.filterMap_append ▸ one.append two
  nothing s := .of_content_eq rfl
  log e s := .of_content_eq (storage.log e s)
  makeDirs {directory s _ _} ran := by
    have same := storage.makeDirs directory s
    rw [ran] at same
    exact .of_content_eq same
  write {_ _ _ _ result} ran := by
    cases result with
    | error cause => exact .of_content_eq (storage.failed ran)
    | ok _ => exact .put ran

/-- If the directory can be made, the run that keeps failures ends well, with one outcome for each
    group in order. Every group with an artifact is written once, and fails exactly if the machine
    does not take it. Each file holds the last text written to it. The run that stops is the same run
    if nothing fails. Otherwise its error is the first of the failures, and it has the effects up to
    this failure and the files of the groups before it. -/
theorem Storage.split_policies (generator : Generator) (options : RunOptions) (d : Document) (s : σ)
    (creatable : ((machine.makeDirs options.outDir).run ((machine.log
      (.partitioned d.definitions.length (d.groups options.separator).length)).run s).2).1 = .ok ()) :
    let keeping := { options with failFast := false }
    let stopping := { options with failFast := true }
    let groups := d.groups options.separator
    let directory := d.directoryEffects options
    ∃ (outcomes : List GroupOutcome) (writes : List Effect) (s' : σ),
      d.WritesGroups generator options.outDir false groups outcomes writes ∧
      d.Ends machine generator keeping s (.ok (.ofOutcomes outcomes)) (directory ++ writes) s' ∧
      storage.FilesAfter (outcomes.filterMap (·.put?)) s s' ∧
      ((Summary.ofOutcomes outcomes).failed = [] →
        d.Ends machine generator stopping s (.ok (.ofOutcomes outcomes)) (directory ++ writes) s') ∧
      ∀ e, (Summary.ofOutcomes outcomes).failed.head? = some e →
        ∃ before after first s'', outcomes = before ++ .failed e :: after ∧
          (Summary.ofOutcomes before).failed = [] ∧ first <+: writes ∧
          d.WritesGroups generator options.outDir true groups (before ++ [.failed e]) first ∧
          d.Ends machine generator stopping s (.error e) (directory ++ first) s'' ∧
          storage.FilesAfter (before.filterMap (·.put?)) s s'' := by
  intro keeping stopping groups directory
  rcases logged : (machine.log
    (.partitioned d.definitions.length (d.groups options.separator).length)).run s with ⟨⟨⟩, s₁⟩
  have started := storage.tells.log
    (.partitioned d.definitions.length (d.groups options.separator).length) s
  rw [logged] at creatable started
  rcases made : (machine.makeDirs options.outDir).run s₁ with ⟨result, s₂⟩
  rw [made] at creatable
  subst creatable
  by_cases empty : (d.groups options.separator).isEmpty
  · have nothing : directory = [] := if_pos empty
    have none : groups = [] := List.isEmpty_iff.mp empty
    rw [nothing, none]
    exact ⟨[], [], s₁, .nil, .nothing keeping logged empty, started,
      fun _ => .nothing stopping logged empty, nofun⟩
  obtain ⟨outcomes, writes, s', kept, all, wrote, same, stopped⟩ :=
    writeGroups_policies storage.tells generator options d groups {} s₂
      [.makeDirs options.outDir (.ok ())]
  have before := storage.tells.append started (storage.tells.makeDirs made)
  have one : directory = [.makeDirs options.outDir (.ok ())] := if_neg empty
  rw [Summary.extend_empty] at kept
  rcases finished : (machine.log (.finished (Summary.ofOutcomes outcomes).written.length
    (Summary.ofOutcomes outcomes).failed.length)).run s' with ⟨⟨⟩, s₃⟩
  have last := storage.tells.log (.finished (Summary.ofOutcomes outcomes).written.length
    (Summary.ofOutcomes outcomes).failed.length) s'
  rw [finished] at last
  rw [one]
  refine ⟨outcomes, writes, s₃, all, .groups_ok keeping logged empty made kept finished, ?_,
    fun fine => ?_, fun e first => ?_⟩
  · have files := storage.tells.append (storage.tells.append before wrote) last
    rw [List.append_nil] at files
    rw [← all.puts]
    exact files
  · have fine := Summary.ofOutcomes_failed_eq_nil.mp fine
    exact .groups_ok stopping logged empty made ((same fine).trans kept) finished
  · obtain ⟨done, after, split, fine⟩ := Summary.ofOutcomes_first_failed first
    obtain ⟨few, s'', stop, part, upTo, there⟩ :=
      stopped done e after split (Summary.ofOutcomes_failed_eq_nil.mp fine)
    have puts : few.filterMap Effect.put? = done.filterMap (·.put?) := by
      rw [upTo.puts, List.filterMap_append]
      exact List.append_nil _
    refine ⟨done, after, few, s'', split, fine, part, upTo,
      .groups_error stopping logged empty made stop, ?_⟩
    rw [← puts]
    exact storage.tells.append before there

end
end SchemaSplit
