import SchemaSplit.Proofs.Run

/-!
Effects: what a run asks of the files around it, in order. Any machine can take notes of the
directories it makes and of the files it writes, and the notes change nothing else. A split makes its
directory first, unless there is nothing to write, and then asks for one write for each group that
has an artifact.
-/

namespace SchemaSplit

inductive Effect where
  | makeDirs (directory : String) (result : Except FileError Unit)
  | write (path text : String) (result : Except FileError Unit)

def Effect.put? : Effect → Option (String × String)
  | write path text (.ok _) => some (path, text)
  | _ => none

def Effect.writtenPath? : Effect → Option String
  | write path _ _ => some path
  | makeDirs .. => none

section
variable {σ α β : Type}

def silently (x : StateM σ α) : StateM (σ × List Effect) α :=
  fun (s, noted) =>
    let (a, s') := x.run s
    (a, s', noted)

theorem silently_run {x : StateM σ α} {s s' : σ} {a : α} (ran : x.run s = (a, s'))
    (noted : List Effect) : (silently x).run (s, noted) = (a, s', noted) := by
  change ((x.run s).1, (x.run s).2, noted) = _
  rw [ran]

def noting (effect : α → Effect) (x : StateM σ α) : StateM (σ × List Effect) α :=
  fun (s, noted) =>
    let (a, s') := x.run s
    (a, s', noted ++ [effect a])

theorem noting_run {effect : α → Effect} {x : StateM σ α} {s s' : σ} {a : α} (ran : x.run s = (a, s'))
    (noted : List Effect) : (noting effect x).run (s, noted) = (a, s', noted ++ [effect a]) := by
  change ((x.run s).1, (x.run s).2, noted ++ [effect (x.run s).1]) = _
  rw [ran]

def Machine.traced (machine : Machine (StateM σ)) : Machine (StateM (σ × List Effect)) where
  read path := silently (machine.read path)
  makeDirs directory := noting (.makeDirs directory) (machine.makeDirs directory)
  write path text := noting (.write path text) (machine.write path text)
  fetch url timeout := silently (machine.fetch url timeout)
  log e := silently (machine.log e)

def accepting : Machine (StateM Unit) where
  read _ := return .error .notFound
  makeDirs _ := return .ok ()
  write _ _ := return .ok ()
  fetch _ _ := return .error "no network"
  log _ := return ()

/-- The second computation is the first one with notes. -/
def Notes (x : StateM σ α) (y : StateM (σ × List Effect) α) : Prop :=
  ∀ s noted, ∃ more, y.run (s, noted) = ((x.run s).1, (x.run s).2, noted ++ more)

namespace Notes

variable {x : StateM σ α} {y : StateM (σ × List Effect) α}

protected theorem pure (a : α) : Notes (pure a : StateM σ α) (pure a) :=
  fun _ _ => ⟨[], by rw [List.append_nil]; rfl⟩

protected theorem bind {f : α → StateM σ β} {g : α → StateM (σ × List Effect) β}
    (first : Notes x y) (next : ∀ a, Notes (f a) (g a)) : Notes (x >>= f) (y >>= g) := by
  intro s noted
  obtain ⟨more, ran⟩ := first s noted
  obtain ⟨rest, ran'⟩ := next (x.run s).1 (x.run s).2 (noted ++ more)
  refine ⟨more ++ rest, ?_⟩
  rw [run_bind_eq ran, ran', List.append_assoc]
  rfl

theorem silent (x : StateM σ α) : Notes x (silently x) :=
  fun _ _ => ⟨[], by rw [List.append_nil]; rfl⟩

theorem noted (effect : α → Effect) (x : StateM σ α) : Notes x (noting effect x) :=
  fun s _ => ⟨[effect (x.run s).1], rfl⟩

protected theorem forM {f : α → StateM σ Unit} {g : α → StateM (σ × List Effect) Unit}
    (each : ∀ a, Notes (f a) (g a)) (as : List α) : Notes (as.forM f) (as.forM g) := by
  induction as with
  | nil => exact .pure ()
  | cons a rest ih => exact (each a).bind fun _ => ih

end Notes

variable {machine : Machine (StateM σ)} {generator : Generator} {options : RunOptions} {d : Document}

/-! Taking notes changes nothing -/

theorem notes_log (machine : Machine (StateM σ)) (e : Event) :
    Notes (machine.log e) (machine.traced.log e) :=
  .silent (machine.log e)

theorem notes_write (machine : Machine (StateM σ)) (path text : String) (artifact : Artifact)
    (claimed : List (String × String)) (e : Event) :
    Notes (do
        match ← machine.write path text with
        | .error e => return (Except.error (RunError.write path e.message), claimed)
        | .ok () =>
          machine.log e
          return (.ok artifact, claimed))
      (do
        match ← machine.traced.write path text with
        | .error e => return (Except.error (RunError.write path e.message), claimed)
        | .ok () =>
          machine.traced.log e
          return (.ok artifact, claimed)) := by
  refine (Notes.noted (.write path text) (machine.write path text)).bind fun result => ?_
  cases result with
  | error e => exact .pure _
  | ok _ => exact (notes_log machine e).bind fun _ => .pure _

theorem notes_writeGroup (g : Group) (claimed : List (String × String)) :
    Notes (d.writeGroup machine generator options g claimed)
      (d.writeGroup machine.traced generator options g claimed) := by
  simp only [Document.writeGroup]
  refine (Notes.forM (notes_log machine) _).bind fun _ => ?_
  cases generator.generate (d.isolateWith g (d.closure g)) (fileName g.key) with
  | error e => exact .pure _
  | ok text =>
    let path := artifactPath options.outDir (fileName g.key) generator.extension
    refine (Notes.forM (notes_log machine) _).bind fun _ => ?_
    cases claimed.lookup path with
    | none => exact notes_write machine path text _ _ _
    | some previous => exact (notes_log machine _).bind fun _ => notes_write machine path text _ _ _

theorem notes_writeGroups (groups : List Group) (r : RunState) :
    Notes (d.writeGroups machine generator options groups r)
      (d.writeGroups machine.traced generator options groups r) := by
  induction groups generalizing r with
  | nil => exact .pure _
  | cons g rest ih =>
    unfold Document.writeGroups
    refine (notes_writeGroup g r.claimed).bind ?_
    rintro ⟨result, claimed⟩
    cases result with
    | ok artifact => exact ih _
    | error e =>
      refine (notes_log machine _).bind fun _ => ?_
      cases options.failFast with
      | true => exact .pure _
      | false => exact ih _

theorem notes_split (machine : Machine (StateM σ)) (generator : Generator) (options : RunOptions)
    (d : Document) :
    Notes (d.split machine generator options) (d.split machine.traced generator options) := by
  unfold Document.split
  refine (notes_log machine _).bind fun _ => ?_
  cases (d.groups options.separator).isEmpty with
  | true => exact .pure _
  | false =>
    simp only [Bool.false_eq_true, if_false]
    refine (Notes.noted (.makeDirs options.outDir) (machine.makeDirs options.outDir)).bind
      fun made => ?_
    cases made with
    | error e => exact .pure _
    | ok _ =>
      refine (notes_writeGroups _ _).bind fun result => ?_
      cases result with
      | error e => exact .pure _
      | ok summary => exact (notes_log machine _).bind fun _ => .pure _

/-! What is noted -/

inductive Document.WritesGroup (generator : Generator) (outDir : String) (d : Document) (g : Group) :
    GroupOutcome → List Effect → Prop
  | written {text : String}
    (made : generator.generate (d.isolate g) (fileName g.key) = .ok text) :
    WritesGroup generator outDir d g
      (.written ⟨g.key, artifactPath outDir (fileName g.key) generator.extension,
        (d.isolate g).definitions.length⟩ text)
      [.write (artifactPath outDir (fileName g.key) generator.extension) text (.ok ())]
  | notMade {e : GenerationError}
    (failed : generator.generate (d.isolate g) (fileName g.key) = .error e) :
    WritesGroup generator outDir d g (.failed (.generation g.key e)) []
  | notWritten {text : String}
    (made : generator.generate (d.isolate g) (fileName g.key) = .ok text) (cause : FileError) :
    WritesGroup generator outDir d g
      (.failed (.write (artifactPath outDir (fileName g.key) generator.extension) cause.message))
      [.write (artifactPath outDir (fileName g.key) generator.extension) text (.error cause)]

/-- What becomes of groups one after the other, with all effects. Where failures end the run, only
    the last outcome may be one. -/
inductive Document.WritesGroups (generator : Generator) (outDir : String) (failFast : Bool)
    (d : Document) : List Group → List GroupOutcome → List Effect → Prop
  | nil : WritesGroups generator outDir failFast d [] [] []
  | cons {g : Group} {rest : List Group} {o : GroupOutcome} {outcomes : List GroupOutcome}
    {first effects : List Effect} (here : d.WritesGroup generator outDir g o first)
    (goesOn : failFast = true → o.error? = none)
    (others : WritesGroups generator outDir failFast d rest outcomes effects) :
    WritesGroups generator outDir failFast d (g :: rest) (o :: outcomes) (first ++ effects)
  | stop {g : Group} {rest : List Group} {e : RunError} {effects : List Effect}
    (here : d.WritesGroup generator outDir g (.failed e) effects) (stops : failFast = true) :
    WritesGroups generator outDir failFast d (g :: rest) [.failed e] effects

theorem Document.WritesGroups.failFast {outDir : String} {groups : List Group}
    {outcomes : List GroupOutcome} {effects : List Effect}
    (writes : d.WritesGroups generator outDir false groups outcomes effects)
    (fine : ∀ o ∈ outcomes, o.error? = none) :
    d.WritesGroups generator outDir true groups outcomes effects := by
  induction writes with
  | nil => exact .nil
  | cons here _ _ ih =>
    rw [List.forall_mem_cons] at fine
    exact .cons here (fun _ => fine.1) (ih fine.2)
  | stop _ stops => cases stops

/-- What a run ends in: the first failure if failures end it, and otherwise a summary with all
    outcomes behind what it holds before. -/
def Summary.ending (failFast : Bool) (s : Summary) (outcomes : List GroupOutcome) :
    Except RunError Summary :=
  match failFast, outcomes.filterMap (·.error?) with
  | true, e :: _ => .error e
  | _, _ => .ok (s.extend outcomes)

theorem Summary.ending_fine {failFast : Bool} {s : Summary} {outcomes : List GroupOutcome}
    (fine : failFast = true → ∀ o ∈ outcomes, o.error? = none) :
    s.ending failFast outcomes = .ok (s.extend outcomes) := by
  cases failFast with
  | false => rfl
  | true =>
    unfold ending
    rw [List.filterMap_eq_nil_iff.mpr (fine rfl)]

theorem Summary.ending_first {s : Summary} {before : List GroupOutcome} (e : RunError)
    (fine : ∀ o ∈ before, o.error? = none) :
    s.ending true (before ++ [.failed e]) = .error e := by
  unfold ending
  rw [List.filterMap_append, List.filterMap_eq_nil_iff.mpr fine]
  rfl

/-- What effects tell of the states before and behind them. -/
structure Machine.Tells (machine : Machine (StateM σ)) (R : List Effect → σ → σ → Prop) : Prop where
  append {first rest : List Effect} {s s₁ s₂ : σ} (one : R first s s₁) (two : R rest s₁ s₂) :
    R (first ++ rest) s s₂
  nothing (s : σ) : R [] s s
  log (e : Event) (s : σ) : R [] s ((machine.log e).run s).2
  makeDirs {directory : String} {s s' : σ} {result : Except FileError Unit}
    (ran : (machine.makeDirs directory).run s = (result, s')) : R [.makeDirs directory result] s s'
  write {path text : String} {s s' : σ} {result : Except FileError Unit}
    (ran : (machine.write path text).run s = (result, s')) : R [.write path text result] s s'

theorem Machine.tells_nothing (machine : Machine (StateM σ)) : machine.Tells fun _ _ _ => True :=
  ⟨fun _ _ => trivial, fun _ => trivial, fun _ _ => trivial, fun _ => trivial, fun _ => trivial⟩

section
variable {R : List Effect → σ → σ → Prop} (tells : machine.Tells R)
include tells

theorem logAll_traced (events : List Event) (s : σ) (noted : List Effect) :
    ∃ s', (events.forM machine.traced.log).run (s, noted) = ((), s', noted) ∧ R [] s s' := by
  induction events generalizing s with
  | nil => exact ⟨s, rfl, tells.nothing s⟩
  | cons e rest ih =>
    obtain ⟨s', ran, told⟩ := ih ((machine.log e).run s).2
    exact ⟨s', ran, tells.append (tells.log e s) told⟩

theorem write_traced (outDir : String) {g : Group} {text : String}
    (made : generator.generate (d.isolate g) (fileName g.key) = .ok text)
    (claimed : List (String × String)) (e : Event) (s : σ) (noted : List Effect) :
    let path := artifactPath outDir (fileName g.key) generator.extension
    ∃ (outcome : GroupOutcome) (more : List Effect) (s' : σ), StateT.run (m := Id) (do
        match ← machine.traced.write path text with
        | .error e => return (.error (.write path e.message), claimed)
        | .ok () =>
          machine.traced.log e
          return (.ok ⟨g.key, path, (d.isolate g).definitions.length⟩, claimed)) (s, noted) =
            ((outcome.result, claimed), s', noted ++ more) ∧
      d.WritesGroup generator outDir g outcome more ∧ R more s s' := by
  intro path
  rcases wrote : (machine.write path text).run s with ⟨result, s₁⟩
  have ran : (machine.traced.write path text).run (s, noted) =
      (result, s₁, noted ++ [.write path text result]) := noting_run wrote noted
  rw [run_bind_eq ran]
  cases result with
  | error cause => exact ⟨_, _, s₁, rfl, .notWritten made cause, tells.write wrote⟩
  | ok _ =>
    exact ⟨_, _, ((machine.log e).run s₁).2, rfl, .written made,
      tells.append (tells.write wrote) (tells.log e s₁)⟩

theorem writeGroup_traced (generator : Generator) (options : RunOptions) (d : Document) (g : Group)
    (claimed : List (String × String)) (s : σ) (noted : List Effect) :
    ∃ (outcome : GroupOutcome) (claimed' : List (String × String)) (more : List Effect) (s' : σ),
      (d.writeGroup machine.traced generator options g claimed).run (s, noted) =
        ((outcome.result, claimed'), s', noted ++ more) ∧
      d.WritesGroup generator options.outDir g outcome more ∧ R more s s' := by
  obtain ⟨s₁, closureLogged, told₁⟩ := logAll_traced tells (Event.ofClosure g (d.closure g)) s noted
  have isolated : d.isolateWith g (d.closure g) = d.isolate g := rfl
  simp only [Document.writeGroup, isolated, run_bind_eq closureLogged]
  cases made : generator.generate (d.isolate g) (fileName g.key) with
  | error e =>
    refine ⟨.failed (.generation g.key e), claimed, [], s₁, ?_, .notMade made, told₁⟩
    rw [List.append_nil]
    rfl
  | ok text =>
    obtain ⟨s₂, eventsLogged, told₂⟩ := logAll_traced tells (generator.events (d.isolate g)) s₁ noted
    let path := artifactPath options.outDir (fileName g.key) generator.extension
    have written := write_traced tells options.outDir made ((path, g.key) :: claimed)
      (.generated g.key path (d.isolate g).definitions.length)
    have before := tells.append told₁ told₂
    simp only [run_bind_eq eventsLogged]
    cases claimed.lookup path with
    | none =>
      obtain ⟨outcome, more, s', ran, writes, told⟩ := written s₂ noted
      exact ⟨outcome, _, more, s', ran, writes, tells.append before told⟩
    | some previous =>
      let overwriting := Event.overwriting path previous g.key
      obtain ⟨outcome, more, s', ran, writes, told⟩ :=
        written ((machine.log overwriting).run s₂).2 noted
      exact ⟨outcome, _, more, s', ran, writes,
        tells.append before (tells.append (tells.log overwriting s₂) told)⟩

/-- Both policies over the same groups. The run that stops at a failure has the effects of the other
    run up to this failure. -/
theorem writeGroups_policies (generator : Generator) (options : RunOptions) (d : Document)
    (groups : List Group) (r : RunState) (s : σ) (noted : List Effect) :
    let keeping := d.writeGroups machine.traced generator { options with failFast := false } groups r
    let stopping := d.writeGroups machine.traced generator { options with failFast := true } groups r
    ∃ outcomes effects s',
      keeping.run (s, noted) = (.ok (r.summary.extend outcomes), s', noted ++ effects) ∧
      d.WritesGroups generator options.outDir false groups outcomes effects ∧ R effects s s' ∧
      ((∀ o ∈ outcomes, o.error? = none) →
        stopping.run (s, noted) = keeping.run (s, noted)) ∧
      ∀ before e after, outcomes = before ++ .failed e :: after → (∀ o ∈ before, o.error? = none) →
        ∃ first s'', stopping.run (s, noted) = (.error e, s'', noted ++ first) ∧ first <+: effects ∧
          d.WritesGroups generator options.outDir true groups (before ++ [.failed e]) first ∧
          R first s s'' := by
  induction groups generalizing r s noted with
  | nil =>
    refine ⟨[], [], s, ?_, .nil, tells.nothing s, fun _ => rfl, ?_⟩
    · simp only [Document.writeGroups, Summary.extend, List.filterMap_nil, List.append_nil]
      rfl
    · intro before e after split
      simp at split
  | cons g rest ih =>
    obtain ⟨outcome, claimed, more, s₁, run, writes, told⟩ :=
      writeGroup_traced tells generator options d g r.claimed s noted
    have runWith (failFast : Bool) : (d.writeGroup machine.traced generator
        { options with failFast } g r.claimed).run (s, noted) =
          ((outcome.result, claimed), s₁, noted ++ more) := run
    simp only [Document.writeGroups, run_bind_eq (runWith _)]
    cases outcome with
    | written artifact text =>
      obtain ⟨outcomes, effects, s', kept, others, later, same, stopped⟩ :=
        ih ⟨{ r.summary with written := r.summary.written ++ [artifact] }, claimed⟩ s₁ (noted ++ more)
      rw [Summary.extend_written _ _ text, List.append_assoc] at kept
      refine ⟨.written artifact text :: outcomes, more ++ effects, s', kept,
        .cons writes (fun _ => rfl) others, tells.append told later, fun fine => ?_, ?_⟩
      · exact same fun o member => fine o (List.mem_cons_of_mem _ member)
      · intro before e after split fine
        cases before with
        | nil => simp at split
        | cons o before =>
          obtain ⟨rfl, tail⟩ := List.cons.inj split
          rw [List.forall_mem_cons] at fine
          obtain ⟨first, s'', stop, part, upTo, there⟩ := stopped before e after tail fine.2
          rw [List.append_assoc] at stop
          exact ⟨more ++ first, s'', stop, (List.prefix_append_right_inj more).mpr part,
            .cons writes (fun _ => rfl) upTo, tells.append told there⟩
    | failed e =>
      obtain ⟨outcomes, effects, s', kept, others, later, -, -⟩ :=
        ih ⟨{ r.summary with failed := r.summary.failed ++ [e] }, claimed⟩
          ((machine.log (.groupFailed false g.key e)).run s₁).2 (noted ++ more)
      have logged := tells.log (.groupFailed false g.key e) s₁
      rw [Summary.extend_failed, List.append_assoc] at kept
      refine ⟨.failed e :: outcomes, more ++ effects, s', kept,
        .cons writes (absurd · Bool.false_ne_true) others,
        tells.append told (tells.append logged later), fun fine => ?_, ?_⟩
      · cases fine (.failed e) List.mem_cons_self
      · intro before e' after split fine
        cases before with
        | nil =>
          cases split
          have end' := tells.append told (tells.log (.groupFailed true g.key e) s₁)
          rw [List.append_nil] at end'
          exact ⟨more, _, rfl, List.prefix_append more effects, .stop writes rfl, end'⟩
        | cons o before =>
          cases split
          cases fine (.failed e) List.mem_cons_self

theorem writeGroups_traced (generator : Generator) (options : RunOptions) (d : Document)
    (groups : List Group) (r : RunState) (s : σ) (noted : List Effect) :
    ∃ outcomes effects s', (d.writeGroups machine.traced generator options groups r).run (s, noted) =
        (r.summary.ending options.failFast outcomes, s', noted ++ effects) ∧
      d.WritesGroups generator options.outDir options.failFast groups outcomes effects ∧
      R effects s s' := by
  obtain ⟨outDir, separator, failFast⟩ := options
  obtain ⟨outcomes, effects, s', kept, writes, told, same, stopped⟩ :=
    writeGroups_policies tells generator ⟨outDir, separator, failFast⟩ d groups r s noted
  cases failFast with
  | false => exact ⟨outcomes, effects, s', kept, writes, told⟩
  | true =>
    by_cases fine : ∀ o ∈ outcomes, o.error? = none
    · refine ⟨outcomes, effects, s', ?_, writes.failFast fine, told⟩
      rw [Summary.ending_fine fun _ => fine]
      exact (same fine).trans kept
    · rw [← Summary.ofOutcomes_failed_eq_nil] at fine
      obtain ⟨e, failures, failed⟩ := List.exists_cons_of_ne_nil fine
      obtain ⟨before, after, split, none⟩ :=
        Summary.ofOutcomes_first_failed (e := e) (by rw [failed]; rfl)
      rw [Summary.ofOutcomes_failed_eq_nil] at none
      obtain ⟨first, s'', stop, -, upTo, there⟩ := stopped before e after split none
      exact ⟨_, first, s'', Summary.ending_first e none ▸ stop, upTo, there⟩

end

def Document.directoryEffects (options : RunOptions) (d : Document) : List Effect :=
  if (d.groups options.separator).isEmpty then [] else [.makeDirs options.outDir (.ok ())]

inductive Document.SplitsTo (generator : Generator) (options : RunOptions) (d : Document) :
    Except FileError Unit → Except RunError Summary → List Effect → Prop
  | nothing (empty : d.groups options.separator = []) {made : Except FileError Unit} :
    SplitsTo generator options d made (.ok {}) []
  | noDirectory (nonempty : d.groups options.separator ≠ []) (cause : FileError) :
    SplitsTo generator options d (.error cause) (.error (.write options.outDir cause.message))
      [.makeDirs options.outDir (.error cause)]
  | groups (nonempty : d.groups options.separator ≠ []) {outcomes : List GroupOutcome}
    {effects : List Effect}
    (writes : d.WritesGroups generator options.outDir options.failFast
      (d.groups options.separator) outcomes effects) :
    SplitsTo generator options d (.ok ()) (Summary.ending options.failFast {} outcomes)
      (.makeDirs options.outDir (.ok ()) :: effects)

def Machine.madeFor (machine : Machine (StateM σ)) (options : RunOptions) (d : Document) (s : σ) :
    Except FileError Unit :=
  let logged := ((machine.log (.partitioned d.definitions.length
    (d.groups options.separator).length)).run s).2
  ((machine.makeDirs options.outDir).run logged).1

structure Document.Ends (machine : Machine (StateM σ)) (generator : Generator) (options : RunOptions)
    (d : Document) (s : σ) (result : Except RunError Summary) (effects : List Effect) (s' : σ) :
    Prop where
  run : (d.split machine generator options).run s = (result, s')
  noted : (d.split machine.traced generator options).run (s, []) = (result, s', effects)

namespace Document.Ends

variable {s s₁ s₂ s₃ s' : σ} {effects : List Effect}

theorem of_noted {result : Except RunError Summary}
    (noted : (d.split machine.traced generator options).run (s, []) = (result, s', effects)) :
    d.Ends machine generator options s result effects s' := by
  refine ⟨?_, noted⟩
  obtain ⟨more, same⟩ := notes_split machine generator options d s []
  rw [noted] at same
  obtain ⟨sameResult, rest⟩ := Prod.mk.inj same
  exact Prod.ext sameResult.symm (Prod.mk.inj rest).1.symm

variable (options) (logged : (machine.log (.partitioned d.definitions.length
  (d.groups options.separator).length)).run s = ((), s₁))
include logged

theorem nothing (empty : (d.groups options.separator).isEmpty) :
    d.Ends machine generator options s (.ok {}) [] s₁ :=
  .of_noted (split_run_nothing empty (silently_run logged []))

variable (some : ¬ (d.groups options.separator).isEmpty)
include some

theorem noDirectory {cause : FileError}
    (made : (machine.makeDirs options.outDir).run s₁ = (.error cause, s₂)) :
    d.Ends machine generator options s (.error (.write options.outDir cause.message))
      [.makeDirs options.outDir (.error cause)] s₂ :=
  .of_noted (split_run_directory some (silently_run logged []) (noting_run made []))

variable (made : (machine.makeDirs options.outDir).run s₁ = (.ok (), s₂))
include made

theorem groups_ok {summary : Summary}
    (ran : (d.writeGroups machine.traced generator options (d.groups options.separator) {}).run
      (s₂, [.makeDirs options.outDir (.ok ())]) = (.ok summary, s₃, effects))
    (finished : (machine.log (.finished summary.written.length summary.failed.length)).run s₃ =
      ((), s')) :
    d.Ends machine generator options s (.ok summary) effects s' :=
  .of_noted (split_run_ok some (silently_run logged []) (noting_run made []) ran
    (silently_run finished effects))

theorem groups_error {e : RunError}
    (ran : (d.writeGroups machine.traced generator options (d.groups options.separator) {}).run
      (s₂, [.makeDirs options.outDir (.ok ())]) = (.error e, s', effects)) :
    d.Ends machine generator options s (.error e) effects s' :=
  .of_noted (split_run_error some (silently_run logged []) (noting_run made []) ran)

end Document.Ends

theorem split_ends {R : List Effect → σ → σ → Prop} (tells : machine.Tells R) (generator : Generator)
    (options : RunOptions) (d : Document) (s : σ) :
    ∃ result effects s', d.Ends machine generator options s result effects s' ∧
      d.SplitsTo generator options (machine.madeFor options d s) result effects ∧
      R effects s s' := by
  let partitioned := Event.partitioned d.definitions.length (d.groups options.separator).length
  rcases logged : (machine.log partitioned).run s with ⟨⟨⟩, s₁⟩
  have told₁ := tells.log partitioned s
  rw [logged] at told₁
  by_cases empty : (d.groups options.separator).isEmpty
  · exact ⟨_, _, _, .nothing options logged empty, .nothing (List.isEmpty_iff.mp empty), told₁⟩
  have nonempty : d.groups options.separator ≠ [] := fun none => empty (List.isEmpty_iff.mpr none)
  rcases made : (machine.makeDirs options.outDir).run s₁ with ⟨result, s₂⟩
  have told₂ := tells.append told₁ (tells.makeDirs made)
  have here : machine.madeFor options d s = result := by
    rw [Machine.madeFor, logged]
    exact congrArg Prod.fst made
  rw [here]
  cases result with
  | error cause =>
    exact ⟨_, _, _, .noDirectory options logged empty made, .noDirectory nonempty cause, told₂⟩
  | ok _ =>
    obtain ⟨outcomes, effects, s₃, ended, writes, told₃⟩ :=
      writeGroups_traced tells generator options d (d.groups options.separator) {} s₂
        [.makeDirs options.outDir (.ok ())]
    have told := tells.append told₂ told₃
    have splits := Document.SplitsTo.groups nonempty writes
    cases final : Summary.ending options.failFast {} outcomes with
    | error e =>
      rw [final] at ended splits
      exact ⟨_, _, _, .groups_error options logged empty made ended, splits, told⟩
    | ok summary =>
      rw [final] at ended splits
      let finishing := Event.finished summary.written.length summary.failed.length
      rcases finished : (machine.log finishing).run s₃ with ⟨⟨⟩, s'⟩
      have told' := tells.append told (tells.log finishing s₃)
      rw [finished, List.append_nil] at told'
      exact ⟨_, _, s', .groups_ok options logged empty made ended finished, splits, told'⟩

end

/-! What follows from the effects -/

section
variable {generator : Generator} {options : RunOptions} {d : Document} {groups : List Group}
  {outcomes : List GroupOutcome} {effects : List Effect}

def Document.IsWriteOf (generator : Generator) (options : RunOptions) (d : Document)
    (result : Except FileError Unit) (g : Group) (e : Effect) : Prop :=
  ∃ text, generator.generate (d.isolate g) (fileName g.key) = .ok text ∧
    e = .write (artifactPath options.outDir (fileName g.key) generator.extension) text result

namespace Document.WritesGroup

variable {g : Group} {o : GroupOutcome} (writes : d.WritesGroup generator options.outDir g o effects)
include writes

theorem puts : effects.filterMap Effect.put? = [o].filterMap GroupOutcome.put? := by
  cases writes <;> rfl

theorem isWriteOf {e : Effect} (inside : e ∈ effects) :
    ∃ result, d.IsWriteOf generator options result g e := by
  cases writes with
  | written made => exact ⟨.ok (), _, made, List.mem_singleton.mp inside⟩
  | notMade failed => cases inside
  | notWritten made cause => exact ⟨.error cause, _, made, List.mem_singleton.mp inside⟩

end Document.WritesGroup

namespace Document.WritesGroups

variable {failFast : Bool}
  (writes : d.WritesGroups generator options.outDir failFast groups outcomes effects)
include writes

theorem puts : effects.filterMap Effect.put? = outcomes.filterMap GroupOutcome.put? := by
  induction writes with
  | nil => rfl
  | cons here _ _ ih => rw [List.filterMap_append, here.puts, ih, ← List.filterMap_append]; rfl
  | stop here _ => exact here.puts

theorem exists_group {e : Effect} (inside : e ∈ effects) :
    ∃ g ∈ groups, ∃ result, d.IsWriteOf generator options result g e := by
  induction writes with
  | nil => cases inside
  | cons here _ _ ih =>
    rcases List.mem_append.mp inside with first | later
    · exact ⟨_, List.mem_cons_self, here.isWriteOf first⟩
    · obtain ⟨g, isGroup, written⟩ := ih later
      exact ⟨g, List.mem_cons_of_mem _ isGroup, written⟩
  | stop here _ => exact ⟨_, List.mem_cons_self, here.isWriteOf inside⟩

theorem forall₂ (complete : failFast = true → ∀ o ∈ outcomes, o.error? = none) :
    List.Forall₂ (fun g o => ∃ first, d.WritesGroup generator options.outDir g o first)
      groups outcomes := by
  induction writes with
  | nil => exact .nil
  | cons here _ _ ih =>
    exact .cons ⟨_, here⟩
      (ih fun policy o inside => complete policy o (List.mem_cons_of_mem _ inside))
  | stop here stops => cases complete stops _ List.mem_cons_self

theorem length_le : outcomes.length ≤ groups.length := by
  induction writes with
  | nil => exact Nat.le_refl 0
  | cons _ _ _ ih => exact Nat.succ_le_succ ih
  | stop _ _ => exact Nat.succ_le_succ (Nat.zero_le _)

end Document.WritesGroups

theorem Summary.ending_eq_ok {failFast : Bool} {summary : Summary}
    (ended : ending failFast {} outcomes = .ok summary) :
    summary = ofOutcomes outcomes ∧ (failFast = true → ∀ o ∈ outcomes, o.error? = none) := by
  unfold ending at ended
  rw [extend_empty] at ended
  split at ended
  · cases ended
  · rename_i goesOn
    refine ⟨(Except.ok.inj ended).symm, ?_⟩
    rintro rfl
    rw [← List.filterMap_eq_nil_iff, List.eq_nil_iff_forall_not_mem]
    intro e inside
    obtain ⟨first, rest, failures⟩ := List.exists_cons_of_ne_nil (List.ne_nil_of_mem inside)
    exact goesOn first rest rfl failures

namespace Document.SplitsTo

variable {made : Except FileError Unit} {result : Except RunError Summary}
  (splits : d.SplitsTo generator options made result effects)
include splits

theorem effect_cases {e : Effect} (inside : e ∈ effects) :
    (∃ result, e = .makeDirs options.outDir result) ∨
      ∃ g ∈ d.groups options.separator, ∃ wrote, d.IsWriteOf generator options wrote g e := by
  cases splits with
  | nothing empty => cases inside
  | noDirectory _ cause => exact .inl ⟨_, List.mem_singleton.mp inside⟩
  | groups _ writes =>
    rcases List.mem_cons.mp inside with directory | written
    · exact .inl ⟨_, directory⟩
    · exact .inr (writes.exists_group written)

end Document.SplitsTo

theorem Document.SplitsTo.ofOutcomes {made : Except FileError Unit} {summary : Summary}
    (splits : d.SplitsTo generator options made (.ok summary) effects) :
    ∃ outcomes, List.Forall₂ (fun g o => ∃ first, d.WritesGroup generator options.outDir g o first)
      (d.groups options.separator) outcomes ∧ summary = .ofOutcomes outcomes := by
  -- The result is an index of the relation, which has to be a variable for the cases.
  generalize ended : (.ok summary : Except RunError Summary) = result at splits
  cases splits with
  | nothing empty =>
    cases ended
    exact ⟨[], empty ▸ .nil, rfl⟩
  | noDirectory _ cause => cases ended
  | groups _ writes =>
    obtain ⟨same, complete⟩ := Summary.ending_eq_ok ended.symm
    exact ⟨_, writes.forall₂ complete, same⟩

theorem Document.SplitsTo.exists_summary {result : Except RunError Summary}
    (splits : d.SplitsTo generator options (.ok ()) result effects)
    (keeps : options.failFast = false) : ∃ summary, result = .ok summary := by
  cases splits with
  | nothing empty => exact ⟨{}, rfl⟩
  | groups _ writes =>
    rw [keeps]
    exact ⟨_, rfl⟩

end
end SchemaSplit
