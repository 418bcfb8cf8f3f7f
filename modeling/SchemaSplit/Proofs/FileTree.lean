import SchemaSplit.FileTree
import SchemaSplit.Proofs.Policies
import Mathlib

namespace SchemaSplit
namespace FileTree

def content (t : FileTree) (place : Place) : Option ByteArray :=
  match t.entry? place with
  | some (.file bytes) => some bytes
  | _ => none

def step (place : Place) (name : String) : Place :=
  if name = "." then place
  else if name = ".." then parent place
  else place ++ [name]

def placeOf (path : String) : Place :=
  match pathNames path with
  | [] => []
  | "/" :: rest => rest.foldl step ["/"]
  | names => names.foldl step []

variable {t t' : FileTree} {place other : Place}

theorem enter_eq_step {name : String} (h : t.enter place name = .ok other) :
    other = step place name := by
  unfold enter at h
  unfold step
  cases found : t.entry? place with
  | none => simp only [found] at h; cases h
  | some e =>
    cases e with
    | file bytes => simp only [found] at h; cases h
    | directory =>
      simp only [found] at h
      split at h
      · rename_i dot
        rw [if_pos dot]
        exact (Except.ok.inj h).symm
      · rename_i dot
        rw [if_neg dot]
        split at h
        · rename_i up
          rw [if_pos up]
          exact (Except.ok.inj h).symm
        · rename_i up
          rw [if_neg up]
          split at h
          · cases h
          · exact (Except.ok.inj h).symm

theorem enter_all_eq_steps {names : List String} (h : names.foldlM t.enter place = .ok other) :
    other = names.foldl step place := by
  induction names generalizing place with
  | nil => exact (Except.ok.inj h).symm
  | cons name rest ih =>
    rw [List.foldlM_cons] at h
    cases entered : t.enter place name with
    | error e => rw [entered] at h; cases h
    | ok next =>
      rw [entered] at h
      rw [List.foldl_cons, ← enter_eq_step entered]
      exact ih h

theorem placeOf_root {path : String} {rest : List String} (names : pathNames path = "/" :: rest) :
    placeOf path = rest.foldl step ["/"] := by
  unfold placeOf
  rw [names]
  rfl

theorem placeOf_relative {path : String} (nonempty : pathNames path ≠ [])
    (notRoot : ∀ rest, pathNames path ≠ "/" :: rest) :
    placeOf path = (pathNames path).foldl step [] := by
  unfold placeOf
  split
  · rename_i empty
    exact absurd empty nonempty
  · rename_i rest root
    exact absurd root (notRoot rest)
  · rfl

theorem locate_eq_placeOf {path : String} (h : t.locate (pathNames path) = .ok place) :
    place = placeOf path := by
  unfold locate at h
  split at h
  · cases h
  · rename_i rest names
    rw [placeOf_root names]
    exact enter_all_eq_steps h
  · rename_i nonempty notRoot
    rw [placeOf_relative nonempty notRoot]
    exact enter_all_eq_steps h

def IsFixed (place : Place) : Prop := (place.all (· == "..") = true) ∨ place = ["/"]

instance : Decidable (IsFixed place) := inferInstanceAs (Decidable (_ ∨ _))

theorem entryAt_eq (t : FileTree) (place : Place) :
    t.entry? place = if IsFixed place then some .directory else t.entries.lookup place := rfl

theorem entryAt_put (h : ¬ IsFixed place) (e : FileEntry) : entry? (t.put place e) place = some e := by
  have none : (t.entries.filter (·.1 ≠ place)).lookup place = none := by
    rw [List.lookup_eq_none_iff]
    intro p member
    have apart : p.1 ≠ place := by simpa using (List.mem_filter.mp member).2
    exact bne_iff_ne.mpr apart.symm
  rw [entryAt_eq, if_neg h, put, List.lookup_append, none]
  simp

theorem entryAt_put_other (h : other ≠ place) (e : FileEntry) :
    entry? (t.put place e) other = t.entry? other := by
  have kept : ∀ entries : List (Place × FileEntry),
      (entries.filter (·.1 ≠ place)).lookup other = entries.lookup other := by
    intro entries
    induction entries with
    | nil => rfl
    | cons p rest ih =>
      obtain ⟨key, entry⟩ := p
      by_cases same : key = place
      · have apart : (other == key) = false := by rw [same]; exact beq_eq_false_iff_ne.mpr h
        rw [List.filter_cons_of_neg (by simpa using same), ih, List.lookup_cons, apart]
      · rw [List.filter_cons_of_pos (by simpa using same), List.lookup_cons, List.lookup_cons, ih]
  rw [entryAt_eq, entryAt_eq, put, List.lookup_append, kept]
  simp [List.lookup_cons, beq_eq_false_iff_ne.mpr h]

/-- A write puts the text at the place of its path, where no directory was. -/
theorem write_eq_put {path text : String} (h : t.write path text = .ok t') :
    ¬ IsFixed (placeOf path) ∧ t' = t.put (placeOf path) (.file text.toUTF8) := by
  unfold write at h
  cases found : t.locate (pathNames path) with
  | error e => rw [found] at h; cases h
  | ok place =>
    rw [found] at h
    rw [← locate_eq_placeOf found]
    change (if t.isDirectory place then _ else _) = _ at h
    split at h
    · cases h
    · rename_i noDirectory
      refine ⟨fun fixed => noDirectory ?_, (Except.ok.inj h).symm⟩
      simp only [isDirectory, entryAt_eq, if_pos fixed]

theorem content_makeDir {names : List String} (h : t.makeDir names = .ok t') :
    t'.content = t.content := by
  unfold makeDir at h
  cases found : t.locate names with
  | error e => rw [found] at h; cases h
  | ok place =>
    rw [found] at h
    dsimp only [Bind.bind, Except.bind] at h
    cases entry : t.entry? place with
    | some e => rw [entry] at h; cases h
    | none =>
      rw [entry] at h
      cases h
      have free : ¬ IsFixed place := by
        intro fixed
        rw [entryAt_eq, if_pos fixed] at entry
        cases entry
      funext other
      by_cases same : other = place
      · rw [same, content, content, entryAt_put free, entry]
      · rw [content, content, entryAt_put_other same]

theorem makeAll_keeps {σ : Type} (Keeps : σ → Prop)
    {isDirectory : List String → StateM σ Bool}
    {makeDir : List String → StateM σ (Except FileError Unit)}
    (looks : ∀ names s, Keeps s → Keeps ((isDirectory names).run s).2)
    (makes : ∀ names s, Keeps s → Keeps ((makeDir names).run s).2) (reversed : List String) (s : σ)
    (start : Keeps s) : Keeps ((makeAll isDirectory makeDir reversed).run s).2 := by
  have unlessThere : ∀ names e s, Keeps s → Keeps (StateT.run (m := Id) (do
      return if ← isDirectory names then .ok () else (.error e : Except FileError Unit)) s).2 :=
    fun names e s kept => looks names s kept
  induction reversed generalizing s with
  | nil => exact start
  | cons name around ih =>
    rw [makeAll]
    rcases made : (makeDir (name :: around).reverse).run s with ⟨result, s₁⟩
    have kept₁ : Keeps s₁ := by
      have := makes (name :: around).reverse s start
      rwa [made] at this
    rw [run_bind_eq made]
    cases result with
    | ok _ => exact kept₁
    | error e =>
      cases e with
      | notFound =>
        rcases before : (makeAll isDirectory makeDir around).run s₁ with ⟨result, s₂⟩
        have kept₂ : Keeps s₂ := by
          have := ih s₁ kept₁
          rwa [before] at this
        simp only [run_bind_eq before]
        cases result with
        | error e => exact kept₂
        | ok _ =>
          rcases again : (makeDir (name :: around).reverse).run s₂ with ⟨result, s₃⟩
          have kept₃ : Keeps s₃ := by
            have := makes (name :: around).reverse s₂ kept₂
            rwa [again] at this
          simp only [run_bind_eq again]
          cases result with
          | ok _ => exact kept₃
          | error e => exact unlessThere _ e s₃ kept₃
      | _ => exact unlessThere _ _ s₁ kept₁

theorem content_makeDirs (path : String) (t : FileTree) :
    ((makeDirs path).run t).2.content = t.content := by
  refine makeAll_keeps (fun t' => t'.content = t.content) ?_ ?_ _ t rfl
  · exact fun names s kept => kept
  · intro names s kept
    rw [run_bind_eq (rfl : (get : StateM FileTree FileTree).run s = (s, s))]
    cases made : s.makeDir names with
    | error e => exact kept
    | ok s' => exact (content_makeDir made).trans kept

/-- Effects make one tree of files from another, with the results that they note. -/
inductive Replays : List Effect → FileTree → FileTree → Prop
  | nil (t : FileTree) : Replays [] t t
  | makeDirs {directory : String} {result : Except FileError Unit} {t t₁ t' : FileTree}
    {effects : List Effect} (made : (FileTree.makeDirs directory).run t = (result, t₁))
    (others : Replays effects t₁ t') : Replays (.makeDirs directory result :: effects) t t'
  | written {path text : String} {t t₁ t' : FileTree} {effects : List Effect}
    (wrote : t.write path text = .ok t₁) (others : Replays effects t₁ t') :
    Replays (.write path text (.ok ()) :: effects) t t'
  | refused {path text : String} {cause : FileError} {t t' : FileTree} {effects : List Effect}
    (failed : t.write path text = .error cause) (others : Replays effects t t') :
    Replays (.write path text (.error cause) :: effects) t t'

theorem Replays.append {first rest : List Effect} {t t₁ t₂ : FileTree}
    (one : Replays first t t₁) (two : Replays rest t₁ t₂) : Replays (first ++ rest) t t₂ := by
  induction one with
  | nil t => exact two
  | makeDirs made _ ih => exact .makeDirs made (ih two)
  | written wrote _ ih => exact .written wrote (ih two)
  | refused failed _ ih => exact .refused failed (ih two)

namespace Replays

variable {t t₁ t' : FileTree} {effects : List Effect} {result : Except FileError Unit}

variable {path text : String} (replays : Replays (.write path text result :: effects) t t')
include replays

end Replays

end FileTree

theorem recorder_write (path text : String) (r : Recording) :
    (recorder.write path text).run r =
      match r.files.write path text with
      | .ok files => (.ok (), { r with files })
      | .error e => (.error e, r) := by
  change StateT.run (match r.files.write path text with
    | .ok files => do set { r with files }; return .ok ()
    | .error e => return .error e : StateM Recording (Except FileError Unit)) r = _
  cases r.files.write path text <;> rfl

def recorderStorage : Storage recorder where
  File := Place
  fileOf := FileTree.placeOf
  content r := r.files.content
  log _ _ := rfl
  makeDirs directory s := FileTree.content_makeDirs directory s.files
  written {path text s s'} h := by
    rw [recorder_write] at h
    cases wrote : s.files.write path text with
    | error e => rw [wrote] at h; cases h
    | ok files =>
      rw [wrote] at h
      cases h
      obtain ⟨free, rfl⟩ := FileTree.write_eq_put wrote
      rw [FileTree.content, FileTree.entryAt_put free]
  others {path text s s'} h file other := by
    rw [recorder_write] at h
    cases wrote : s.files.write path text with
    | error e => rw [wrote] at h; cases h
    | ok files =>
      rw [wrote] at h
      cases h
      obtain ⟨-, rfl⟩ := FileTree.write_eq_put wrote
      rw [FileTree.content, FileTree.content, FileTree.entryAt_put_other other]
  failed {path text s s' e} h := by
    rw [recorder_write] at h
    cases wrote : s.files.write path text with
    | error e => rw [wrote] at h; cases h; rfl
    | ok files => rw [wrote] at h; cases h

/-- Two groups with the same file name, a group whose file is a directory already, and one with a
    dangling reference. -/
theorem split_policies_same_file :
    let d : Document := { definitions :=
      [("A:B.One", .ofType "object"), ("A/B.Two", .ofType "object"), ("C.Three", .ofType "object"),
        ("D.Four", .reference "#/definitions/Gone")] }
    let options : RunOptions := { outDir := "out" }
    let keeping := { options with failFast := false }
    let stopping := { options with failFast := true }
    let generator := Generator.typeScript {}
    let groups := d.groups '.'
    let directory := d.directoryEffects options
    let s : Recording :=
      { files := (({} : FileTree).put ["out"] .directory).put ["out", "C.ts"] .directory }
    ((recorder.makeDirs "out").run ((recorder.log (.partitioned 4 4)).run s).2).1 = .ok () ∧
    ∃ (outcomes : List GroupOutcome) (writes : List Effect) (s' : Recording),
      d.WritesGroups generator "out" false groups outcomes writes ∧
      d.Ends recorder generator keeping s (.ok (.ofOutcomes outcomes)) (directory ++ writes) s' ∧
      recorderStorage.FilesAfter (outcomes.filterMap (·.put?)) s s' ∧
      ((Summary.ofOutcomes outcomes).failed = [] →
        d.Ends recorder generator stopping s (.ok (.ofOutcomes outcomes)) (directory ++ writes) s') ∧
      ∀ e, (Summary.ofOutcomes outcomes).failed.head? = some e →
        ∃ before after first s'', outcomes = before ++ .failed e :: after ∧
          (Summary.ofOutcomes before).failed = [] ∧ first <+: writes ∧
          d.WritesGroups generator "out" true groups (before ++ [.failed e]) first ∧
          d.Ends recorder generator stopping s (.error e) (directory ++ first) s'' ∧
          recorderStorage.FilesAfter (before.filterMap (·.put?)) s s'' := by
  intro d options keeping stopping generator groups directory s
  exact ⟨by cbv, recorderStorage.split_policies generator options d s (by cbv)⟩

end SchemaSplit
