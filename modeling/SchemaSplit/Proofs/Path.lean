import SchemaSplit.Proofs.Effects
import SchemaSplit.Proofs.FileTree
import Mathlib

namespace List

theorem not_mem_of_mem_splitOn {α : Type} [BEq α] [LawfulBEq α] {a : α} {as piece : List α}
    (h : piece ∈ as.splitOn a) : a ∉ piece := by
  induction as generalizing piece with
  | nil =>
    rw [splitOn_nil, mem_singleton] at h
    simp [h]
  | cons b rest ih =>
    rw [splitOn_cons_eq_if_modifyHead] at h
    split at h
    · rcases mem_cons.mp h with rfl | later
      · exact not_mem_nil
      · exact ih later
    · rename_i other
      obtain ⟨first, others, pieces⟩ := exists_cons_of_ne_nil (splitOn_ne_nil a rest)
      rw [pieces] at h ih
      rcases mem_cons.mp h with rfl | later
      · have apart : a ≠ b := fun same => other (beq_iff_eq.mpr same.symm)
        exact not_mem_cons_of_ne_of_not_mem apart (ih mem_cons_self)
      · exact ih (mem_cons_of_mem _ later)

end List

namespace SchemaSplit

section
open String

theorem splitOnAux_slash (before piece rest : List Char) (done : List String) :
    splitOnAux (ofList (before ++ piece ++ rest)) "/" ⟨utf8Len before⟩
        ⟨utf8Len before + utf8Len piece⟩ 0 done =
      done.reverse ++ (List.splitOnPPrepend (· == '/') rest piece.reverse).map ofList := by
  have slash : Pos.Raw.get "/" 0 = '/' := by decide
  have behind : Pos.Raw.next "/" 0 = ⟨1⟩ := by decide
  have length : "/".rawEndPos = ⟨1⟩ := by decide
  -- The scanner is done with what is before, has a piece open, and goes on at the rest.
  unfold splitOnAux
  simp only [List.append_assoc, atEnd_iff, rawEndPos_ofList, utf8Len_append, Pos.Raw.mk_le_mk,
    Nat.add_le_add_iff_left,
    show utf8Len piece + utf8Len rest ≤ utf8Len piece ↔ utf8Len rest = 0 by omega, utf8Len_eq_zero, slash,
    behind, length, Nat.le_refl, if_true]
  cases rest with
  | nil => simpa using extract_of_valid before piece []
  | cons c rest =>
    have here := get_of_valid (before ++ piece) (c :: rest)
    have next := next_of_valid (before ++ piece) c rest
    have whole := extract_of_valid before piece (c :: rest)
    simp only [List.append_assoc, utf8Len_append] at here next whole
    simp only [reduceCtorEq, if_false, here, next, List.headD_cons]
    by_cases same : c = '/'
    · subst same
      have one : ('/' : Char).utf8Size = 1 := by decide
      have back : (⟨utf8Len before + utf8Len piece + 1⟩ : Pos.Raw).unoffsetBy ⟨1⟩ =
          ⟨utf8Len before + utf8Len piece⟩ := by simp [Pos.Raw.unoffsetBy]
      have later := splitOnAux_slash (before ++ piece ++ ['/']) [] rest (ofList piece :: done)
      simp only [List.append_assoc, utf8Len_append, utf8Len_cons, utf8Len_nil, one, List.cons_append,
        List.nil_append, List.reverse_nil, ← Nat.add_assoc, Nat.zero_add, Nat.add_zero] at later
      simp only [one, back, whole, beq_self_eq_true, if_true]
      rw [later, List.splitOnPPrepend_cons_eq_if]
      simp
    · have later := splitOnAux_slash before (piece ++ [c]) rest done
      have stay : (⟨utf8Len before + utf8Len piece⟩ : Pos.Raw).unoffsetBy 0 =
          ⟨utf8Len before + utf8Len piece⟩ := by simp [Pos.Raw.unoffsetBy]
      simp only [List.append_assoc, utf8Len_append, utf8Len_cons, utf8Len_nil, List.cons_append,
        List.nil_append, ← Nat.add_assoc, Nat.zero_add] at later
      have other : (c == '/') = false := beq_false_of_ne same
      rw [other, if_neg Bool.false_ne_true, stay, next, later, List.splitOnPPrepend_cons_eq_if, other,
        if_neg Bool.false_ne_true, List.reverse_append, List.reverse_singleton, List.singleton_append]

theorem splitOn_slash (s : String) : s.splitOn "/" = (s.toList.splitOn '/').map ofList := by
  have whole := splitOnAux_slash [] [] s.toList []
  simp only [List.nil_append, ofList_toList] at whole
  rw [splitOn, if_neg (by decide)]
  exact whole

theorem startsWith_slash (s : String) : s.startsWith "/" ↔ s.toList.head? = some '/' := by
  rw [startsWith_string_iff]
  cases s.toList <;> simp [eq_comm]

theorem endsWith_slash (s : String) : s.endsWith "/" ↔ s.toList.getLast? = some '/' := by
  rw [endsWith_eq_endsWith_toSlice, Slice.endsWith_string_iff]
  simp [List.singleton_suffix_iff_getLast?_eq_some]

end

def rootNames (path : String) : List String := if path.startsWith "/" then ["/"] else []

def innerNames (path : String) : List String := (path.splitOn "/").filter (!·.isEmpty)

theorem slash_notMem_innerNames (path : String) : "/" ∉ innerNames path := by
  intro inside
  rw [innerNames, splitOn_slash] at inside
  obtain ⟨piece, split, same⟩ := List.mem_map.mp (List.mem_of_mem_filter inside)
  have slash : piece = ['/'] := by rw [← String.toList_ofList (l := piece), same]; rfl
  exact List.not_mem_of_mem_splitOn split (slash ▸ List.mem_singleton_self _)

theorem pathNames_eq (path : String) :
    pathNames path = rootNames path ++ innerNames path ++
      if path.endsWith "/" ∧ innerNames path ≠ [] then ["."] else [] := by
  simp [pathNames, rootNames, innerNames]

theorem directoryNames_eq (path : String) :
    (directoryNames path).reverse = rootNames path ++ innerNames path := by
  by_cases closed : path.endsWith "/" ∧ innerNames path ≠ []
  · have names : (pathNames path).reverse = "." :: (rootNames path ++ innerNames path).reverse := by
      rw [pathNames_eq, if_pos closed, List.reverse_append]
      rfl
    simp only [directoryNames, names, closed.1, if_true, List.reverse_reverse]
  · have names : pathNames path = rootNames path ++ innerNames path := by
      rw [pathNames_eq, if_neg closed, List.append_nil]
    rw [directoryNames, ← names]
    split
    · rename_i rest last
      -- A last name that is a dot stands in the path itself.
      have open' : path.endsWith "/" = false := by
        by_contra ends
        have none : innerNames path = [] := by
          by_contra some
          exact closed ⟨by simpa using ends, some⟩
        rw [names, none, List.append_nil, rootNames] at last
        split at last <;> simp at last
      rw [open', if_neg Bool.false_ne_true, List.reverse_reverse]
    · exact List.reverse_reverse _

theorem innerNames_append {s t whole : String} (h : whole.toList = s.toList ++ '/' :: t.toList) :
    innerNames whole = innerNames s ++ innerNames t := by
  simp only [innerNames, splitOn_slash, h]
  rw [List.splitOn_append_cons_self, List.map_append, List.filter_append]

/-- A name that stands for itself on a path: it is there, and it neither stays nor leads up. No mark
    between names, drives or streams is in it. -/
structure IsFileName (name : String) : Prop where
  nonempty : name ≠ ""
  notHere : name ≠ "."
  notUp : name ≠ ".."
  marks : ∀ c ∈ name.toList, c ≠ '/' ∧ c ≠ '\\' ∧ c ≠ ':'

instance (name : String) : Decidable (IsFileName name) :=
  decidable_of_iff (name ≠ "" ∧ name ≠ "." ∧ name ≠ ".." ∧
      name.toList.all fun c => c ≠ '/' ∧ c ≠ '\\' ∧ c ≠ ':')
    ⟨fun ⟨nonempty, notHere, notUp, marks⟩ => ⟨nonempty, notHere, notUp, by simpa using marks⟩,
      fun h => ⟨h.nonempty, h.notHere, h.notUp, by simpa using h.marks⟩⟩

namespace IsFileName

variable {name : String} (h : IsFileName name)
include h

theorem relative : ¬ name.startsWith "/" := by
  rw [startsWith_slash]
  exact fun first => (h.marks '/' (List.mem_of_head? first)).1 rfl

theorem unclosed : ¬ name.endsWith "/" := by
  rw [endsWith_slash]
  exact fun last => (h.marks '/' (List.mem_of_getLast? last)).1 rfl

theorem innerNames : innerNames name = [name] := by
  have whole : '/' ∉ name.toList := fun inside => (h.marks _ inside).1 rfl
  simp [SchemaSplit.innerNames, splitOn_slash, List.splitOn_eq_singleton whole, h.nonempty]

theorem pathNames : pathNames name = [name] := by
  rw [pathNames_eq, rootNames, if_neg h.relative, h.innerNames,
    if_neg (fun closed => h.unclosed closed.1)]
  rfl

theorem directoryNames : directoryNames name = [name] := by
  rw [← List.reverse_inj, directoryNames_eq, rootNames, if_neg h.relative, h.innerNames]
  rfl

theorem innerNames_joinPath (directory : String) :
    SchemaSplit.innerNames (joinPath directory name) =
      SchemaSplit.innerNames directory ++ [name] := by
  rw [joinPath]
  split
  · rename_i closed
    rcases closed with empty | slash
    · rw [String.isEmpty_iff.mp empty]
      simpa [SchemaSplit.innerNames, splitOn_slash] using h.innerNames
    · obtain ⟨front, split⟩ := List.getLast?_eq_some_iff.mp slash
      have around : SchemaSplit.innerNames directory =
          SchemaSplit.innerNames (String.ofList front) ++ SchemaSplit.innerNames "" :=
        innerNames_append (by simp [split])
      rw [innerNames_append (s := String.ofList front) (t := name) (by simp [split]), h.innerNames,
        around]
      simp [SchemaSplit.innerNames, splitOn_slash]
  · rw [innerNames_append (s := directory) (t := name) (by simp), h.innerNames]

theorem rootNames_joinPath (directory : String) :
    rootNames (joinPath directory name) = rootNames directory := by
  have same : (joinPath directory name).startsWith "/" ↔ directory.startsWith "/" := by
    by_cases empty : directory = ""
    · subst empty
      exact iff_of_false h.relative (by decide)
    · have nonempty : directory.toList ≠ [] := by simpa using empty
      rw [startsWith_slash, startsWith_slash, joinPath]
      split
      · rw [String.toList_append, List.head?_append_of_ne_nil _ nonempty]
      · rw [String.toList_append, String.toList_append, List.append_assoc,
          List.head?_append_of_ne_nil _ nonempty]
  simp only [rootNames, same]

theorem pathNames_joinPath (directory : String) :
    SchemaSplit.pathNames (joinPath directory name) =
      (SchemaSplit.directoryNames directory).reverse ++ [name] := by
  have nonempty : name.toList ≠ [] := by simpa using h.nonempty
  have plain : ¬ (joinPath directory name).endsWith "/" := by
    rw [endsWith_slash]
    intro last
    rw [joinPath] at last
    refine h.unclosed ((endsWith_slash name).mpr ?_)
    split at last
    · rwa [String.toList_append, List.getLast?_append_of_ne_nil _ nonempty] at last
    · rwa [String.toList_append, List.getLast?_append_of_ne_nil _ nonempty] at last
  rw [pathNames_eq, if_neg (fun closed => plain closed.1), h.rootNames_joinPath, h.innerNames_joinPath,
    directoryNames_eq, List.append_nil, List.append_assoc]

end IsFileName

namespace FileTree

theorem placeOf_eq (path : String) : placeOf path = (innerNames path).foldl step (rootNames path) := by
  have stay : ∀ (place : Place) (closed : Prop) [Decidable closed],
      (if closed then ["."] else []).foldl step place = place := by
    intro place closed _
    split
    · simp [step]
    · rfl
  by_cases absolute : path.startsWith "/"
  · have root : rootNames path = ["/"] := if_pos absolute
    have names := pathNames_eq path
    rw [root, List.append_assoc, List.singleton_append] at names
    rw [placeOf_root names, root, List.foldl_append, stay]
  · have root : rootNames path = [] := if_neg absolute
    have names := pathNames_eq path
    rw [root, List.nil_append] at names
    rw [root]
    by_cases none : innerNames path = []
    · rw [none, if_neg (fun closed => closed.2 rfl), List.nil_append] at names
      unfold placeOf
      rw [names, none]
      rfl
    · have notRoot : ∀ rest, pathNames path ≠ "/" :: rest := by
        intro rest same
        obtain ⟨first, others, inner⟩ := List.exists_cons_of_ne_nil none
        rw [names, inner, List.cons_append] at same
        exact slash_notMem_innerNames path ((List.cons.inj same).1 ▸ inner ▸ List.mem_cons_self)
      have nonempty : pathNames path ≠ [] := by
        rw [names]
        exact List.append_ne_nil_of_left_ne_nil none _
      rw [placeOf_relative nonempty notRoot, names, List.foldl_append, stay]

theorem placeOf_joinPath {name : String} (h : IsFileName name) (directory : String) :
    placeOf (joinPath directory name) = placeOf directory ++ [name] := by
  rw [placeOf_eq, placeOf_eq, h.innerNames_joinPath, h.rootNames_joinPath, List.foldl_append]
  simp [step, h.notHere, h.notUp]

end FileTree

def replaced (c : Char) : Char := if isForbiddenInFileName c then '_' else c

theorem toList_fileName (key : String) : (fileName key).toList = key.toList.map replaced :=
  String.toList_ofList

def isControl (c : Char) : Bool := c.toNat < 0x20 || (0x7f ≤ c.toNat && c.toNat < 0xa0)

theorem replaced_ne_mark (c : Char) : replaced c ≠ '/' ∧ replaced c ≠ '\\' ∧ replaced c ≠ ':' := by
  unfold replaced
  split
  · decide
  · rename_i allowed
    simp only [isForbiddenInFileName, Bool.or_eq_true, List.contains_iff_mem, List.mem_cons] at allowed
    grind

theorem toNat_lt_of_isForbidden {c : Char} (forbidden : isForbiddenInFileName c) : c.toNat < 0x7f := by
  simp only [isForbiddenInFileName, Bool.or_eq_true, decide_eq_true_eq, List.contains_iff_mem,
    List.mem_cons, List.not_mem_nil, or_false] at forbidden
  rcases forbidden with control | mark
  · omega
  · rcases mark with rfl | rfl | rfl | rfl | rfl | rfl | rfl | rfl | rfl <;> decide

/-- A control character is there after replacing exactly if it was there and stands behind the
    tilde. -/
theorem isControl_mem_replaced {cs : List Char} {c : Char} :
    (c ∈ cs.map replaced ∧ isControl c) ↔ c ∈ cs ∧ 0x7f ≤ c.toNat ∧ c.toNat < 0xa0 := by
  have underscore : isControl '_' = false := by decide
  constructor
  · rintro ⟨there, control⟩
    obtain ⟨c, inside, rfl⟩ := List.mem_map.mp there
    by_cases forbidden : isForbiddenInFileName c
    · rw [replaced, if_pos forbidden, underscore] at control
      cases control
    · rw [replaced, if_neg forbidden] at control ⊢
      simp only [isForbiddenInFileName, Bool.or_eq_true, decide_eq_true_eq, not_or] at forbidden
      simp only [isControl, Bool.or_eq_true, Bool.and_eq_true, decide_eq_true_eq] at control
      exact ⟨inside, by omega⟩
  · rintro ⟨inside, low, high⟩
    have allowed : ¬ isForbiddenInFileName c := fun forbidden =>
      absurd (toNat_lt_of_isForbidden forbidden) (Nat.not_lt.mpr low)
    have kept : replaced c = c := if_neg allowed
    refine ⟨List.mem_map.mpr ⟨c, inside, kept⟩, ?_⟩
    simp only [isControl, Bool.or_eq_true, Bool.and_eq_true, decide_eq_true_eq]
    omega

theorem joinPath_inj {directory a b : String} :
    joinPath directory a = joinPath directory b ↔ a = b := by
  constructor
  · intro same
    unfold joinPath at same
    split at same
    · exact String.append_right_inj _ |>.mp same
    · exact String.append_right_inj _ |>.mp same
  · exact congrArg _

def artifactName (g : Group) (format : ArtifactFormat) : String :=
  fileName g.key ++ "." ++ Keyword.word format

theorem toList_artifactName (g : Group) (format : ArtifactFormat) :
    (artifactName g format).toList =
      g.key.toList.map replaced ++ '.' :: (Keyword.word format).toList := by
  simp [artifactName, toList_fileName]

theorem isFileName_artifactName (g : Group) (format : ArtifactFormat) :
    IsFileName (artifactName g format) := by
  have length : 3 ≤ (artifactName g format).toList.length := by
    rw [toList_artifactName]
    cases format <;> simp [Keyword.word]
  have other : ∀ name : String, name.toList.length < 3 → artifactName g format ≠ name := by
    rintro name short rfl
    omega
  constructor
  case nonempty => exact other "" (by decide)
  case notHere => exact other "." (by decide)
  case notUp => exact other ".." (by decide)
  case marks =>
    intro c inside
    rw [toList_artifactName, List.mem_append, List.mem_map] at inside
    rcases inside with ⟨c, -, rfl⟩ | inside
    · exact replaced_ne_mark c
    · revert c
      cases format <;> simp [Keyword.word]

/-- A split asks for nothing but its directory and files in it, one name below it: that of the group's
    file. In this name each forbidden character of the key stands as an underscore, then a point and
    the extension, so it is an ordinary name. Two groups share a path exactly if their keys are the
    same after that. The only control characters that stay are those behind the tilde. -/
theorem Document.split_paths {σ : Type} (machine : Machine (StateM σ)) (format : ArtifactFormat)
    (settings : TypeScript.Settings) (options : RunOptions) (d : Document) (s : σ) :
    let generator := format.generator settings
    let path (g : Group) := artifactPath options.outDir (fileName g.key) generator.extension
    (∀ e ∈ ((d.split machine.traced generator options).run (s, [])).2.2,
      (∃ made, e = .makeDirs options.outDir made) ∨
        ∃ g ∈ d.groups options.separator, ∃ text wrote, e = .write (path g) text wrote) ∧
    (∀ g, ∃ name, path g = joinPath options.outDir name ∧ IsFileName name ∧
      pathNames (path g) = (directoryNames options.outDir).reverse ++ [name] ∧
      FileTree.placeOf (path g) = FileTree.placeOf options.outDir ++ [name] ∧
      name.toList = g.key.toList.map replaced ++ '.' :: generator.extension.toList ∧
      ∀ c, (c ∈ name.toList ∧ isControl c) ↔ c ∈ g.key.toList ∧ 0x7f ≤ c.toNat ∧ c.toNat < 0xa0) ∧
    ∀ g h, path g = path h ↔ g.key.toList.map replaced = h.key.toList.map replaced := by
  intro generator path
  have extension : generator.extension = Keyword.word format := by cases format <;> rfl
  have whole : ∀ g, path g = joinPath options.outDir (artifactName g format) := fun g => by
    rw [artifactName, ← extension]
    rfl
  refine ⟨?_, fun g => ?_, fun g h => ?_⟩
  · obtain ⟨_, effects, _, ends, splits, -⟩ := split_ends machine.tells_nothing generator options d s
    rw [ends.noted]
    intro e inside
    refine (splits.effect_cases inside).imp_right ?_
    rintro ⟨g, isGroup, wrote, text, -, same⟩
    exact ⟨g, isGroup, text, wrote, same⟩
  · have plain := isFileName_artifactName g format
    have text := toList_artifactName g format
    have letters : ∀ c ∈ '.' :: (Keyword.word format).toList, isControl c = false := by
      cases format <;> simp [Keyword.word, isControl]
    refine ⟨artifactName g format, whole g, plain, ?_, ?_, extension ▸ text, fun c => ?_⟩
    · rw [whole, plain.pathNames_joinPath]
    · rw [whole, FileTree.placeOf_joinPath plain]
    · rw [text, List.mem_append, ← isControl_mem_replaced]
      refine and_congr_left fun control => or_iff_left fun inside => ?_
      rw [letters c inside] at control
      cases control
  · rw [whole, whole, joinPath_inj, ← String.toList_inj, toList_artifactName, toList_artifactName,
      List.append_left_inj]

/-- The control character behind the tilde gets into the path of a file. -/
theorem Document.split_path_delete :
    let d : Document := { definitions := [("A\x7f.Pet", .ofType "object")] }
    let generator := ArtifactFormat.generator {} .json
    ((d.split accepting.traced generator { outDir := "out" }).run ((), [])).2.2.filterMap
        Effect.writtenPath? = [joinPath "out" "A\x7f.json"] ∧
      '\x7f' ∈ "A\x7f.json".toList ∧ isControl '\x7f' :=
  ⟨by cbv, by decide, by decide⟩

end SchemaSplit
