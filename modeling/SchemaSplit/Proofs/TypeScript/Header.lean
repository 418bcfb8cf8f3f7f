import SchemaSplit.Artifact
import SchemaSplit.Proofs.Group
import SchemaSplit.Proofs.Traversal
import Mathlib.Data.List.Basic

namespace SchemaSplit
namespace TypeScript

def isLineTerminator (c : Char) : Bool := ['\n', '\r', '\u2028', '\u2029'].contains c

def StaysOnLine (text : List Char) : Prop := ∀ c ∈ text, isLineTerminator c = false

instance (text : List Char) : Decidable (StaysOnLine text) :=
  decidable_of_iff (text.all fun c => !isLineTerminator c) (by simp [StaysOnLine])

inductive CommentReader where
  | outside
  | inLine
  | inBlock
  deriving DecidableEq

/-- What of a text is outside of comments. The end of a line comment is not part of it. -/
def CommentReader.live : CommentReader → List Char → List Char
  | outside, '/' :: '/' :: rest => live inLine rest
  | outside, '/' :: '*' :: rest => live inBlock rest
  | outside, c :: rest => c :: live outside rest
  | inLine, c :: rest => if isLineTerminator c then c :: live outside rest else live inLine rest
  | inBlock, '*' :: '/' :: rest => live outside rest
  | inBlock, _ :: rest => live inBlock rest
  | _, [] => []

structure IsCommentLine (line : List Char) : Prop where
  stays : StaysOnLine line
  commented : CommentReader.outside.live line = []

def IsCommentLines (count : Nat) (text : List Char) : Prop :=
  ∃ lines : List (List Char), lines.length = count ∧ (∀ line ∈ lines, IsCommentLine line) ∧
    text = lines.flatMap (· ++ ['\n'])

def Module.head (m : Module) : String := String.join (m.header.map (· ++ "\n"))

theorem Module.text_eq (m : Module) :
    m.text = m.head ++ String.join (m.declarations.map ("\n" ++ ·.text)) := rfl

theorem staysOnLine_append {a b : List Char} : StaysOnLine (a ++ b) ↔ StaysOnLine a ∧ StaysOnLine b :=
  List.forall_mem_append

theorem staysOnLine_iff {text : List Char} : StaysOnLine text ↔ text.countP isLineTerminator = 0 := by
  simp [StaysOnLine, List.countP_eq_zero]

theorem live_inLine {text : List Char} (stays : StaysOnLine text) :
    CommentReader.inLine.live text = [] := by
  induction text with
  | nil => rfl
  | cons c rest ih =>
    obtain ⟨here, others⟩ := List.forall_mem_cons.mp stays
    rw [CommentReader.live, here, if_neg Bool.false_ne_true, ih others]

theorem IsCommentLine.ofLine {text : List Char} (stays : StaysOnLine text) :
    IsCommentLine ('/' :: '/' :: text) where
  stays := List.forall_mem_cons.mpr ⟨by decide, List.forall_mem_cons.mpr ⟨by decide, stays⟩⟩
  commented := by rw [CommentReader.live, live_inLine stays]

theorem countP_lines (lines : List (List Char)) :
    (lines.flatMap (· ++ ['\n'])).countP isLineTerminator =
      lines.flatten.countP isLineTerminator + lines.length := by
  induction lines with
  | nil => rfl
  | cons line rest ih =>
    have feed : ['\n'].countP isLineTerminator = 1 := by decide
    rw [List.flatMap_cons, List.flatten_cons, List.countP_append, List.countP_append,
      List.countP_append, feed, ih, List.length_cons]
    omega

theorem staysOnLine_flatten {lines : List (List Char)} :
    StaysOnLine lines.flatten ↔ ∀ line ∈ lines, StaysOnLine line :=
  List.forall_mem_flatten

/-- Lines that are comments if they stay on their lines are that many comment lines exactly if they
    stay there. -/
theorem isCommentLines_iff {lines : List (List Char)}
    (comments : ∀ line ∈ lines, StaysOnLine line → IsCommentLine line) :
    IsCommentLines lines.length (lines.flatMap (· ++ ['\n'])) ↔ ∀ line ∈ lines, StaysOnLine line := by
  constructor
  · rintro ⟨others, length, all, same⟩
    have none : others.flatten.countP isLineTerminator = 0 :=
      staysOnLine_iff.mp (staysOnLine_flatten.mpr fun line inside => (all line inside).stays)
    -- Both ways to cut the text into lines end as many, so none is ended elsewhere.
    have counts := congrArg (List.countP isLineTerminator) same
    rw [countP_lines, countP_lines, none, length] at counts
    exact staysOnLine_flatten.mp (staysOnLine_iff.mpr (by omega))
  · intro stay
    exact ⟨lines, rfl, fun line inside => comments line inside (stay line inside), rfl⟩

theorem header_moduleOf {settings : Settings} {d : IsolatedDocument} {fileName : String} {m : Module}
    (converted : moduleOf settings d fileName = .ok m) : m.header = header settings d fileName := by
  obtain ⟨declarations, -, same⟩ := Except.bind_eq_ok.mp converted
  cases same
  rfl

section
variable (settings : Settings) (d : IsolatedDocument) (fileName : String)

def headerValues : List String := [d.info.title, d.info.version, d.key, fileName, settings.clientSuffix]

theorem header_stays_iff : (∀ line ∈ header settings d fileName, StaysOnLine line.toList) ↔
    ∀ value ∈ headerValues settings d fileName, StaysOnLine value.toList := by
  have eslint : StaysOnLine "/* eslint-disable */".toList := by decide
  have generated : StaysOnLine "// Generated by nsplit. Do not edit.".toList := by decide
  have source : StaysOnLine "// Source: ".toList := by decide
  have blank : StaysOnLine " ".toList := by decide
  have group : StaysOnLine "// Group: ".toList := by decide
  have client : StaysOnLine "// Client: ".toList := by decide
  simp only [header, headerValues, Settings.clientName, List.forall_mem_cons, List.not_mem_nil,
    false_imp_iff, implies_true, String.toList_append, staysOnLine_append, eslint, generated, source,
    blank, group, client, true_and, and_true, and_assoc]

theorem header_comments {line : String} (inside : line ∈ header settings d fileName)
    (stays : StaysOnLine line.toList) : IsCommentLine line.toList := by
  simp only [header, List.mem_cons, List.not_mem_nil, or_false] at inside
  have behind : ∀ rest : String, line = "//" ++ rest → IsCommentLine line.toList := by
    rintro rest rfl
    rw [String.toList_append] at stays ⊢
    exact .ofLine (staysOnLine_append.mp stays).2
  rcases inside with rfl | rfl | rfl | rfl | rfl
  · exact ⟨stays, by decide⟩
  · exact ⟨stays, by decide⟩
  · exact behind (" Source: " ++ d.info.title ++ " " ++ d.info.version)
      (by simp [← String.append_assoc])
  · exact behind (" Group: " ++ d.key) (by simp [← String.append_assoc])
  · exact behind (" Client: " ++ settings.clientName fileName) (by simp [← String.append_assoc])

/-- The head of a module is five comment lines exactly if no text in it ends a line. -/
theorem isCommentLines_head_iff {m : Module} (converted : moduleOf settings d fileName = .ok m) :
    IsCommentLines 5 m.head.toList ↔
      ∀ value ∈ headerValues settings d fileName, StaysOnLine value.toList := by
  have text : m.head.toList =
      ((header settings d fileName).map String.toList).flatMap (· ++ ['\n']) := by
    simp [Module.head, header_moduleOf converted, String.toList_join, List.flatMap_map]
  have comments : ∀ line ∈ (header settings d fileName).map String.toList, StaysOnLine line →
      IsCommentLine line := List.forall_mem_map.mpr fun _ => header_comments settings d fileName
  rw [text, ← header_stays_iff]
  exact (isCommentLines_iff comments).trans List.forall_mem_map

end

theorem staysOnLine_fileName {key : String} (stays : StaysOnLine key.toList) :
    StaysOnLine (fileName key).toList := by
  intro c inside
  rw [fileName, String.toList_ofList] at inside
  obtain ⟨original, member, rfl⟩ := List.mem_map.mp inside
  split
  · decide
  · exact stays original member

end TypeScript

namespace Generator

open TypeScript

/-- What stands before the first declaration of an artifact is five lines of comments exactly if
    neither title, version and key of its document nor the suffix of clients end a line. -/
theorem typeScript_header_iff {settings : Settings} {d : IsolatedDocument} {text : String}
    (made : (typeScript settings).generate d (fileName d.key) = .ok text) :
    ∃ m, moduleOf settings d (fileName d.key) = .ok m ∧
      text = m.head ++ String.join (m.declarations.map ("\n" ++ ·.text)) ∧
      (IsCommentLines 5 m.head.toList ↔
        ∀ value ∈ [d.info.title, d.info.version, d.key, settings.clientSuffix],
          StaysOnLine value.toList) := by
  obtain ⟨m, converted, written⟩ := Except.map_eq_ok.mp made
  refine ⟨m, converted, written ▸ m.text_eq, ?_⟩
  rw [isCommentLines_head_iff settings d (fileName d.key) converted]
  simp only [headerValues, List.forall_mem_cons, List.not_mem_nil, false_imp_iff, implies_true,
    and_true]
  refine and_congr_right fun _ => and_congr_right fun _ => and_congr_right fun stays => ?_
  exact and_iff_right (staysOnLine_fileName stays)

/-- A document with plain words in its header. -/
theorem typeScript_header_iff_shop :
    let d : IsolatedDocument :=
      ⟨"Shop/Orders", { title := "Shop" }, .swagger2, "2.0", [("Shop/Orders.Line", .ofType "object")]⟩
    ∃ m, moduleOf {} d (fileName d.key) = .ok m ∧ IsCommentLines 5 m.head.toList := by
  intro d
  obtain ⟨text, made⟩ := Except.isOk_iff.mp
    (by decide +kernel : ((typeScript {}).generate d (fileName d.key)).isOk)
  obtain ⟨m, converted, -, same⟩ := typeScript_header_iff made
  exact ⟨m, converted, same.mpr (by decide)⟩

/-- A title with a line feed in it: what follows there is in no comment. -/
theorem typeScript_header_escapes :
    let d : Document :=
      { info := { title := "Shop\nalert(1);" }, definitions := [("A.Pet", .ofType "object")] }
    let g : Group := ⟨"A", d.definitions⟩
    g ∈ d.groups '.' ∧
      ∃ m, moduleOf {} (d.isolate g) (fileName g.key) = .ok m ∧ ¬ IsCommentLines 5 m.head.toList ∧
        CommentReader.outside.live m.head.toList = "\n\n\nalert(1); 1.0.0\n\n\n".toList := by
  intro d g
  have key : namespaceKey '.' "A.Pet" = "A" := by decide +kernel
  have member : g ∈ d.groups '.' := Group.mem_ofDefinitions.mpr ⟨by simp [d, g, key], nofun⟩
  have whole : d.isolate g = ⟨"A", d.info, .swagger2, "2.0", d.definitions⟩ :=
    Document.isolate_of_closed member (by decide) fun _ _ _ _ known => known
  obtain ⟨m, converted⟩ := Except.isOk_iff.mp
    (by rw [whole]; decide +kernel : (moduleOf {} (d.isolate g) (fileName g.key)).isOk)
  refine ⟨member, m, converted, ?_, ?_⟩
  · rw [isCommentLines_head_iff {} (d.isolate g) (fileName g.key) converted]
    intro stay
    exact absurd (stay d.info.title List.mem_cons_self) (by decide)
  · rw [Module.head, header_moduleOf converted, whole]
    decide +kernel

end Generator
end SchemaSplit
