import SchemaSplit.Artifact
import SchemaSplit.Document.Reader
import SchemaSplit.Proofs.Group
import SchemaSplit.Proofs.Json.Draft
import SchemaSplit.Proofs.Json.Reader
import SchemaSplit.Proofs.Schema.Reader
import SchemaSplit.Proofs.Yaml.Reader
import Mathlib

namespace SchemaSplit

structure Definitions.Sound (ds : Definitions) : Prop where
  distinct : (ds.map (·.1)).Nodup
  each : ∀ e ∈ ds, e.2.Sound

theorem Definitions.Sound.nil : Definitions.Sound [] := ⟨List.nodup_nil, nofun⟩

namespace Document

section Reading

variable {d : Document} {n : Node}

theorem sound_of_components? {ds : Definitions} (fits : n.Fits)
    (read : components? n = some (some ds)) : ds.Sound := by
  obtain ⟨fields, record, known⟩ := Option.bind_eq_some_iff.mp read
  obtain ⟨schemas, fits, read⟩ := Node.Fits.field (fits.record record) known
  obtain ⟨distinct, each⟩ := Schema.sound_of_definitions? fits read
  exact ⟨distinct, each⟩

theorem sound_assemble {swagger openapi : Option String} {info : Option Info}
    {definitions components : Option Definitions} (first : ∀ ds, definitions = some ds → ds.Sound)
    (second : ∀ ds, components = some ds → ds.Sound) :
    (assemble swagger openapi info definitions components).definitions.Sound := by
  cases openapi <;> cases definitions <;> cases components <;>
    first
    | exact Definitions.Sound.nil
    | exact first _ rfl
    | exact second _ rfl

theorem sound_of_ofNode? (fits : n.Fits) (read : ofNode? n = some d) : d.definitions.Sound := by
  unfold ofNode? at read
  simp only [Option.bind_eq_bind, Option.bind_eq_some_iff] at read
  obtain ⟨fields, record, swagger, _, openapi, _, info, _, definitions, defined, components,
    componentsRead, made⟩ := read
  cases made
  have below := fits.record record
  refine sound_assemble ?_ ?_
  · intro ds same
    subst same
    obtain ⟨n, fits, read⟩ := Node.Fits.field below defined
    obtain ⟨distinct, each⟩ := Schema.sound_of_definitions? fits read
    exact ⟨distinct, each⟩
  · intro ds joined
    cases components with
    | none => cases joined
    | some ds? =>
      obtain ⟨n, fits, read⟩ := Node.Fits.field below componentsRead
      cases (show ds? = some ds from joined)
      exact sound_of_components? fits read

theorem selects_selection {draft : Draft} (fits : draft.Fits) :
    Draft.Selects (selection draft) := by
  have whole := Draft.selects_whole fits
  refine Draft.selects_record fits ?_
  simp only [List.mem_cons, List.not_mem_nil, or_false, forall_eq_or_imp, forall_eq]
  refine ⟨whole, whole, Draft.selects_record fits ?_, whole, Draft.selects_record fits ?_⟩
  · exact List.forall_mem_cons.mpr ⟨whole, List.forall_mem_singleton.mpr whole⟩
  · exact List.forall_mem_singleton.mpr whole

theorem fits_of_draft? {format : SourceFormat} {text : List Char} {draft : Draft}
    (read : format.draft? text = some draft) : draft.Fits := by
  cases format with
  | json => exact Json.fits_of_draft? read
  | yaml => exact Yaml.fits_of_draft? read

theorem sound_of_read {format : SourceFormat} {text : List Char}
    (known : read format text = .ok d) : d.definitions.Sound := by
  unfold read at known
  split at known
  · rename_i found
    cases known
    obtain ⟨draft, drafted, read⟩ := Option.bind_eq_some_iff.mp found
    obtain ⟨n, taken, read⟩ := Option.bind_eq_some_iff.mp read
    have fits := fits_of_draft? drafted
    exact sound_of_ofNode? (Draft.fits_of_take? fits (selects_selection fits) taken) read
  · cases known

theorem sound_of_parse {text : List Char} (known : parse text = .ok d) :
    d.definitions.Sound := by
  unfold parse at known
  split at known
  · exact sound_of_read known
  · exact sound_of_read known

theorem parse_of_draft? {text : List Char} {draft : Draft} (starts : text.head? = some '\x7b')
    (drafted : Json.draft? text = some draft) (made : ofDraft? draft = some d) :
    parse text = .ok d := by
  obtain ⟨rest, rfl⟩ := List.head?_eq_some_iff.mp starts
  have same : Text.trimStart ('\x7b' :: rest) = '\x7b' :: rest := rfl
  unfold parse SourceFormat.detect
  rw [same]
  change read .json _ = _
  unfold read SourceFormat.draft?
  dsimp only
  rw [drafted, Option.bind_eq_bind, Option.bind_some, made]

theorem parse_of_lex? {text : List Char} {j : Json} (starts : text.head? = some '\x7b')
    (lexed : Json.Token.lex? text = some j.tokens)
    (made : ofDraft? { root := .ofJson j, depth := 127, positional := true } = some d) :
    parse text = .ok d := by
  refine parse_of_draft? starts ?_ made
  rw [Json.draft?, Json.node?_of_lex? lexed]
  rfl

end Reading

end Document

def Dialect.levels : Dialect → Nat
  | swagger2 => 2
  | openapi3 => 3

namespace IsolatedDocument

section Reading

variable (d : IsolatedDocument)

def infoJson : Json := .object [("title", .text d.info.title), ("version", .text d.info.version)]

def schemasJson : Json := .object (d.definitions.map fun e => (e.1, e.2.toJson))

def fields : List (String × Json) :=
  match d.dialect with
  | .swagger2 =>
    [("swagger", .text d.specVersion), ("info", d.infoJson), ("definitions", d.schemasJson)]
  | .openapi3 =>
    [("openapi", .text d.specVersion), ("info", d.infoJson),
      ("components", .object [("schemas", d.schemasJson)])]

def draft : Draft := { root := .ofJson d.toJson, depth := 127, positional := true }

variable {d}

theorem depth_schemasJson
    (shallow : ∀ e ∈ d.definitions, d.dialect.levels + e.2.toJson.depth ≤ 127) :
    d.dialect.levels + d.schemasJson.depth ≤ 128 := by
  have few : d.dialect.levels ≤ 3 := by cases d.dialect <;> decide
  have below : Json.fieldDepth (d.definitions.map fun e => (e.1, e.2.toJson)) ≤
      127 - d.dialect.levels := by
    rw [Json.fieldDepth_le, List.forall_mem_map]
    intro e inside
    exact Nat.le_sub_of_add_le' (shallow e inside)
  rw [schemasJson, Json.depth]
  omega

theorem whole_text (depth : Nat) (t : String) :
    d.draft.whole depth (.ofJson (.text t)) = pure (.ofJson (.text t)) :=
  Draft.whole_ofJson _ (Nat.zero_le depth)

theorem record_infoJson (depth : Nat) :
    d.draft.record [("title", d.draft.whole), ("version", d.draft.whole)] (depth + 1)
      (.ofJson d.infoJson) = pure (.ofJson d.infoJson) := by
  refine (Draft.record_ofJson _ ?_).trans rfl
  simp only [List.mem_cons, List.not_mem_nil, or_false, forall_eq_or_imp, forall_eq]
  constructor <;> intro _ selected <;> cases selected
  · exact whole_text depth _
  · exact whole_text depth _

theorem record_componentsJson {depth : Nat} (shallow : d.schemasJson.depth ≤ depth) :
    d.draft.record [("schemas", d.draft.whole)] (depth + 1)
      (.ofJson (.object [("schemas", d.schemasJson)])) =
      pure (.ofJson (.object [("schemas", d.schemasJson)])) := by
  refine (Draft.record_ofJson _ (List.forall_mem_singleton.mpr ?_)).trans rfl
  intro _ selected
  cases selected
  exact Draft.whole_ofJson _ shallow

theorem take?_selection
    (shallow : ∀ e ∈ d.definitions, d.dialect.levels + e.2.toJson.depth ≤ 127) :
    d.draft.take? (Document.selection d.draft) = some (.ofJson (.object d.fields)) := by
  have reached : Document.selection d.draft 127 (.ofJson d.toJson) =
      pure (.ofJson (.object d.fields)) := by
    unfold Document.selection toJson fields
    cases known : d.dialect with
    | swagger2 =>
      have schemas : d.schemasJson.depth ≤ 126 := by
        have bound := depth_schemasJson shallow
        rw [known, Dialect.levels] at bound
        omega
      refine (Draft.record_ofJson _ ?_).trans rfl
      simp only [List.mem_cons, List.not_mem_nil, or_false, forall_eq_or_imp, forall_eq]
      refine ⟨?_, ?_, ?_, ?_⟩ <;> intro _ selected <;> cases selected
      · exact whole_text 126 _
      · exact record_infoJson 125
      · exact Draft.whole_ofJson _ schemas
    | openapi3 =>
      have schemas : d.schemasJson.depth ≤ 125 := by
        have bound := depth_schemasJson shallow
        rw [known, Dialect.levels] at bound
        omega
      refine (Draft.record_ofJson _ ?_).trans rfl
      simp only [List.mem_cons, List.not_mem_nil, or_false, forall_eq_or_imp, forall_eq]
      refine ⟨?_, ?_, ?_, ?_⟩ <;> intro _ selected <;> cases selected
      · exact whole_text 126 _
      · exact record_infoJson 125
      · exact record_componentsJson schemas
  show (Document.selection d.draft 127 (.ofJson d.toJson)).run' 0 = _
  rw [reached]
  rfl

theorem text?_text (t : String) :
    (Node.ofJson (.text t)).optional false (Node.text? false) = some (some t) := rfl

theorem version?_text (t : String) :
    (Node.ofJson (.text t)).optional false Node.version? = some (some t) := rfl

theorem info?_infoJson : Document.info? (.ofJson d.infoJson) = some d.info := by
  unfold Document.info? infoJson
  rw [Node.record?_ofJson (by simp) (by simp)]
  simp [Node.field, List.lookup, text?_text, version?_text]

theorem definitions?_schemasJson (sound : d.definitions.Sound) :
    Schema.definitions? (.ofJson d.schemasJson) = some d.definitions := by
  have each := Schema.namedSchemas?_toJson fun e inside =>
    Schema.ofNode?_toJson (sound.each e inside) false
  show ((Node.ofJsonFields _).mapM (Schema.namedSchema? false)).bind _ = _
  rw [each]
  exact congrArg some (lastWins_of_nodup sound.distinct)

theorem ofNode?_fields (sound : d.definitions.Sound) :
    Document.ofNode? (.ofJson (.object d.fields)) = some d.document := by
  have schemas : (Node.ofJson d.schemasJson).optional false Schema.definitions? =
      some (some d.definitions) := by
    rw [Node.optional_ofJson (by intro none; cases none), definitions?_schemasJson sound]
    rfl
  have info : (Node.ofJson d.infoJson).optional false Document.info? = some (some d.info) := by
    rw [Node.optional_ofJson (by intro none; cases none), info?_infoJson]
    rfl
  unfold Document.ofNode? fields document
  cases known : d.dialect with
  | swagger2 =>
    dsimp only
    rw [Node.record?_ofJson (by simp) (by simp)]
    simp [Node.field, List.lookup, version?_text, info, schemas, Document.assemble]
  | openapi3 =>
    have components : (Node.ofJson (.object [("schemas", d.schemasJson)])).optional false
        Document.components? = some (some (some d.definitions)) := by
      rw [Node.optional_ofJson (by intro none; cases none)]
      unfold Document.components?
      rw [Node.record?_ofJson (by simp) (by simp)]
      simp [Node.field, List.lookup, schemas]
    dsimp only
    rw [Node.record?_ofJson (by simp) (by simp)]
    simp [Node.field, List.lookup, version?_text, info, components, Document.assemble]

theorem draft?_jsonText (back : ∀ v ∈ d.toJson.scalars, v.ReadsBack) :
    Json.draft? d.jsonText.toList = some d.draft := by
  unfold Json.draft? jsonText
  rw [Json.node?_pretty d.toJson back]
  rfl

theorem jsonText_cons : ∃ rest, d.jsonText.toList = '\x7b' :: rest := by
  unfold jsonText toJson
  cases d.dialect <;>
    exact ⟨_, by simp only [Json.pretty, String.toList_append]; rfl⟩

theorem readsBack_toJson (back : ∀ e ∈ d.definitions, ∀ v ∈ e.2.toJson.scalars, v.ReadsBack) :
    ∀ v ∈ d.toJson.scalars, v.ReadsBack := by
  have text (t : String) : ∀ v ∈ (Json.text t).scalars, v.ReadsBack :=
    fun v member => List.mem_singleton.mp member ▸ trivial
  have info : ∀ v ∈ d.infoJson.scalars, v.ReadsBack := by
    rw [infoJson, Json.forall_scalars_object]
    exact List.forall_mem_cons.mpr ⟨text _, List.forall_mem_singleton.mpr (text _)⟩
  have paths : ∀ v ∈ (Json.object []).scalars, v.ReadsBack := nofun
  have schemas : ∀ v ∈ d.schemasJson.scalars, v.ReadsBack := by
    rw [schemasJson, Json.forall_scalars_object]
    exact List.forall_mem_map.mpr back
  unfold toJson
  cases d.dialect with
  | swagger2 =>
    refine Json.forall_scalars_object.mpr ?_
    simp only [List.mem_cons, List.not_mem_nil, or_false, forall_eq_or_imp, forall_eq]
    exact ⟨text _, info, paths, schemas⟩
  | openapi3 =>
    have components : ∀ v ∈ (Json.object [("schemas", d.schemasJson)]).scalars, v.ReadsBack := by
      rw [Json.forall_scalars_object]
      exact List.forall_mem_singleton.mpr schemas
    refine Json.forall_scalars_object.mpr ?_
    simp only [List.mem_cons, List.not_mem_nil, or_false, forall_eq_or_imp, forall_eq]
    exact ⟨text _, info, paths, components⟩

theorem parse_jsonText (sound : d.definitions.Sound)
    (back : ∀ e ∈ d.definitions, ∀ v ∈ e.2.toJson.scalars, v.ReadsBack)
    (shallow : ∀ e ∈ d.definitions, d.dialect.levels + e.2.toJson.depth ≤ 127) :
    Document.parse d.jsonText.toList = .ok d.document := by
  have starts : d.jsonText.toList.head? = some '\x7b' := by
    obtain ⟨rest, starts⟩ := d.jsonText_cons
    rw [starts]
    rfl
  refine Document.parse_of_draft? starts (draft?_jsonText (readsBack_toJson back)) ?_
  unfold Document.ofDraft?
  rw [take?_selection shallow, Option.bind_eq_bind, Option.bind_some, ofNode?_fields sound]

end Reading

end IsolatedDocument

namespace Document

section Isolating
open Definitions

/-- The JSON artifact of every group of a document that was read is a document that can be read: the
same one with the isolated definitions only. Infinite numbers have no JSON form, so none may be
listed, and JSON is read to a depth of 127 only. -/
theorem parse_json {text : List Char} {d : Document} (parsed : parse text = .ok d)
    (finite : ∀ e ∈ d.definitions, ∀ node, Schema.Within node e.2 →
      ∀ x, .double x ∈ node.enumValues → x.isFinite)
    (readable : ∀ e ∈ d.definitions, ∀ node, Schema.Within node e.2 →
      ∀ x, node.Holds (.double x) → x.isFinite → x.ReadsBack)
    (shallow : ∀ e ∈ d.definitions, d.dialect.levels + e.2.toJson.depth ≤ 127)
    {separator : Char} {g : Group} (member : g ∈ d.groups separator) (fileName : String) :
    ∃ artifact, Generator.json.generate (d.isolate g) fileName = .ok artifact ∧
      parse artifact.toList = .ok { d with definitions := (d.isolate g).definitions } := by
  have sound := sound_of_parse parsed
  have part := partOf_isolate member sound.distinct
  have inside : ∀ e ∈ (d.isolate g).definitions, e ∈ d.definitions :=
    fun e isolated => mem_of_lookup (part.same e isolated)
  refine ⟨(d.isolate g).jsonText, rfl, ?_⟩
  refine IsolatedDocument.parse_jsonText ⟨part.distinct, fun e isolated => ?_⟩ ?_ ?_
  · exact sound.each e (inside e isolated)
  · intro e isolated
    have known := inside e isolated
    refine (sound.each e known).readsBack fun node below x held => ?_
    refine readable e known node below x held ?_
    rcases held with listed | ⟨f, extra, member⟩
    · exact finite e known node below x listed
    · rw [← (sound.each e known node below).extraSettled f extra] at member
      exact Json.isFinite_of_mem_settled member
  · exact fun e isolated => shallow e (inside e isolated)

/-- A listed double, a further keyword and a reference between the definitions of the group. -/
theorem parse_json_shop :
    let half : Double := .finite false 4503599627370496 1021
    let level : Schema :=
      { keywords :=
          { enum := some [.double half, .int 2], extra := [("min", .scalar (.int 0))] } }
    let price : Schema := { properties := [("level", .reference "#/definitions/Shop.Level")] }
    let d : Document := { definitions := [("Shop.Level", level), ("Shop.Price", price)] }
    let g : Group := ⟨"Shop", d.definitions⟩
    let text := "\x7b\"definitions\":\x7b\"Shop.Level\":\x7b\"enum\":[0.5,2],\"min\":0\x7d," ++
      "\"Shop.Price\":\x7b\"properties\":\x7b\"level\":\x7b\"$ref\":\"#/definitions/Shop.Level\"" ++
      "\x7d\x7d\x7d\x7d\x7d"
    parse text.toList = .ok d ∧ g ∈ d.groups '.' ∧
      ∃ artifact, Generator.json.generate (d.isolate g) "Shop.json" = .ok artifact ∧
        parse artifact.toList = .ok { d with definitions := (d.isolate g).definitions } := by
  intro half level price d g text
  have parsed : parse text.toList = .ok d := by
    let j : Json := .object [("definitions", .object [
      ("Shop.Level", .object [("enum", .array [.scalar (.double half), .scalar (.int 2)]),
        ("min", .scalar (.int 0))]),
      ("Shop.Price", .object [("properties", .object [
        ("level", .object [("$ref", .text "#/definitions/Shop.Level")])])])])]
    have starts : text.toList.head? = some '\x7b' := by decide +kernel
    have lexed : Json.Token.lex? text.toList = some j.tokens := by decide +kernel
    exact parse_of_lex? starts lexed rfl
  have member : g ∈ d.groups '.' := by
    have all : ∀ e ∈ d.definitions, (namespaceKey '.' e.1 == "Shop") = true := by decide +kernel
    refine List.mem_map.mpr ⟨"Shop", by decide +kernel, ?_⟩
    rw [List.filter_eq_self.mpr all]
  have back : half.ReadsBack := by
    have written : half.text Json.doubleFormat = "0.5" := by decide +kernel
    refine ⟨⟨false, ['0'], some ['5'], none⟩, ?_, by decide +kernel⟩
    rw [written]
    rfl
  have doubles : ∀ e ∈ d.definitions, ∀ node, Schema.Within node e.2 →
      ∀ x, node.Holds (.double x) → x = half := by
    have none (target : String) : ∀ node, Schema.Within node (.reference target) →
        ∀ x, node.Holds (.double x) → x = half := by
      refine Schema.forall_within_iff.mpr ⟨?_, nofun⟩
      intro x held
      rcases held with listed | ⟨_, inside, _⟩
      · cases listed
      · cases inside
    refine List.forall_mem_cons.mpr ⟨?_, List.forall_mem_singleton.mpr ?_⟩
    · refine Schema.forall_within_iff.mpr ⟨?_, nofun⟩
      simp [Schema.Holds, Schema.enumValues, level, Json.scalars]
    · refine Schema.forall_within_iff.mpr ⟨?_, List.forall_mem_singleton.mpr (none _)⟩
      simp [Schema.Holds, Schema.enumValues, price]
  refine ⟨parsed, member, parse_json parsed ?_ ?_ ?_ member "Shop.json"⟩
  · intro e inside node below x listed
    rw [doubles e inside node below x (.inl listed)]
    rfl
  · intro e inside node below x held _
    exact doubles e inside node below x held ▸ back
  · decide +kernel

end Isolating

end Document
end SchemaSplit
