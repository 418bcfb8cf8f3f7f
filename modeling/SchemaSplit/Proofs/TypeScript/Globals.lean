import SchemaSplit.Proofs.TypeScript.Module

namespace SchemaSplit.TypeScript

open Piece

namespace Piece

def text? : Piece → Option String
  | text s => some s
  | _ => none

def texts (ps : List Piece) : List String := ps.filterMap text?

@[simp] theorem texts_nil : texts [] = [] := rfl

@[simp] theorem texts_text (s : String) (ps : List Piece) : texts (text s :: ps) = s :: texts ps := rfl

@[simp] theorem texts_mentioned (s : String) (ps : List Piece) :
    texts (mentioned s :: ps) = texts ps := rfl

@[simp] theorem texts_append (ps qs : List Piece) : texts (ps ++ qs) = texts ps ++ texts qs :=
  List.filterMap_append

end Piece

/-- The words of methods that refer to nothing outside of them: what they are called by, what they
    bind, and a keyword that is not reserved. -/
def methodWords : List String :=
  ["as", "clone", "constructor", "data", "json", "property", "result"]

/-- The names outside of methods that their code refers to. Of a path it is the first one. -/
def freeWords (code : String) : List String :=
  let paths := splitBy (fun c => !(isIdentifierChar c || c == '.')) code.toList
  let words := paths.map fun path => String.ofList (path.takeWhile (· != '.'))
  words.filter fun word => !word.isEmpty && !reservedWords.contains word && !methodWords.contains word

def methodGlobals : List String := ["JSON", "Object"]

namespace Body

def hasClone : Body → Bool
  | classType _ _ _ hasClone => hasClone
  | _ => false

/-- A class has a method that refers to a global value: one that clones refers to both, a constructor
    to `Object` unless it leaves its work to a base. -/
def RefersTo (settings : Settings) (name : String) (body : Body) : Prop :=
  body.isClass ∧
    (name = "JSON" ∧ settings.cloneMethod ∨
    name = "Object" ∧
      (settings.cloneMethod ∨ settings.constructorInterface ∧ body.bases = []))

def methodPieces (name : String) : Body → List Piece
  | classType base members hasInterface hasClone =>
    (if hasInterface then
      [.text ((if members.isEmpty then "" else "\n") ++ "  constructor(data?: "),
       .mentioned ("I" ++ name), .text (constructorRest base.isSome)]
    else []) ++
    (if hasClone then
      .text (if hasInterface || !members.isEmpty then "\n" else "") :: clonePieces name
    else [])
  | _ => []

end Body

namespace Declaration

theorem methodPieces_infix (d : Declaration) : d.body.methodPieces d.name <:+: d.pieces := by
  rcases d with ⟨name, description, body⟩
  cases body with
  | classType base members hasInterface hasClone =>
    refine List.infix_cons ⟨.text "export class " :: .declared name :: clause " extends " base.toList ++
      clause " implements " (if hasInterface then ["I" ++ name] else []) ++ .text " \x7b\n" ::
      memberLines classMark members, .text "\x7d\n" :: (if hasInterface then
      .text "\n" :: interfacePieces ("I" ++ name) (base.map ("I" ++ ·)).toList members else []), ?_⟩
    simp only [Body.methodPieces, classPieces, List.cons_append, List.append_assoc]
  | interfaceType | aliasType | constants => exact List.nil_infix

def globalValues (d : Declaration) : List String :=
  (texts (d.body.methodPieces d.name)).flatMap freeWords

theorem freeWords_constructorRest (hasBase : Bool) :
    freeWords (constructorRest hasBase) = if hasBase then [] else ["Object"] := by
  cases hasBase with
  | true => decide +kernel
  | false =>
    -- Short texts are faster to evaluate than the one that they make up.
    simp only [freeWords, constructorRest, Bool.false_eq_true, if_false, String.toList_append]
    decide +kernel

theorem freeWords_clonePieces (name : String) :
    (texts (clonePieces name)).flatMap freeWords = ["JSON", "JSON", "Object"] := by
  have same : texts (clonePieces name) = texts (clonePieces "") := rfl
  rw [same]
  decide +kernel

theorem globalValues_eq (d : Declaration) :
    d.globalValues =
      (if d.body.hasInterface && d.body.bases.isEmpty then ["Object"] else []) ++
        (if d.body.hasClone then ["JSON", "JSON", "Object"] else []) := by
  have opening (isFirst : Bool) :
      freeWords ((if isFirst then "" else "\n") ++ "  constructor(data?: ") = [] := by
    cases isFirst <;> decide +kernel
  have feed (isLater : Bool) : freeWords (if isLater then "\n" else "") = [] := by
    cases isLater <;> decide +kernel
  rcases d with ⟨name, description, body⟩
  cases body with
  | classType base members hasInterface hasClone =>
    rw [globalValues, Body.methodPieces, texts_append, List.flatMap_append]
    congr 1
    · cases hasInterface with
      | false => rfl
      | true =>
        rw [if_pos rfl, texts_text, texts_mentioned, texts_text, texts_nil, List.flatMap_cons,
          List.flatMap_singleton, opening, freeWords_constructorRest, List.nil_append]
        cases base <;> rfl
    · cases hasClone with
      | false => rfl
      | true =>
        rw [if_pos rfl, texts_text, List.flatMap_cons, feed, List.nil_append]
        exact freeWords_clonePieces name
  | interfaceType | aliasType | constants => rfl

theorem mem_globalValues {d : Declaration} {name : String} :
    name ∈ d.globalValues ↔
      name = "JSON" ∧ d.body.hasClone ∨
      name = "Object" ∧ (d.body.hasClone ∨ d.body.hasInterface ∧ d.body.bases = []) := by
  rw [globalValues_eq, List.mem_append]
  cases d.body.hasClone
  all_goals by_cases alone : d.body.hasInterface ∧ d.body.bases = []
  all_goals simp [alone]
  all_goals tauto

theorem mem_methodGlobals {d : Declaration} {name : String} (used : name ∈ d.globalValues) :
    name ∈ methodGlobals := by
  obtain ⟨rfl, -⟩ | ⟨rfl, -⟩ := mem_globalValues.mp used <;> decide

end Declaration

theorem hasClone_of_bodyOf {c : Context} {definition : String} {s : Schema} {body : Body}
    (made : bodyOf c definition s = .ok body) :
    body.hasClone = (body.isClass && c.settings.cloneMethod) := by
  cases bodyOf_cases made with
  | constants | aliasType => rfl
  | object =>
    unfold objectBody
    split <;> rfl

section Identifiers

variable {name : String} (noDigits : name.toList.all fun c => !c.isDigit)
include noDigits

theorem ne_numbered (stem : String) (k : Nat) : name ≠ stem ++ toString k := by
  rintro rfl
  obtain ⟨c, inside⟩ := List.exists_mem_of_ne_nil _ (Nat.toDigits_ne_nil : Nat.toDigits 10 k ≠ [])
  have digit := Nat.isDigit_of_mem_toDigits (by decide) (by decide) inside
  have same : (toString k).toList = Nat.toDigits 10 k := String.toList_ofList
  rw [String.toList_append, same, List.all_append, Bool.and_eq_true, List.all_eq_true,
    List.all_eq_true] at noDigits
  simpa [digit] using noDigits.2 c inside

/-- An identifier without digits is the own one of a definition. -/
theorem exists_of_mem_assignIdentifiers {interfaces : Bool} {used definitions : List String}
    (member : name ∈ assignIdentifiers interfaces used definitions) :
    ∃ definition ∈ definitions, typeIdentifier definition = name := by
  induction definitions generalizing used with
  | nil => cases member
  | cons definition rest ih =>
    rw [assignIdentifiers_cons] at member
    rcases List.mem_cons.mp member with first | later
    · obtain ⟨-, own | ⟨-, k, -, numbered, -⟩⟩ := nextIdentifier_spec interfaces used definition
      · exact ⟨definition, List.mem_cons_self, (first.trans own).symm⟩
      · exact absurd (first.trans numbered) (ne_numbered noDigits _ k)
    · obtain ⟨other, inside, same⟩ := ih later
      exact ⟨other, List.mem_cons_of_mem _ inside, same⟩

/-- Without interfaces, the first definition that has it as its own one gets it. -/
theorem mem_assignIdentifiers_iff {used definitions : List String} (unused : name ∉ used) :
    name ∈ assignIdentifiers false used definitions ↔
      ∃ definition ∈ definitions, typeIdentifier definition = name := by
  refine ⟨exists_of_mem_assignIdentifiers noDigits, ?_⟩
  rintro ⟨definition, inside, same⟩
  induction definitions generalizing used with
  | nil => cases inside
  | cons first rest ih =>
    rw [assignIdentifiers_cons, List.mem_cons]
    by_cases here : name = nextIdentifier false used first
    · exact .inl here
    · right
      have other : definition ≠ first := by
        rintro rfl
        obtain ⟨-, own | ⟨taken, -⟩⟩ := nextIdentifier_spec false used definition
        · exact here (own.trans same).symm
        · apply taken
          rw [areUnused_iff, same]
          simpa [claims] using unused
      apply ih _ ((List.mem_cons.mp inside).resolve_left other)
      rw [List.mem_append, not_or]
      exact ⟨by simpa [claims] using here, unused⟩

end Identifiers

/-- The text of a module refers to a global: to the type of this name, or to the value in a method. -/
def Module.UsesGlobal (m : Module) (name : String) : Prop :=
  name ∈ globalTypes ∧ name ∈ mentionedNames m.pieces ∨ ∃ d ∈ m.declarations, name ∈ d.globalValues

def Module.Hides (m : Module) (name : String) : Prop :=
  m.UsesGlobal name ∧ name ∈ declaredNames m.pieces

section Module

variable {settings : Settings} {d : IsolatedDocument} {m : Module} {fileName name : String}

theorem disjoint_globalTypes (made : moduleOf settings d fileName = .ok m) :
    (declaredNames m.pieces).Disjoint globalTypes := by
  obtain ⟨-, apart⟩ := assignIdentifiers_distinct settings.hasInterfaces globalTypes d.names
  exact fun name inside => apart ((declaredNames_sublist made).subset inside)

/-- No interface is named like a value that methods refer to. -/
theorem mem_declaredNames_iff (isValue : name ∈ methodGlobals) :
    name ∈ declaredNames m.pieces ↔ name ∈ m.declarations.map (·.name) := by
  have noInterface (declared : String) : name ≠ "I" ++ declared := by
    rintro rfl
    have heads : ∀ value ∈ methodGlobals, value.toList.head? ≠ some 'I' := by decide
    apply heads _ isValue
    rw [String.toList_append]
    rfl
  rw [Module.declaredNames_pieces, List.mem_flatMap, List.mem_map]
  refine exists_congr fun declaration => and_congr_right fun _ => ?_
  rw [mem_claims, or_iff_left fun isInterface => noInterface _ isInterface.2, eq_comm]

theorem mem_globalValues_of_bodyOf {definition : String × Schema} {declaration : Declaration}
    (madeBody : bodyOf (.ofDocument settings d) definition.1 definition.2 = .ok declaration.body) :
    name ∈ declaration.globalValues ↔ declaration.body.RefersTo settings name := by
  rw [Declaration.mem_globalValues, Body.RefersTo, hasClone_of_bodyOf madeBody,
    (hasInterface_of_bodyOf madeBody).1, Bool.and_eq_true, Bool.and_eq_true]
  tauto

theorem hides_iff (made : moduleOf settings d fileName = .ok m) :
    m.Hides name ↔
      name ∈ m.declarations.map (·.name) ∧
        ∃ declaration ∈ m.declarations, declaration.body.RefersTo settings name := by
  have values : (∃ declaration ∈ m.declarations, name ∈ declaration.globalValues) ↔
      ∃ declaration ∈ m.declarations, declaration.body.RefersTo settings name := by
    refine exists_congr fun declaration => and_congr_right fun inside => ?_
    obtain ⟨definition, -, madeBody, -⟩ := (declarations_of_moduleOf made).2.exists_left inside
    exact mem_globalValues_of_bodyOf madeBody
  have isValue : (∃ declaration ∈ m.declarations, name ∈ declaration.globalValues) →
      name ∈ methodGlobals := by
    rintro ⟨declaration, -, used⟩
    exact Declaration.mem_methodGlobals used
  rw [← values]
  constructor
  · rintro ⟨⟨isType, -⟩ | used, declared⟩
    · exact absurd isType (disjoint_globalTypes made declared)
    · exact ⟨(mem_declaredNames_iff (isValue used)).mp declared, used⟩
  · rintro ⟨declared, used⟩
    exact ⟨.inr used, (mem_declaredNames_iff (isValue used)).mpr declared⟩

/-- A definition is named like a value that methods refer to only by its own identifier. Without
    interfaces it is the first one with this identifier that gets it. -/
theorem mem_names_iff (made : moduleOf settings d fileName = .ok m) (isValue : name ∈ methodGlobals) :
    (name ∈ m.declarations.map (·.name) → ∃ definition ∈ d.names, typeIdentifier definition = name) ∧
      (¬ settings.hasInterfaces → (∃ definition ∈ d.names, typeIdentifier definition = name) →
        name ∈ m.declarations.map (·.name)) := by
  have noDigits : ∀ value ∈ methodGlobals, value.toList.all fun c => !c.isDigit := by decide
  have unused : ∀ value ∈ methodGlobals, value ∉ globalTypes := by decide
  rw [(declarations_of_moduleOf made).1]
  refine ⟨exists_of_mem_assignIdentifiers (noDigits name isValue), fun alone => ?_⟩
  rw [Bool.not_eq_true] at alone
  rw [alone]
  exact (mem_assignIdentifiers_iff (noDigits name isValue) (unused name isValue)).mpr

end Module

end SchemaSplit.TypeScript

namespace SchemaSplit.Generator

open TypeScript

/-- The names of types in a module are declared in it or global, and the values that its methods refer
    to are `JSON` and `Object`. No declaration hides a global type. One of those values is hidden exactly
    if a definition has its name as an identifier and a class has a method that refers to it. -/
theorem typeScript_hides_iff {settings : Settings} {d : IsolatedDocument} {fileName text : String}
    (made : (typeScript settings).generate d fileName = .ok text) :
    ∃ m : Module, moduleOf settings d fileName = .ok m ∧ text = Piece.render m.pieces ∧
      (∀ declaration ∈ m.declarations,
        declaration.body.methodPieces declaration.name <:+: declaration.pieces ∧
        ∀ name ∈ declaration.globalValues, name ∈ methodGlobals) ∧
      (∀ name ∈ Piece.mentionedNames m.pieces,
        name ∈ Piece.declaredNames m.pieces ∨ m.UsesGlobal name) ∧
      (Piece.declaredNames m.pieces).Disjoint globalTypes ∧
      (∀ name, m.Hides name ↔
        name ∈ m.declarations.map (·.name) ∧
          ∃ declaration ∈ m.declarations, declaration.body.RefersTo settings name) ∧
      ∀ name ∈ methodGlobals,
        (name ∈ m.declarations.map (·.name) →
          ∃ definition ∈ d.names, typeIdentifier definition = name) ∧
        (¬ settings.hasInterfaces → (∃ definition ∈ d.names, typeIdentifier definition = name) →
          name ∈ m.declarations.map (·.name)) := by
  obtain ⟨m, converted, rfl⟩ := Except.map_eq_ok.mp made
  refine ⟨m, converted, m.render_pieces.symm, ?_, ?_, disjoint_globalTypes converted,
    fun name => hides_iff converted, fun name => mem_names_iff converted⟩
  · intro declaration _
    refine ⟨declaration.methodPieces_infix, fun name used => ?_⟩
    exact Declaration.mem_methodGlobals used
  · intro name mentioned
    refine (closed_of_moduleOf converted mentioned).imp_right fun isGlobal => .inl ⟨?_, mentioned⟩
    exact (by decide : writtenGlobals ⊆ globalTypes) isGlobal

/-- Classes with both methods, none of which has the name of a value. -/
theorem typeScript_hides_iff_shop :
    ∃ m, moduleOf shopClasses shop "Shop" = .ok m ∧ ∀ name, ¬ m.Hides name := by
  obtain ⟨text, made⟩ := Except.isOk_iff.mp
    (by decide +kernel : ((typeScript shopClasses).generate shop "Shop").isOk)
  obtain ⟨m, converted, -, -, -, -, hides, names⟩ := typeScript_hides_iff made
  refine ⟨m, converted, fun name hidden => ?_⟩
  obtain ⟨declared, _, _, _, isValue⟩ := (hides name).mp hidden
  have isValue : name ∈ methodGlobals := by
    obtain ⟨rfl, -⟩ | ⟨rfl, -⟩ := isValue <;> decide
  obtain ⟨definition, inside, same⟩ := (names name isValue).1 declared
  have others : ∀ definition ∈ shop.names, typeIdentifier definition ∉ methodGlobals := by
    decide +kernel
  exact others definition inside (same ▸ isValue)

/-- Classes that are named like the values that their methods refer to. -/
theorem typeScript_values_hidden :
    let settings : Settings := { typeStyle := .classType, cloneMethod := true }
    let d : IsolatedDocument := ⟨"A", {}, .openapi3, "3.0.1",
      [("A.Object", .ofType "object"), ("A.JSON", .ofType "object")]⟩
    ∃ m, moduleOf settings d "A" = .ok m ∧ m.Hides "Object" ∧ m.Hides "JSON" := by
  intro settings d
  obtain ⟨m, made⟩ := Except.isOk_iff.mp (by decide +kernel : (moduleOf settings d "A").isOk)
  obtain ⟨declaration, inside, madeBody, -⟩ :=
    (declarations_of_moduleOf made).2.exists_right List.mem_cons_self
  have isObject : declaration.body.isObject := by
    obtain ⟨shape, shaped⟩ := Option.isSome_iff_exists.mp
      (by decide +kernel : (shape? (.ofDocument d) settings.typeStyle ["A.Object"]
        (.ofType "object")).isSome)
    exact (isObject_of_shape madeBody rfl shaped).1
  have isClass := isClass_of_isObject rfl madeBody isObject
  have hidden {name : String} (isValue : name ∈ methodGlobals)
      (own : ∃ definition ∈ d.names, typeIdentifier definition = name) : m.Hides name := by
    apply (hides_iff made).mpr
    refine ⟨(mem_names_iff made isValue).2 (by decide) own, declaration, inside, ?_⟩
    rw [methodGlobals, List.mem_pair] at isValue
    exact ⟨isClass, isValue.imp (⟨·, rfl⟩) (⟨·, .inl rfl⟩)⟩
  refine ⟨m, made, hidden (by decide) ⟨"A.Object", ?_, by decide +kernel⟩,
    hidden (by decide) ⟨"A.JSON", ?_, by decide +kernel⟩⟩
  · exact List.mem_cons_self
  · exact List.mem_cons_of_mem _ List.mem_cons_self

end SchemaSplit.Generator
