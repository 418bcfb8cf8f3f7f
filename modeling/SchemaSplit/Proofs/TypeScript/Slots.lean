import SchemaSplit.Artifact
import SchemaSplit.Proofs.TypeScript.Constants
import SchemaSplit.Proofs.TypeScript.Literal

/-!
The slots of a module: the places where its text holds the name of a property or a listed text. Each of
them is read as what it was written for, and the reading goes on exactly with what was written behind
it. So neither a name nor a value can bring text of its own into a module.
-/

namespace SchemaSplit.TypeScript

open Literal

inductive Mark where
  | optional
  | required
  | definite
  deriving DecidableEq

namespace Mark

def text : Mark → String
  | optional => "?: "
  | required => ": "
  | definite => "!: "

def ofOptional (other : Mark) (isOptional : Bool) : Mark := if isOptional then optional else other

theorem text_ofOptional (other : Mark) (isOptional : Bool) :
    (ofOptional other isOptional).text = if isOptional then "?: " else other.text := by
  cases isOptional <;> rfl

theorem part?_text (letters : Letters) (mark : Mark) (rest : String) :
    part? letters (mark.text ++ rest).toList = none := by
  have ends {c : Char} (noEscape : c ≠ '\\') (ascii : c.toNat < 128) (noPart : ¬ isIdentifierChar c)
      (cs : List Char) : part? letters (c :: cs) = none := by
    rw [part?_cons noEscape, letters.part_ascii c ascii, if_neg noPart]
  rw [String.toList_append]
  cases mark <;> exact ends (by decide) (by decide) (by decide) _

end Mark

/-- A stretch of the text of a module, where the slots are told from all other text. -/
inductive Stretch where
  | text (s : String)
  | property (name : String) (mark : Mark)
  | value (s : String)
  deriving DecidableEq

namespace Stretch

def content : Stretch → String
  | text s => s
  | property name mark => keyText name ++ mark.text
  | value s => literalText (.string s)

def render (ss : List Stretch) : String := Piece.render (ss.map fun s => .text s.content)

def ofScalar : Scalar → Stretch
  | .string s => value s
  | v => text (literalText v)

def parenthesized (isNeeded : Bool) (ss : List Stretch) : List Stretch :=
  if isNeeded then text "(" :: ss ++ [text ")"] else ss

@[simp] theorem render_nil : render [] = "" := Piece.render_nil

@[simp] theorem render_cons (s : Stretch) (ss : List Stretch) :
    render (s :: ss) = s.content ++ render ss := Piece.render_cons _ _

@[simp] theorem render_append (ss ts : List Stretch) :
    render (ss ++ ts) = render ss ++ render ts := by
  rw [render, List.map_append, Piece.render_append, render, render]

@[simp] theorem content_ofScalar (v : Scalar) : (ofScalar v).content = literalText v := by
  cases v <;> rfl

theorem render_parenthesized (isNeeded : Bool) (ss : List Stretch) :
    render (parenthesized isNeeded ss) = parenthesize isNeeded (render ss) := by
  cases isNeeded
  · rfl
  · simp [parenthesized, parenthesize, content, String.append_assoc]

theorem render_flatMap {α : Type} (f : α → List Stretch) (items : List α) :
    render (items.flatMap f) = String.join (items.map fun item => render (f item)) := by
  rw [render, List.map_flatMap, Piece.render_flatMap]
  rfl

theorem render_intercalate (separator : String) (sss : List (List Stretch)) :
    render ([text separator].intercalate sss) = separator.intercalate (sss.map render) := by
  induction sss with
  | nil => simp
  | cons ss rest ih =>
    cases rest with
    | nil => simp
    | cons ts rest =>
      rw [List.intercalate_cons_cons, List.map_cons, List.map_cons, String.intercalate_cons_cons,
        ← List.map_cons, ← ih]
      simp [content, String.append_assoc]

/-- A slot is read as what is in it, whatever is written behind, and the reading stops there. -/
def IsReadBefore (letters : Letters) (others : List Char → Option (String × List Char))
    (rest : String) (stretch : Stretch) : Prop :=
  match stretch with
  | text _ => True
  | property name mark =>
    propertyName? letters others (stretch.content ++ rest).toList =
      some (name, (mark.text ++ rest).toList)
  | value s => stringLiteral? (stretch.content ++ rest).toList = some (s, rest.toList)

theorem isReadBefore (letters : Letters) (others : List Char → Option (String × List Char))
    (rest : String) (stretch : Stretch) : stretch.IsReadBefore letters others rest := by
  cases stretch with
  | text s => trivial
  | property name mark =>
    rw [IsReadBefore, content, String.append_assoc, String.toList_append]
    exact propertyName?_keyText name |>.mpr fun _ => mark.part?_text letters rest
  | value s =>
    rw [IsReadBefore, content, literalText, String.toList_append, String.toList_ofList]
    exact stringLiteral?_stringLiteral s rest.toList

end Stretch

open Stretch

namespace TypeExpr

mutual

def stretches : TypeExpr → List Stretch
  | primitive p => [.text p.text]
  | array element => parenthesized element.isCompound element.stretches ++ [.text "[]"]
  | union members => [.text " | "].intercalate (memberStretches false members)
  | intersection members => [.text " & "].intercalate (memberStretches true members)
  | object [] => [.text "\x7b\x7d"]
  | object (m :: rest) =>
    .text "\x7b " :: [.text "; "].intercalate (propertyStretches (m :: rest)) ++ [.text " \x7d"]
  | record k v => .text "Record<" :: k.stretches ++ .text ", " :: v.stretches ++ [.text ">"]
  | literal v => [.ofScalar v]
  | named name => [.text name]
termination_by structural t => t

def memberStretches (wrapped : Bool) : List TypeExpr → List (List Stretch)
  | [] => []
  | t :: rest => parenthesized (wrapped && t.isUnion) t.stretches :: memberStretches wrapped rest
termination_by structural ts => ts

def propertyStretches : List (Member TypeExpr) → List (List Stretch)
  | [] => []
  | m :: rest => onePropertyStretches m :: propertyStretches rest
termination_by structural ms => ms

def onePropertyStretches : Member TypeExpr → List Stretch
  | ⟨name, type, isOptional, _⟩ =>
    .property name (.ofOptional .required isOptional) :: type.stretches
termination_by structural m => m

end

mutual

theorem render_stretches (t : TypeExpr) : render t.stretches = t.text := by
  cases t with
  | primitive p => simp [stretches, text, content]
  | array element => simp [stretches, text, content, render_parenthesized, render_stretches element]
  | union members => rw [stretches, text, render_intercalate, render_memberStretches]
  | intersection members => rw [stretches, text, render_intercalate, render_memberStretches]
  | object members =>
    cases members with
    | nil => simp [stretches, text, content]
    | cons m rest =>
      simp [stretches, text, content, render_intercalate, render_propertyStretches,
        String.append_assoc]
  | record k v =>
    simp [stretches, text, content, render_stretches k, render_stretches v, String.append_assoc]
  | literal v => simp [stretches, text]
  | named name => simp [stretches, text, content]
termination_by structural t

theorem render_memberStretches (wrapped : Bool) (ts : List TypeExpr) :
    (memberStretches wrapped ts).map render = memberTexts wrapped ts := by
  cases ts with
  | nil => rfl
  | cons t rest =>
    rw [memberStretches, memberTexts, List.map_cons, render_parenthesized, render_stretches t,
      render_memberStretches wrapped rest]
termination_by structural ts

theorem render_propertyStretches (ms : List (Member TypeExpr)) :
    (propertyStretches ms).map render = propertyTexts ms := by
  cases ms with
  | nil => rfl
  | cons m rest =>
    rw [propertyStretches, propertyTexts, List.map_cons, render_onePropertyStretches m,
      render_propertyStretches rest]
termination_by structural ms

theorem render_onePropertyStretches (m : Member TypeExpr) :
    render (onePropertyStretches m) = propertyText m := by
  rcases m with ⟨name, type, isOptional, description⟩
  rw [onePropertyStretches, propertyText, render_cons, render_stretches type, content,
    Mark.text_ofOptional]
  rfl
termination_by structural m

end

end TypeExpr

def memberLineStretches (other : Mark) (members : List (Member TypeExpr)) : List Stretch :=
  members.flatMap fun m =>
    .text (docComment "  " m.description ++ "  ") ::
      .property m.name (.ofOptional other m.isOptional) :: m.type.stretches ++ [.text ";\n"]

theorem render_memberLineStretches (other : Mark) (members : List (Member TypeExpr)) :
    render (memberLineStretches other members) = String.join (members.map fun m =>
      docComment "  " m.description ++ "  " ++ keyText m.name ++
        (if m.isOptional then "?: " else other.text) ++ m.type.text ++ ";\n") := by
  rw [memberLineStretches, render_flatMap]
  congr 2
  funext m
  simp only [List.cons_append, render_append, render_cons, render_nil, TypeExpr.render_stretches]
  simp only [content, Mark.text_ofOptional, String.append_empty, String.append_assoc]

theorem render_interfaceLineStretches (members : List (Member TypeExpr)) :
    render (memberLineStretches .required members) = interfaceMembers members := by
  rw [render_memberLineStretches, interfaceMembers]
  congr 2
  funext m
  rcases m with ⟨name, type, isOptional, description⟩
  simp only [TypeExpr.propertyText, Mark.text, String.append_assoc]

theorem render_classLineStretches (members : List (Member TypeExpr)) :
    render (memberLineStretches .definite members) = classMembers members :=
  render_memberLineStretches .definite members

def interfaceStretches (name : String) (bases : List String) (members : List (Member TypeExpr)) :
    List Stretch :=
  .text ("export interface " ++ name ++
      (if bases.isEmpty then "" else " extends " ++ ", ".intercalate bases) ++ " \x7b\n") ::
    memberLineStretches .required members ++ [.text "\x7d\n"]

theorem render_interfaceStretches (name : String) (bases : List String)
    (members : List (Member TypeExpr)) :
    render (interfaceStretches name bases members) = interfaceText name bases members := by
  unfold interfaceStretches interfaceText
  simp only [List.cons_append, render_append, render_cons, render_nil, render_interfaceLineStretches]
  simp only [content, String.append_empty, String.append_assoc]

def classStretches (name : String) (base : Option String) (members : List (Member TypeExpr))
    (hasInterface hasClone : Bool) : List Stretch :=
  .text ("export class " ++ name ++ ((base.map (" extends " ++ ·)).getD "") ++
      (if hasInterface then " implements I" ++ name else "") ++ " \x7b\n") ::
    memberLineStretches .definite members ++
    .text ((if hasInterface then
        (if members.isEmpty then "" else "\n") ++ constructorText name base.isSome
      else "") ++
      (if hasClone then
        (if hasInterface || !members.isEmpty then "\n" else "") ++ cloneText name
      else "") ++ "\x7d\n") ::
    (if hasInterface then
      .text "\n" :: interfaceStretches ("I" ++ name) (base.map ("I" ++ ·)).toList members
    else [])

theorem render_classStretches (name : String) (base : Option String)
    (members : List (Member TypeExpr)) (hasInterface hasClone : Bool) :
    render (classStretches name base members hasInterface hasClone) =
      classText name base members hasInterface hasClone := by
  unfold classStretches classText
  simp only [List.cons_append, render_append, render_cons, render_classLineStretches]
  cases hasInterface
  · simp only [Bool.false_eq_true, if_false, render_nil, content, String.append_assoc]
  · simp only [if_true, render_cons, render_interfaceStretches, content, String.append_assoc]

def nameOfKey (key : String) : String := (keyName? .ascii key).getD key

theorem nameOfKey_keyText (name : String) : nameOfKey (keyText name) = name := by
  rw [nameOfKey, keyName?_keyText, Option.getD_some]

def constantStretches (key : String) (v : Scalar) : List Stretch :=
  [.text "  ", .property (nameOfKey key) .required, .ofScalar v, .text ",\n"]

def constantsStretches (name : String) (values : List (String × Scalar)) : List Stretch :=
  .text ("export const " ++ name ++ " = \x7b\n") ::
    values.flatMap (fun (key, v) => constantStretches key v) ++
    [.text ("\x7d as const;\n\n" ++
      "export type " ++ name ++ " = (typeof " ++ name ++ ")[keyof typeof " ++ name ++ "];\n")]

def Body.IsKeyed : Body → Prop
  | constants values => ∀ e ∈ values, ∃ name, e.1 = keyText name
  | _ => True

theorem render_constantsStretches (name : String) {values : List (String × Scalar)}
    (keyed : (Body.constants values).IsKeyed) :
    render (constantsStretches name values) = constantsText name values := by
  have lines : render (values.flatMap fun (key, v) => constantStretches key v) =
      String.join (values.map fun (key, v) => "  " ++ key ++ ": " ++ literalText v ++ ",\n") := by
    rw [render_flatMap]
    refine congrArg String.join (List.map_congr_left ?_)
    rintro ⟨key, v⟩ inside
    obtain ⟨name, rfl⟩ := keyed _ inside
    simp only [constantStretches, render_cons, render_nil, content_ofScalar]
    simp only [content, Mark.text, nameOfKey_keyText, String.append_empty, String.append_assoc]
  unfold constantsStretches constantsText
  simp only [List.cons_append, render_append, render_cons, render_nil, lines]
  simp only [content, String.append_empty, String.append_assoc]

namespace Declaration

def stretches (d : Declaration) : List Stretch :=
  .text (docComment "" d.description) ::
    match d.body with
    | .interfaceType bases members => interfaceStretches d.name bases members
    | .classType base members hasInterface hasClone =>
      classStretches d.name base members hasInterface hasClone
    | .aliasType type =>
      .text ("export type " ++ d.name ++ " = ") :: type.stretches ++ [.text ";\n"]
    | .constants values => constantsStretches d.name values

theorem render_stretches {d : Declaration} (keyed : d.body.IsKeyed) :
    render d.stretches = d.text := by
  rcases d with ⟨name, description, body⟩
  rw [stretches, text, render_cons]
  cases body with
  | interfaceType bases members => rw [render_interfaceStretches]; rfl
  | classType base members hasInterface hasClone => rw [render_classStretches]; rfl
  | aliasType type => simp [content, TypeExpr.render_stretches, String.append_assoc]
  | constants values => rw [render_constantsStretches name keyed]; rfl

end Declaration

theorem isKeyed_objectBody (settings : Settings) (bases : List String)
    (members : List (Member TypeExpr)) : (objectBody settings bases members).IsKeyed := by
  unfold objectBody
  split <;> trivial

theorem isKeyed_of_bodyOf {c : Context} {definition : String} {s : Schema} {body : Body}
    (made : bodyOf c definition s = .ok body) : body.IsKeyed := by
  cases bodyOf_cases made with
  | constants listed constants =>
    cases (bodyOf_of_values listed).symm.trans made
    intro e inside
    rw [constantsOf_eq_zip] at inside
    obtain ⟨name, -, key⟩ := List.mem_map.mp (List.of_mem_zip inside).1
    exact ⟨name, key.symm⟩
  | aliasType => trivial
  | object => exact isKeyed_objectBody _ _ _

namespace Module

def stretches (m : Module) : List Stretch :=
  .text (String.join (m.header.map (· ++ "\n"))) ::
    m.declarations.flatMap fun d => .text "\n" :: d.stretches

/-- The stretches of a module that is made from a document make up its text. -/
theorem render_stretches {settings : Settings} {d : IsolatedDocument} {fileName : String} {m : Module}
    (made : moduleOf settings d fileName = .ok m) : render m.stretches = m.text := by
  rw [stretches, text, render_cons, render_flatMap]
  refine congrArg (_ ++ String.join ·) (List.map_congr_left fun declaration inside => ?_)
  obtain ⟨definition, -, madeBody, -⟩ := (declarations_of_moduleOf made).2.exists_left inside
  rw [render_cons, Declaration.render_stretches (isKeyed_of_bodyOf madeBody)]
  rfl

end Module

end SchemaSplit.TypeScript

namespace SchemaSplit.Generator

open TypeScript Literal

/-- A listed text is read as itself, and a key as the name that it was made of, with all that follows
    left over. For a key without quotes no character may follow that goes on with it. Hence names that
    differ have keys that differ. In the text of a module each name of a property and each listed text
    is read so where it stands. -/
theorem typeScript_slots_read (letters : Letters)
    (others : List Char → Option (String × List Char)) :
    (∀ s rest, stringLiteral? (stringLiteral s.toList ++ rest) = some (s, rest)) ∧
      (∀ name rest,
        propertyName? letters others (propertyKey name.toList ++ rest) = some (name, rest) ↔
          (isPlainKey name.toList → part? letters rest = none)) ∧
      Function.Injective keyText ∧
      ∀ settings d fileName text, (typeScript settings).generate d fileName = .ok text →
        ∃ m, moduleOf settings d fileName = .ok m ∧ text = Stretch.render m.stretches ∧
          ∀ before stretch after, m.stretches = before ++ stretch :: after →
            stretch.IsReadBefore letters others (Stretch.render after) := by
  have reads (name : String) (rest : List Char) :
      propertyName? letters others (propertyKey name.toList ++ rest) = some (name, rest) ↔
        (isPlainKey name.toList → part? letters rest = none) := by
    rw [← propertyName?_keyText, keyText, String.toList_ofList]
  refine ⟨stringLiteral?_stringLiteral, reads, ?_, ?_⟩
  · intro name other same
    have keys : propertyKey name.toList = propertyKey other.toList := String.ofList_injective same
    have first := (reads name []).mpr fun _ => rfl
    have second := (reads other []).mpr fun _ => rfl
    rw [keys, second] at first
    exact (Prod.mk.inj (Option.some.inj first)).1.symm
  · intro settings d fileName text made
    obtain ⟨m, converted, rfl⟩ := Except.map_eq_ok.mp made
    refine ⟨m, converted, (Module.render_stretches converted).symm, ?_⟩
    exact fun before stretch after _ => stretch.isReadBefore letters others _

def quotes : IsolatedDocument where
  key := "Quotes"
  info := {}
  dialect := .openapi3
  specVersion := Dialect.openapi3.defaultSpecVersion
  definitions :=
    [("Quote", { Schema.ofType "object" with
        properties := [("mark", { keywords := { enum := some [.string "\x22;\n", .string "\\"] } }),
          ("\x22: never; //", Schema.ofType "string")] })]

theorem typeScript_slots_read_quotes :
    ∃ (text : String) (m : Module), (typeScript {}).generate quotes "Quotes" = .ok text ∧
      text = Stretch.render m.stretches ∧
      [.property "mark" .optional, .value "\x22;\n", .value "\\",
        .property "\x22: never; //" .optional] ⊆ m.stretches ∧
      ∀ before stretch after, m.stretches = before ++ stretch :: after →
        stretch.IsReadBefore .ascii (fun _ => none) (Stretch.render after) := by
  obtain ⟨text, made⟩ : ∃ text, (typeScript {}).generate quotes "Quotes" = .ok text :=
    Except.isOk_iff.mp (by decide +kernel)
  obtain ⟨m, converted, written, read⟩ :=
    (typeScript_slots_read .ascii fun _ => none).2.2.2 _ _ _ _ made
  have slots : (moduleOf {} quotes "Quotes").toOption.any fun m =>
      [.property "mark" .optional, .value "\x22;\n", .value "\\",
        .property "\x22: never; //" .optional] ⊆ m.stretches := by
    decide +kernel
  rw [converted] at slots
  exact ⟨text, m, made, written, of_decide_eq_true slots, read⟩

end SchemaSplit.Generator
