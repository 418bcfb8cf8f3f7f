import SchemaSplit.TypeScript.Printer

namespace SchemaSplit.TypeScript

inductive Piece where
  | text (s : String)
  /-- The name of a type, where it is declared. -/
  | declared (name : String)
  /-- The name of a type, or of the constants declared with it, anywhere else. -/
  | mentioned (name : String)

namespace Piece

def content : Piece → String
  | text s | declared s | mentioned s => s

def declared? : Piece → Option String
  | declared name => some name
  | _ => none

def mentioned? : Piece → Option String
  | mentioned name => some name
  | _ => none

def render (ps : List Piece) : String := String.join (ps.map content)

def declaredNames (ps : List Piece) : List String := ps.filterMap declared?

def mentionedNames (ps : List Piece) : List String := ps.filterMap mentioned?

def parenthesized (isNeeded : Bool) (ps : List Piece) : List Piece :=
  if isNeeded then text "(" :: ps ++ [text ")"] else ps

@[simp] theorem render_nil : render [] = "" := String.join_nil

@[simp] theorem render_cons (p : Piece) (ps : List Piece) :
    render (p :: ps) = p.content ++ render ps := String.join_cons

@[simp] theorem render_append (ps qs : List Piece) : render (ps ++ qs) = render ps ++ render qs := by
  rw [render, List.map_append, String.join_append, render, render]

theorem render_parenthesized (isNeeded : Bool) (ps : List Piece) :
    render (parenthesized isNeeded ps) = parenthesize isNeeded (render ps) := by
  cases isNeeded
  · rfl
  · simp [parenthesized, parenthesize, content, String.append_assoc]

theorem render_intercalate (separator : String) (pss : List (List Piece)) :
    render ([text separator].intercalate pss) = separator.intercalate (pss.map render) := by
  induction pss with
  | nil => simp
  | cons ps rest ih =>
    cases rest with
    | nil => simp
    | cons qs rest =>
      rw [List.intercalate_cons_cons, List.map_cons, List.map_cons, String.intercalate_cons_cons,
        ← List.map_cons, ← ih]
      simp [content, String.append_assoc]

theorem render_flatMap {α : Type} (f : α → List Piece) (items : List α) :
    render (items.flatMap f) = String.join (items.map fun item => render (f item)) := by
  induction items with
  | nil => simp
  | cons item rest ih => rw [List.flatMap_cons, render_append, ih, List.map_cons, String.join_cons]

section Names

variable {name : String} {ps qs : List Piece}

@[simp] theorem mentionedNames_append :
    mentionedNames (ps ++ qs) = mentionedNames ps ++ mentionedNames qs := List.filterMap_append

@[simp] theorem declaredNames_append :
    declaredNames (ps ++ qs) = declaredNames ps ++ declaredNames qs := List.filterMap_append

@[simp] theorem mentionedNames_nil : mentionedNames [] = [] := rfl

@[simp] theorem declaredNames_nil : declaredNames [] = [] := rfl

@[simp] theorem mentionedNames_text (s : String) :
    mentionedNames (text s :: ps) = mentionedNames ps := rfl

@[simp] theorem mentionedNames_declared (s : String) :
    mentionedNames (declared s :: ps) = mentionedNames ps := rfl

@[simp] theorem mentionedNames_mentioned (s : String) :
    mentionedNames (mentioned s :: ps) = s :: mentionedNames ps := rfl

@[simp] theorem declaredNames_text (s : String) :
    declaredNames (text s :: ps) = declaredNames ps := rfl

@[simp] theorem declaredNames_declared (s : String) :
    declaredNames (declared s :: ps) = s :: declaredNames ps := rfl

@[simp] theorem declaredNames_mentioned (s : String) :
    declaredNames (mentioned s :: ps) = declaredNames ps := rfl

@[simp] theorem mentionedNames_parenthesized (isNeeded : Bool) :
    mentionedNames (parenthesized isNeeded ps) = mentionedNames ps := by
  cases isNeeded <;> simp [parenthesized]

@[simp] theorem declaredNames_parenthesized (isNeeded : Bool) :
    declaredNames (parenthesized isNeeded ps) = declaredNames ps := by
  cases isNeeded <;> simp [parenthesized]

@[simp] theorem mentionedNames_intercalate (separator : String) (pss : List (List Piece)) :
    mentionedNames ([text separator].intercalate pss) = pss.flatMap mentionedNames := by
  induction pss with
  | nil => rfl
  | cons ps rest ih =>
    cases rest with
    | nil => simp
    | cons qs rest => simp [List.intercalate_cons_cons, ih]

@[simp] theorem declaredNames_intercalate (separator : String) (pss : List (List Piece)) :
    declaredNames ([text separator].intercalate pss) = pss.flatMap declaredNames := by
  induction pss with
  | nil => rfl
  | cons ps rest ih =>
    cases rest with
    | nil => simp
    | cons qs rest => simp [List.intercalate_cons_cons, ih]

theorem mentionedNames_flatMap {α : Type} (f : α → List Piece) (items : List α) :
    mentionedNames (items.flatMap f) = items.flatMap fun item => mentionedNames (f item) :=
  List.filterMap_flatMap

theorem declaredNames_flatMap {α : Type} (f : α → List Piece) (items : List α) :
    declaredNames (items.flatMap f) = items.flatMap fun item => declaredNames (f item) :=
  List.filterMap_flatMap

end Names
end Piece

open Piece

namespace TypeExpr

mutual

def pieces : TypeExpr → List Piece
  | primitive p => [.text p.text]
  | array element => parenthesized element.isCompound element.pieces ++ [.text "[]"]
  | union members => [.text " | "].intercalate (memberPieces false members)
  | intersection members => [.text " & "].intercalate (memberPieces true members)
  | object [] => [.text "\x7b\x7d"]
  | object (m :: rest) =>
    .text "\x7b " :: [.text "; "].intercalate (propertyPieces (m :: rest)) ++ [.text " \x7d"]
  | record key value =>
    .mentioned "Record" :: .text "<" :: key.pieces ++ .text ", " :: value.pieces ++ [.text ">"]
  | literal value => [.text (literalText value)]
  | named name => [.mentioned name]
termination_by structural t => t

def memberPieces (wrapped : Bool) : List TypeExpr → List (List Piece)
  | [] => []
  | t :: rest => parenthesized (wrapped && t.isUnion) t.pieces :: memberPieces wrapped rest
termination_by structural ts => ts

def propertyPieces : List (Member TypeExpr) → List (List Piece)
  | [] => []
  | m :: rest => onePropertyPieces m :: propertyPieces rest
termination_by structural ms => ms

def onePropertyPieces : Member TypeExpr → List Piece
  | ⟨name, type, isOptional, _⟩ =>
    .text (keyText name ++ (if isOptional then "?: " else ": ")) :: type.pieces
termination_by structural m => m

end

mutual

theorem render_pieces (t : TypeExpr) : render t.pieces = t.text := by
  cases t with
  | primitive p => simp [pieces, text, content]
  | array element =>
    simp [pieces, text, content, render_parenthesized, render_pieces element]
  | union members => rw [pieces, text, render_intercalate, render_memberPieces]
  | intersection members => rw [pieces, text, render_intercalate, render_memberPieces]
  | object members =>
    cases members with
    | nil => simp [pieces, text, content]
    | cons m rest =>
      simp [pieces, text, content, render_intercalate, render_propertyPieces, String.append_assoc]
  | record key value =>
    simp only [pieces, text, List.cons_append, render_cons, render_append, render_nil, content,
      render_pieces key, render_pieces value, String.append_assoc, String.append_empty]
    rw [← String.append_assoc]
    rfl
  | literal value => simp [pieces, text, content]
  | named name => simp [pieces, text, content]
termination_by structural t

theorem render_memberPieces (wrapped : Bool) (ts : List TypeExpr) :
    (memberPieces wrapped ts).map render = memberTexts wrapped ts := by
  cases ts with
  | nil => rfl
  | cons t rest =>
    rw [memberPieces, memberTexts, List.map_cons, render_parenthesized, render_pieces t,
      render_memberPieces wrapped rest]
termination_by structural ts

theorem render_propertyPieces (ms : List (Member TypeExpr)) :
    (propertyPieces ms).map render = propertyTexts ms := by
  cases ms with
  | nil => rfl
  | cons m rest =>
    rw [propertyPieces, propertyTexts, List.map_cons, render_onePropertyPieces m,
      render_propertyPieces rest]
termination_by structural ms

theorem render_onePropertyPieces (m : Member TypeExpr) :
    render (onePropertyPieces m) = propertyText m := by
  rcases m with ⟨name, type, isOptional, description⟩
  rw [onePropertyPieces, propertyText, render_cons, render_pieces type]
  rfl
termination_by structural m

end

def names (t : TypeExpr) : List String := mentionedNames t.pieces

theorem mentionedNames_memberPieces (wrapped : Bool) (ts : List TypeExpr) :
    (memberPieces wrapped ts).flatMap mentionedNames = ts.flatMap names := by
  induction ts with
  | nil => rfl
  | cons t rest ih =>
    rw [memberPieces, List.flatMap_cons, List.flatMap_cons, mentionedNames_parenthesized, ih]
    rfl

theorem mentionedNames_onePropertyPieces (m : Member TypeExpr) :
    mentionedNames (onePropertyPieces m) = m.type.names := by
  cases m
  rfl

theorem mentionedNames_propertyPieces (ms : List (Member TypeExpr)) :
    (propertyPieces ms).flatMap mentionedNames = ms.flatMap fun m => m.type.names := by
  induction ms with
  | nil => rfl
  | cons m rest ih =>
    rw [propertyPieces, List.flatMap_cons, List.flatMap_cons, mentionedNames_onePropertyPieces, ih]

@[simp] theorem names_primitive (p : Primitive) : (primitive p).names = [] := rfl

@[simp] theorem names_literal (value : Scalar) : (literal value).names = [] := rfl

@[simp] theorem names_named (name : String) : (named name).names = [name] := rfl

@[simp] theorem names_array (t : TypeExpr) : (array t).names = t.names := by
  simp [names, pieces]

@[simp] theorem names_union (ts : List TypeExpr) : (union ts).names = ts.flatMap names := by
  rw [names, pieces, mentionedNames_intercalate, mentionedNames_memberPieces]

@[simp] theorem names_intersection (ts : List TypeExpr) :
    (intersection ts).names = ts.flatMap names := by
  rw [names, pieces, mentionedNames_intercalate, mentionedNames_memberPieces]

@[simp] theorem names_object (ms : List (Member TypeExpr)) :
    (object ms).names = ms.flatMap fun m => m.type.names := by
  cases ms with
  | nil => rfl
  | cons m rest =>
    rw [← mentionedNames_propertyPieces]
    simp [names, pieces]

@[simp] theorem names_record (key value : TypeExpr) :
    (record key value).names = "Record" :: key.names ++ value.names := by
  simp [names, pieces]

mutual

theorem declaredNames_pieces (t : TypeExpr) : declaredNames t.pieces = [] := by
  cases t with
  | primitive p => rfl
  | array element => simp [pieces, declaredNames_pieces element]
  | union members => rw [pieces, declaredNames_intercalate, declaredNames_memberPieces]
  | intersection members => rw [pieces, declaredNames_intercalate, declaredNames_memberPieces]
  | object members =>
    cases members with
    | nil => rfl
    | cons m rest => simp [pieces, declaredNames_propertyPieces (m :: rest)]
  | record key value => simp [pieces, declaredNames_pieces key, declaredNames_pieces value]
  | literal value => rfl
  | named name => rfl
termination_by structural t

theorem declaredNames_memberPieces (wrapped : Bool) (ts : List TypeExpr) :
    (memberPieces wrapped ts).flatMap declaredNames = [] := by
  cases ts with
  | nil => rfl
  | cons t rest =>
    rw [memberPieces, List.flatMap_cons, declaredNames_parenthesized, declaredNames_pieces t,
      declaredNames_memberPieces wrapped rest, List.append_nil]
termination_by structural ts

theorem declaredNames_propertyPieces (ms : List (Member TypeExpr)) :
    (propertyPieces ms).flatMap declaredNames = [] := by
  cases ms with
  | nil => rfl
  | cons m rest =>
    rw [propertyPieces, List.flatMap_cons, declaredNames_onePropertyPieces m,
      declaredNames_propertyPieces rest, List.append_nil]
termination_by structural ms

theorem declaredNames_onePropertyPieces (m : Member TypeExpr) :
    declaredNames (onePropertyPieces m) = [] := by
  rcases m with ⟨name, type, isOptional, description⟩
  exact declaredNames_pieces type
termination_by structural m

end

end TypeExpr

def memberLines (mark : Member TypeExpr → String) (members : List (Member TypeExpr)) :
    List Piece :=
  members.flatMap fun m =>
    .text (docComment "  " m.description ++ "  " ++ keyText m.name ++ mark m) ::
      m.type.pieces ++ [.text ";\n"]

def interfaceMark (m : Member TypeExpr) : String := if m.isOptional then "?: " else ": "

def classMark (m : Member TypeExpr) : String := if m.isOptional then "?: " else "!: "

def clause (keyword : String) (names : List String) : List Piece :=
  if names.isEmpty then []
  else .text keyword :: [.text ", "].intercalate (names.map fun name => [.mentioned name])

def interfacePieces (name : String) (bases : List String) (members : List (Member TypeExpr)) :
    List Piece :=
  .text "export interface " :: .declared name :: clause " extends " bases ++ .text " \x7b\n" ::
    memberLines interfaceMark members ++ [.text "\x7d\n"]

def constructorRest (hasBase : Bool) : String :=
  ") \x7b\n" ++
  (if hasBase then "    super(data);\n"
  else
    "    if (data) \x7b\n" ++
    "      for (const property in data) \x7b\n" ++
    "        if (Object.prototype.hasOwnProperty.call(data, property)) \x7b\n" ++
    "          (this as any)[property] = (data as any)[property];\n" ++
    "        \x7d\n" ++
    "      \x7d\n" ++
    "    \x7d\n") ++
  "  \x7d\n"

def clonePieces (name : String) : List Piece :=
  [.text "  clone(): ", .mentioned name,
   .text (" \x7b\n" ++ "    const json = JSON.parse(JSON.stringify(this));\n" ++
    "    const result = new "), .mentioned name,
   .text ("();\n" ++ "    Object.assign(result, json);\n" ++ "    return result;\n" ++ "  \x7d\n")]

def classPieces (name : String) (base : Option String) (members : List (Member TypeExpr))
    (hasInterface hasClone : Bool) : List Piece :=
  .text "export class " :: .declared name :: clause " extends " base.toList ++
    clause " implements " (if hasInterface then ["I" ++ name] else []) ++ .text " \x7b\n" ::
    memberLines classMark members ++
    (if hasInterface then
      [.text ((if members.isEmpty then "" else "\n") ++ "  constructor(data?: "),
       .mentioned ("I" ++ name), .text (constructorRest base.isSome)]
    else []) ++
    (if hasClone then
      .text (if hasInterface || !members.isEmpty then "\n" else "") :: clonePieces name
    else []) ++
    .text "\x7d\n" ::
    (if hasInterface then
      .text "\n" :: interfacePieces ("I" ++ name) (base.map ("I" ++ ·)).toList members
    else [])

def constantsPieces (name : String) (values : List (String × Scalar)) : List Piece :=
  [.text "export const ", .mentioned name,
   .text (" = \x7b\n" ++
    String.join (values.map fun (key, value) =>
      "  " ++ key ++ ": " ++ literalText value ++ ",\n") ++
    "\x7d as const;\n\n" ++ "export type "), .declared name, .text " = (typeof ",
   .mentioned name, .text ")[keyof typeof ", .mentioned name, .text "];\n"]

namespace Declaration

def pieces (d : Declaration) : List Piece :=
  .text (docComment "" d.description) ::
    match d.body with
    | .interfaceType bases members => interfacePieces d.name bases members
    | .classType base members hasInterface hasClone =>
      classPieces d.name base members hasInterface hasClone
    | .aliasType type =>
      .text "export type " :: .declared d.name :: .text " = " :: type.pieces ++ [.text ";\n"]
    | .constants values => constantsPieces d.name values

end Declaration

def Module.pieces (m : Module) : List Piece :=
  .text (String.join (m.header.map (· ++ "\n"))) ::
    m.declarations.flatMap fun d => .text "\n" :: d.pieces

theorem render_interfaceLines (members : List (Member TypeExpr)) :
    render (memberLines interfaceMark members) = interfaceMembers members := by
  rw [memberLines, interfaceMembers, render_flatMap]
  congr 2
  funext m
  rcases m with ⟨name, type, isOptional, description⟩
  simp [content, interfaceMark, TypeExpr.propertyText, TypeExpr.render_pieces, String.append_assoc]

theorem render_classLines (members : List (Member TypeExpr)) :
    render (memberLines classMark members) = classMembers members := by
  rw [memberLines, classMembers, render_flatMap]
  congr 2
  funext m
  simp [content, classMark, TypeExpr.render_pieces, String.append_assoc]

theorem render_clause (keyword : String) (names : List String) :
    render (clause keyword names) =
      if names.isEmpty then "" else keyword ++ ", ".intercalate names := by
  have same : names.map (render ∘ fun name => [.mentioned name]) = names := by
    induction names with
    | nil => rfl
    | cons name rest ih => simp [content, ih]
  rw [clause]
  split
  · rfl
  · rw [render_cons, render_intercalate, List.map_map, same]
    rfl

theorem render_interfacePieces (name : String) (bases : List String)
    (members : List (Member TypeExpr)) :
    render (interfacePieces name bases members) = interfaceText name bases members := by
  unfold interfacePieces interfaceText
  simp only [List.cons_append, render_append, render_cons, render_nil, render_clause,
    render_interfaceLines]
  simp only [content, String.append_empty, String.append_assoc]

theorem constructorText_eq (name : String) (hasBase : Bool) :
    constructorText name hasBase =
      "  constructor(data?: " ++ (("I" ++ name) ++ constructorRest hasBase) := by
  have opened : "  constructor(data?: I" = "  constructor(data?: " ++ "I" := rfl
  unfold constructorText constructorRest
  rw [opened]
  simp only [String.append_assoc]

theorem render_clonePieces (name : String) : render (clonePieces name) = cloneText name := by
  unfold clonePieces cloneText
  simp only [render_cons, render_nil]
  simp only [content, String.append_empty, String.append_assoc]

theorem render_extends (base : Option String) :
    render (clause " extends " base.toList) = (base.map (" extends " ++ ·)).getD "" := by
  cases base <;> simp [render_clause]

theorem render_implements (name : String) (hasInterface : Bool) :
    render (clause " implements " (if hasInterface then ["I" ++ name] else [])) =
      if hasInterface then " implements I" ++ name else "" := by
  cases hasInterface
  · rfl
  · have opened : " implements I" = " implements " ++ "I" := rfl
    rw [render_clause, if_pos rfl, if_pos rfl, opened, String.append_assoc]
    rfl

theorem render_classPieces (name : String) (base : Option String)
    (members : List (Member TypeExpr)) (hasInterface hasClone : Bool) :
    render (classPieces name base members hasInterface hasClone) =
      classText name base members hasInterface hasClone := by
  unfold classPieces classText
  simp only [List.cons_append, render_append, render_cons, render_extends, render_implements,
    render_classLines]
  cases hasInterface <;> cases hasClone <;>
    simp [content, render_interfacePieces, render_clonePieces, constructorText_eq,
      String.append_assoc]

theorem render_constantsPieces (name : String) (values : List (String × Scalar)) :
    render (constantsPieces name values) = constantsText name values := by
  unfold constantsPieces constantsText
  simp only [render_cons, render_nil]
  simp only [content, String.append_empty, String.append_assoc]

theorem Declaration.render_pieces (d : Declaration) : render d.pieces = d.text := by
  rcases d with ⟨name, description, body⟩
  rw [pieces, text, render_cons]
  cases body with
  | interfaceType bases members => rw [render_interfacePieces]; rfl
  | classType base members hasInterface hasClone => rw [render_classPieces]; rfl
  | aliasType type =>
    simp only [List.cons_append, render_append, render_cons, render_nil, TypeExpr.render_pieces]
    simp only [content, String.append_empty, String.append_assoc]
  | constants values => rw [render_constantsPieces]; rfl

theorem Module.render_pieces (m : Module) : render m.pieces = m.text := by
  rw [pieces, text, render_cons, render_flatMap]
  congr 3
  funext d
  rw [render_cons, Declaration.render_pieces]
  rfl

namespace Body

def hasInterface : Body → Bool
  | classType _ _ hasInterface _ => hasInterface
  | _ => false

def bases : Body → List String
  | interfaceType bases _ => bases
  | classType base _ _ _ => base.toList
  | _ => []

def members : Body → List (Member TypeExpr)
  | interfaceType _ members | classType _ members _ _ => members
  | _ => []

def alias? : Body → Option TypeExpr
  | aliasType type => some type
  | _ => none

def usedNames (body : Body) : List String :=
  body.bases.flatMap (claims body.hasInterface) ++ body.members.flatMap (·.type.names) ++
    body.alias?.toList.flatMap TypeExpr.names

end Body

theorem declaredNames_memberLines (mark : Member TypeExpr → String)
    (members : List (Member TypeExpr)) : declaredNames (memberLines mark members) = [] := by
  simp [memberLines, declaredNames_flatMap, TypeExpr.declaredNames_pieces]

theorem mentionedNames_memberLines (mark : Member TypeExpr → String)
    (members : List (Member TypeExpr)) :
    mentionedNames (memberLines mark members) = members.flatMap (·.type.names) := by
  simp [memberLines, mentionedNames_flatMap, TypeExpr.names]

theorem declaredNames_clause (keyword : String) (names : List String) :
    declaredNames (clause keyword names) = [] := by
  rw [clause]
  split <;> simp

theorem mentionedNames_clause (keyword : String) (names : List String) :
    mentionedNames (clause keyword names) = names := by
  rw [clause]
  split
  · rename_i none
    rw [List.isEmpty_iff.mp none]
    rfl
  · simp [List.flatMap_map]

theorem declaredNames_interfacePieces (name : String) (bases : List String)
    (members : List (Member TypeExpr)) :
    declaredNames (interfacePieces name bases members) = [name] := by
  simp [interfacePieces, declaredNames_clause, declaredNames_memberLines]

theorem mentionedNames_interfacePieces (name : String) (bases : List String)
    (members : List (Member TypeExpr)) :
    mentionedNames (interfacePieces name bases members) =
      bases ++ members.flatMap (·.type.names) := by
  simp [interfacePieces, mentionedNames_clause, mentionedNames_memberLines]

namespace Declaration

theorem declaredNames_pieces (d : Declaration) :
    declaredNames d.pieces = claims d.body.hasInterface d.name := by
  rcases d with ⟨name, description, body⟩
  cases body with
  | interfaceType bases members => exact declaredNames_interfacePieces name bases members
  | classType base members hasInterface hasClone =>
    cases hasInterface <;> cases hasClone <;>
      simp [pieces, classPieces, clonePieces, declaredNames_clause, declaredNames_memberLines,
        declaredNames_interfacePieces, Body.hasInterface, claims]
  | aliasType type =>
    simp [pieces, TypeExpr.declaredNames_pieces, Body.hasInterface, claims]
  | constants values => rfl

/-- A declaration mentions nothing but what it declares and what its body uses. -/
theorem mem_mentionedNames_pieces {d : Declaration} {name : String}
    (member : name ∈ mentionedNames d.pieces) :
    name ∈ claims d.body.hasInterface d.name ∨ name ∈ d.body.usedNames := by
  rcases d with ⟨own, description, body⟩
  cases body with
  | interfaceType bases members =>
    right
    simpa [pieces, mentionedNames_interfacePieces, Body.usedNames, Body.bases, Body.members,
      Body.alias?, Body.hasInterface, claims] using member
  | classType base members hasInterface hasClone =>
    cases hasInterface <;> cases hasClone <;> cases base <;>
      simp [pieces, classPieces, clonePieces, mentionedNames_clause, mentionedNames_memberLines,
        mentionedNames_interfacePieces, Body.usedNames, Body.bases, Body.members, Body.alias?,
        Body.hasInterface, claims] at member ⊢ <;> grind
  | aliasType type =>
    right
    simpa [pieces, Body.usedNames, Body.bases, Body.members, Body.alias?, TypeExpr.names]
      using member
  | constants values =>
    left
    simpa [pieces, constantsPieces, Body.hasInterface, claims] using member

end Declaration

theorem Module.declaredNames_pieces (m : Module) :
    declaredNames m.pieces =
      m.declarations.flatMap fun d => claims d.body.hasInterface d.name := by
  simp [pieces, declaredNames_flatMap, Declaration.declaredNames_pieces]

theorem Module.mem_mentionedNames_pieces {m : Module} {name : String} :
    name ∈ mentionedNames m.pieces ↔ ∃ d ∈ m.declarations, name ∈ mentionedNames d.pieces := by
  simp [pieces, mentionedNames_flatMap]

end SchemaSplit.TypeScript
