import SchemaSplit.TypeScript.Conversion
import SchemaSplit.Text.Blank

namespace SchemaSplit.TypeScript

def Primitive.text : Primitive → String
  | string => "string"
  | number => "number"
  | boolean => "boolean"
  | null => "null"
  | undefined => "undefined"
  | unknown => "unknown"

def literalText : Scalar → String
  | .string s => String.ofList (stringLiteral s.toList)
  | .int n => toString n
  | .double d => d.text doubleFormat
  | .bool b => if b then "true" else "false"
  | .null => "null"

def keyText (name : String) : String := String.ofList (propertyKey name.toList)

def parenthesize (isNeeded : Bool) (text : String) : String :=
  if isNeeded then "(" ++ text ++ ")" else text

namespace TypeExpr

def isUnion : TypeExpr → Bool
  | union _ => true
  | _ => false

def isCompound : TypeExpr → Bool
  | union _ | intersection _ => true
  | _ => false

mutual

def text : TypeExpr → String
  | primitive p => p.text
  | array element => parenthesize element.isCompound element.text ++ "[]"
  | union members => " | ".intercalate (memberTexts false members)
  | intersection members => " & ".intercalate (memberTexts true members)
  | object [] => "\x7b\x7d"
  | object (m :: rest) => "\x7b " ++ "; ".intercalate (propertyTexts (m :: rest)) ++ " \x7d"
  | record key value => "Record<" ++ key.text ++ ", " ++ value.text ++ ">"
  | literal value => literalText value
  | named name => name
termination_by structural t => t

def memberTexts (wrapped : Bool) : List TypeExpr → List String
  | [] => []
  | t :: rest => parenthesize (wrapped && t.isUnion) t.text :: memberTexts wrapped rest
termination_by structural ts => ts

def propertyTexts : List (Member TypeExpr) → List String
  | [] => []
  | m :: rest => propertyText m :: propertyTexts rest
termination_by structural ms => ms

def propertyText : Member TypeExpr → String
  | ⟨name, type, isOptional, _⟩ => keyText name ++ (if isOptional then "?: " else ": ") ++ type.text
termination_by structural m => m

end
end TypeExpr

def guardComment : List Char → List Char
  | '*' :: '/' :: rest => '*' :: '\\' :: '/' :: guardComment rest
  | c :: rest => c :: guardComment rest
  | [] => []

def linesOf (text : List Char) : List (List Char) :=
  match (splitBy (· == '\n') text).reverse with
  | [] :: before => before.reverse
  | lines => lines.reverse

def commentLines (description : String) : List (List Char) :=
  (linesOf (guardComment (Text.trim description.toList))).map Text.trimEnd

def docComment (indent : String) (description : Option String) : String :=
  match description.map commentLines with
  | none | some [] => ""
  | some [line] => indent ++ "/** " ++ String.ofList line ++ " */\n"
  | some lines =>
    let middle := lines.map fun line =>
      indent ++ (if line.isEmpty then " *" else " * " ++ String.ofList line) ++ "\n"
    indent ++ "/**\n" ++ String.join middle ++ indent ++ " */\n"

def interfaceMembers (members : List (Member TypeExpr)) : String :=
  String.join (members.map fun m =>
    docComment "  " m.description ++ "  " ++ TypeExpr.propertyText m ++ ";\n")

def classMembers (members : List (Member TypeExpr)) : String :=
  String.join (members.map fun m =>
    docComment "  " m.description ++ "  " ++ keyText m.name ++
      (if m.isOptional then "?: " else "!: ") ++ m.type.text ++ ";\n")

def constructorText (name : String) (hasBase : Bool) : String :=
  "  constructor(data?: I" ++ name ++ ") \x7b\n" ++
  (if hasBase then "    super(data);\n"
  else
    "    if (data) \x7b\n" ++
    "      for (const property in data) \x7b\n" ++
    "        if (Object.prototype.hasOwnProperty.call(data, property)) \x7b\n" ++
    "          (this as any)[property] = (data as any)[property];\n" ++
    "        \x7d\n" ++
    "      \x7d\n" ++
    "    \x7d\n") ++
  "  \x7d\n"

def cloneText (name : String) : String :=
  "  clone(): " ++ name ++ " \x7b\n" ++
  "    const json = JSON.parse(JSON.stringify(this));\n" ++
  "    const result = new " ++ name ++ "();\n" ++
  "    Object.assign(result, json);\n" ++
  "    return result;\n" ++
  "  \x7d\n"

def interfaceText (name : String) (bases : List String) (members : List (Member TypeExpr)) :
    String :=
  "export interface " ++ name ++
    (if bases.isEmpty then "" else " extends " ++ ", ".intercalate bases) ++ " \x7b\n" ++
    interfaceMembers members ++ "\x7d\n"

/-- A class, and behind it the interface that its constructor takes. An empty line stands before
    each part but the first. -/
def classText (name : String) (base : Option String) (members : List (Member TypeExpr))
    (hasInterface hasClone : Bool) : String :=
  "export class " ++ name ++ ((base.map (" extends " ++ ·)).getD "") ++
    (if hasInterface then " implements I" ++ name else "") ++ " \x7b\n" ++
    classMembers members ++
    (if hasInterface then
      (if members.isEmpty then "" else "\n") ++ constructorText name base.isSome
    else "") ++
    (if hasClone then
      (if hasInterface || !members.isEmpty then "\n" else "") ++ cloneText name
    else "") ++
    "\x7d\n" ++
    (if hasInterface then "\n" ++ interfaceText ("I" ++ name) (base.map ("I" ++ ·)).toList members
    else "")

def constantsText (name : String) (values : List (String × Scalar)) : String :=
  "export const " ++ name ++ " = \x7b\n" ++
    String.join (values.map fun (key, value) =>
      "  " ++ key ++ ": " ++ literalText value ++ ",\n") ++
    "\x7d as const;\n\n" ++
    "export type " ++ name ++ " = (typeof " ++ name ++ ")[keyof typeof " ++ name ++ "];\n"

namespace Declaration

def text (d : Declaration) : String :=
  docComment "" d.description ++
    match d.body with
    | .interfaceType bases members => interfaceText d.name bases members
    | .classType base members hasInterface hasClone =>
      classText d.name base members hasInterface hasClone
    | .aliasType type => "export type " ++ d.name ++ " = " ++ type.text ++ ";\n"
    | .constants values => constantsText d.name values

end Declaration

def Module.text (m : Module) : String :=
  String.join (m.header.map (· ++ "\n")) ++ String.join (m.declarations.map ("\n" ++ ·.text))

end SchemaSplit.TypeScript
