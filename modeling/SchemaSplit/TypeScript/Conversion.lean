import SchemaSplit.TypeScript.Declaration
import SchemaSplit.TypeScript.Name
import SchemaSplit.TypeScript.Shape
import SchemaSplit.Double.Format
import SchemaSplit.Error

namespace SchemaSplit.TypeScript

inductive ReferenceFault where
  | unsupported (reference : String)
  | unresolved (reference : String)
  deriving DecidableEq, Repr, Inhabited

structure Context where
  scope : Scope
  identifiers : Identifiers
  settings : Settings

namespace Context

def resolve (c : Context) (reference : String) : Except ReferenceFault String :=
  match referenceName? c.scope.root reference with
  | none => .error (.unsupported reference)
  | some name =>
    match c.identifiers.lookup name with
    | some identifier => .ok identifier
    | none => .error (.unresolved reference)

def nullPrimitive (c : Context) : Primitive :=
  match c.settings.nullValue with
  | .null => .null
  | .undefined => .undefined

def nullType (c : Context) : TypeExpr := .primitive c.nullPrimitive

def admitNull (c : Context) (isNullable : Bool) (t : TypeExpr) : TypeExpr :=
  if isNullable then t.orPrimitive c.nullPrimitive else t

def stringType (c : Context) (format : Option String) : TypeExpr :=
  match format with
  | some "date" | some "date-time" =>
    match c.settings.dateTimeType with
    | .date => .named "Date"
    | .string => .primitive .string
  | some "binary" => .named "Blob"
  | _ => .primitive .string

end Context

/-- The value of a discriminator that stands for a member of a union. With a mapping it is the
    first value mapped to the member. -/
def discriminatorValue? (root : String) (d : Discriminator) (reference : String) :
    Option String :=
  match d with
  | .object _ (some mapping) => (mapping.find? (·.2 == reference)).map (·.1)
  | _ => referenceName? root reference

def tagged (d : Discriminator) (value : String) (t : TypeExpr) : TypeExpr :=
  let property := match d with
    | .property name | .object name _ => name
  .intersection
    [.object [{ name := property, type := .literal (.string value), isOptional := false }], t]

def intersectionOf : List TypeExpr → TypeExpr
  | [t] => t
  | ts => .intersection ts

mutual

/-- The type of a node. A reference comes before members, members before listed values, and these
    before the type that the node states. -/
def typeOf (c : Context) : Schema → Except ReferenceFault TypeExpr
  | ⟨k, properties, items, additional, allOf, anyOf, oneOf⟩ => do
    let objectType : Except ReferenceFault TypeExpr := do
      let record ← recordTypeOf c additional
      match properties with
      | [] => return record.getD .unknownRecord
      | properties =>
        let object := TypeExpr.object (← membersOf c k.required properties)
        return match record with
          | some record => .intersection [object, record]
          | none => object
    let statedType (name : String) : Except ReferenceFault TypeExpr :=
      match name with
      | "string" => return c.stringType k.format
      | "number" | "integer" => return .primitive .number
      | "boolean" => return .primitive .boolean
      | "null" => return c.nullType
      | "file" => return .named "Blob"
      | "array" => return .array (← itemTypeOf c items)
      | "object" => objectType
      | _ => return .primitive .unknown
    let type ←
      match k.ref with
      | some reference => TypeExpr.named <$> c.resolve reference
      | none =>
        if !allOf.isEmpty then
          let types ← typesOf c allOf
          if properties.isEmpty then pure (intersectionOf types)
          else
            let object ← objectType
            pure (intersectionOf (types ++ [object]))
        else if !anyOf.isEmpty then TypeExpr.union <$> typesOf c anyOf
        else if !oneOf.isEmpty then TypeExpr.union <$> branchesOf c k.discriminator oneOf
        else
          match k.enum, k.type with
          | some (value :: values), _ =>
            pure (.union ((value :: values).map .literal))
          | _, some (.single name) => statedType name
          | _, some (.multiple names) =>
            match ← (names.filter (· != "null")).mapM statedType with
            | [] => pure c.nullType
            | [t] => pure t
            | ts => pure (.union ts)
          | _, none =>
            if !properties.isEmpty || additional.isSome then objectType
            else pure (.primitive .unknown)
    return c.admitNull k.isNullable type
termination_by structural s => s

def typesOf (c : Context) : List Schema → Except ReferenceFault (List TypeExpr)
  | [] => return []
  | s :: rest => do return (← typeOf c s) :: (← typesOf c rest)
termination_by structural ss => ss

def branchesOf (c : Context) (d : Option Discriminator) :
    List Schema → Except ReferenceFault (List TypeExpr)
  | [] => return []
  | s :: rest => do
    let type ← typeOf c s
    let value := d.bind fun d =>
      (s.ref.bind (discriminatorValue? c.scope.root d)).map (d, ·)
    let branch := match value with
      | some (d, value) => tagged d value type
      | none => type
    return branch :: (← branchesOf c d rest)
termination_by structural ss => ss

def itemTypeOf (c : Context) : Option Schema → Except ReferenceFault TypeExpr
  | none => return .primitive .unknown
  | some s => typeOf c s
termination_by structural s => s

def recordTypeOf (c : Context) :
    Option (Additional Schema) → Except ReferenceFault (Option TypeExpr)
  | none => return none
  | some (.any allowed) => return if allowed then some .unknownRecord else none
  | some (.schema s) => do return some (.recordOf (← typeOf c s))
termination_by structural a => a

def membersOf (c : Context) (required : List String) :
    List (String × Schema) → Except ReferenceFault (List (Member TypeExpr))
  | [] => return []
  | (name, s) :: rest => do
    let type ← typeOf c s
    let member : Member TypeExpr :=
      { name, type, isOptional := !required.contains name, description := s.description }
    return member :: (← membersOf c required rest)
termination_by structural ps => ps

end

/-- The format of numbers in TypeScript: all digits and no power of ten. -/
def doubleFormat : Double.Format where
  tie := .up
  positional? := none
  wholeEnd := ""
  infinity := "inf"
  minusInfinity := "-inf"
  nan := "NaN"

def numberKey (text : String) : String :=
  "VALUE_" ++ String.join (text.toList.map fun c =>
    if c = '-' then "MINUS_" else if c = '.' then "_" else c.toString)

def constantKey : Scalar → String
  | .string s => s
  | .int n => numberKey (toString n)
  | .double d => numberKey (d.text doubleFormat)
  | .bool true => "TRUE"
  | .bool false => "FALSE"
  | .null => "NULL"

def givenNames? (count : Nat) : Option Json → Option (List String)
  | some (.array items) =>
    if items.length = count then
      items.mapM fun
        | .scalar (.string name) => some name
        | _ => none
    else none
  | _ => none

def constantsOf (values : List Scalar) (names : Option Json) : List (String × Scalar) :=
  let keys := (givenNames? values.length names).getD (values.map constantKey)
  ((distinctNames [] keys).map fun key => String.ofList (propertyKey key.toList)).zip values

/-- What a definition declares: constants for listed values, an interface or a class where it has
    a shape, and an alias of its type otherwise. -/
def bodyOf (c : Context) (definition : String) (s : Schema) : Except ReferenceFault Body := do
  if !s.enumValues.isEmpty then
    return .constants (constantsOf s.enumValues (s.keywords.extra.lookup "x-enumNames"))
  match shape? c.scope c.settings.typeStyle [definition] s with
  | none => return .aliasType (← typeOf c s)
  | some shape =>
    let bases ← shape.bases.mapM c.resolve
    let members ← shape.parts.mapM fun part => membersOf c part.required part.properties
    match c.settings.typeStyle with
    | .interfaceType => return .interfaceType bases members.flatten
    | .classType =>
      return .classType bases.head? members.flatten c.settings.constructorInterface
        c.settings.cloneMethod

def declarationOf (c : Context) (document : String) (definition identifier : String) (s : Schema) :
    Except GenerationError Declaration :=
  match bodyOf c definition s with
  | .ok body => .ok ⟨identifier, s.description, body⟩
  | .error (.unsupported reference) => .error (.unsupportedReference definition reference)
  | .error (.unresolved reference) => .error (.unresolvedReference document definition reference)

def Context.ofDocument (settings : Settings) (d : IsolatedDocument) : Context where
  scope := .ofDocument d
  identifiers := TypeScript.identifiers settings.hasInterfaces d.names
  settings := settings

def header (settings : Settings) (d : IsolatedDocument) (fileName : String) : List String :=
  ["/* eslint-disable */",
   "// Generated by nsplit. Do not edit.",
   "// Source: " ++ d.info.title ++ " " ++ d.info.version,
   "// Group: " ++ d.key,
   "// Client: " ++ settings.clientName fileName]

def moduleOf (settings : Settings) (d : IsolatedDocument) (fileName : String) :
    Except GenerationError Module := do
  let c := Context.ofDocument settings d
  let declarations ← (d.definitions.zip (c.identifiers.map (·.2))).mapM
    fun ((name, s), identifier) => declarationOf c d.key name identifier s
  return ⟨header settings d fileName, declarations⟩

end SchemaSplit.TypeScript
