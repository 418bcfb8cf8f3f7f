import SchemaSplit.Width
import SchemaSplit.Schema.Basic
import SchemaSplit.Node.Draft

namespace SchemaSplit

def SchemaType.ofJson? : Json → Option SchemaType
  | .scalar (.string name) => some (.single name)
  | .array items =>
    .multiple <$> items.mapM fun
      | .scalar (.string name) => some name
      | _ => none
  | _ => none

namespace Discriminator

def mapping? : Json → Option (Option (List (String × String)))
  | .scalar .null => some none
  | .object fields => do
    return some <| lastWins <| ← fields.mapM fun
      | (value, .scalar (.string target)) => some (value, target)
      | _ => none
  | _ => none

def ofJson? : Json → Option Discriminator
  | .scalar (.string name) => some (.property name)
  | .object fields => do
    let names := fields.filter (·.1 == "propertyName")
    let mappings := fields.filter (·.1 == "mapping")
    let name ← match names with
      | [(_, .scalar (.string name))] => some name
      | _ => none
    let mapping ← match mappings with
      | [] => some none
      | [(_, m)] => mapping? m
      | _ => none
    return .object name mapping
  | _ => none

end Discriminator

/-- A whole number beyond 64 signed bits is listed as a double. -/
def Scalar.enumValue : Scalar → Scalar
  | .int n => if fitsSigned 64 n then .int n else .double (.ofInt n)
  | s => s

namespace Schema

inductive Field where
  | ref (value : Option String)
  | type (value : Option SchemaType)
  | format (value : Option String)
  | description (value : Option String)
  | properties (value : List (String × Schema))
  | required (value : List String)
  | items (value : Option Schema)
  | additional (value : Option (Additional Schema))
  | allOf (value : List Schema)
  | anyOf (value : List Schema)
  | oneOf (value : List Schema)
  | enum (value : Option (List Scalar))
  | nullable (value : Option Bool)
  | xNullable (value : Option Bool)
  | discriminator (value : Option Discriminator)
  | extra (name : String) (value : Json)

namespace Field

def slot? : Field → Option Nat
  | ref _ => some 0
  | type _ => some 1
  | format _ => some 2
  | description _ => some 3
  | properties _ => some 4
  | required _ => some 5
  | items _ => some 6
  | additional _ => some 7
  | allOf _ => some 8
  | anyOf _ => some 9
  | oneOf _ => some 10
  | enum _ => some 11
  | nullable _ => some 12
  | xNullable _ => some 13
  | discriminator _ => some 14
  | extra .. => none

end Field

def ofFields (fields : List Field) : Schema where
  keywords :=
    { ref := fields.findSome? fun | .ref v => v | _ => none
      type := fields.findSome? fun | .type v => v | _ => none
      format := fields.findSome? fun | .format v => v | _ => none
      description := fields.findSome? fun | .description v => v | _ => none
      required := (fields.findSome? fun | .required v => some v | _ => none).getD []
      enum := fields.findSome? fun | .enum v => v | _ => none
      nullable := fields.findSome? fun | .nullable v => v | _ => none
      xNullable := fields.findSome? fun | .xNullable v => v | _ => none
      discriminator := fields.findSome? fun | .discriminator v => v | _ => none
      extra := lastWins (fields.filterMap fun | .extra name v => some (name, v) | _ => none) }
  properties := (fields.findSome? fun | .properties v => some v | _ => none).getD []
  items := fields.findSome? fun | .items v => v | _ => none
  additional := fields.findSome? fun | .additional v => v | _ => none
  allOf := (fields.findSome? fun | .allOf v => some v | _ => none).getD []
  anyOf := (fields.findSome? fun | .anyOf v => some v | _ => none).getD []
  oneOf := (fields.findSome? fun | .oneOf v => some v | _ => none).getD []

def ofFields? (fields : List Field) : Option Schema :=
  if (fields.filterMap Field.slot?).Nodup then some (ofFields fields) else none

def enum? : Node → Option (List Scalar)
  | .list items _ => items.mapM fun
    | .leaf l => l.value?.map Scalar.enumValue
    | _ => none
  | _ => none

def plainField? (settled : Bool) (name : String) (n : Node) : Option Field :=
  match name with
  | "$ref" => .ref <$> n.optional settled (Node.text? settled)
  | "type" => .type <$> n.optional settled (fun n => n.json? >>= SchemaType.ofJson?)
  | "format" => .format <$> n.optional settled (Node.text? settled)
  | "description" => .description <$> n.optional settled (Node.text? settled)
  | "required" => .required <$> n.texts? settled
  | "enum" => .enum <$> n.optional settled enum?
  | "nullable" => .nullable <$> n.optional settled (Node.flag? settled)
  | "x-nullable" => .xNullable <$> n.optional settled (Node.flag? settled)
  | "discriminator" =>
    .discriminator <$> n.optional settled (fun n => n.json? >>= Discriminator.ofJson?)
  | _ => (fun j => .extra name j.settled) <$> n.json?

mutual

def ofNode? (settled : Bool) : Node → Option Schema
  | .map entries _ => fields? settled entries >>= ofFields?
  | .leaf l => if (l.under settled).isBlank then some {} else none
  | _ => none
termination_by structural n => n

def fields? (settled : Bool) : List (Node × Node) → Option (List Field)
  | [] => some []
  | (k, n) :: rest => do
    let name ← k.key? settled
    let field ← match name with
      | "properties" => .properties <$> properties? settled n
      | "items" => .items <$> items? settled n
      | "additionalProperties" => .additional <$> additional? settled n
      | "allOf" => .allOf <$> members? settled n
      | "anyOf" => .anyOf <$> members? settled n
      | "oneOf" => .oneOf <$> members? settled n
      | _ => plainField? settled name n
    return field :: (← fields? settled rest)
termination_by structural es => es

def properties? (settled : Bool) : Node → Option (List (String × Schema))
  | .map entries _ => lastWins <$> entries? settled entries
  | .leaf l => if (l.under settled).isBlank then some [] else none
  | _ => none
termination_by structural n => n

def entries? (settled : Bool) : List (Node × Node) → Option (List (String × Schema))
  | [] => some []
  | (k, n) :: rest => do
    return (← k.key? settled, ← ofNode? settled n) :: (← entries? settled rest)
termination_by structural es => es

def items? (settled : Bool) : Node → Option (Option Schema)
  | .map entries _ => some <$> (fields? settled entries >>= ofFields?)
  | .leaf l => if (l.under settled).present? = some false then some none else none
  | _ => none
termination_by structural n => n

/-- A truth value, or a schema in which every node can stand where any value may. -/
def additional? (settled : Bool) : Node → Option (Option (Additional Schema))
  | .map entries isSealed => do
    let _ ← (Node.map entries isSealed).json?
    return some (.schema (← fields? true entries >>= ofFields?))
  | .leaf l =>
    match (l.under settled).present? with
    | some true => (some ∘ .any) <$> l.settle.flag?
    | some false => some none
    | none => none
  | _ => none
termination_by structural n => n

def members? (settled : Bool) : Node → Option (List Schema)
  | .list items _ => schemas? settled items
  | .leaf l => if (l.under settled).isBlank then some [] else none
  | _ => none
termination_by structural n => n

def schemas? (settled : Bool) : List Node → Option (List Schema)
  | [] => some []
  | n :: rest => do return (← ofNode? settled n) :: (← schemas? settled rest)
termination_by structural ns => ns

end

def definitions? (n : Node) : Option (List (String × Schema)) :=
  n.textMap? false (ofNode? false)

end Schema
end SchemaSplit
