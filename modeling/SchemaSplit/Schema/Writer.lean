import SchemaSplit.Schema.Basic

namespace SchemaSplit

namespace Json

def text (s : String) : Json := .scalar (.string s)

def texts (ss : List String) : Json := .array (ss.map text)

def optionalField {α : Type} (name : String) (write : α → Json) (value : Option α) :
    List (String × Json) :=
  value.toList.map fun v => (name, write v)

def listField {α : Type} (name : String) (write : List α → Json) (value : List α) :
    List (String × Json) :=
  if value.isEmpty then [] else [(name, write value)]

end Json

def SchemaType.toJson : SchemaType → Json
  | single name => .text name
  | multiple names => .texts names

def Discriminator.toJson : Discriminator → Json
  | property name => .text name
  | object name mapping? =>
    .object (("propertyName", .text name) ::
      Json.optionalField "mapping" (fun m => .object (m.map fun e => (e.1, .text e.2))) mapping?)

namespace Schema
open Json (optionalField listField)

mutual

def toJson : Schema → Json
  | ⟨k, properties, items, additional, allOf, anyOf, oneOf⟩ =>
    .object <|
      optionalField "$ref" .text k.ref ++
      optionalField "type" SchemaType.toJson k.type ++
      optionalField "format" .text k.format ++
      optionalField "description" .text k.description ++
      listField "properties" .object (propertiesJson properties) ++
      listField "required" .texts k.required ++
      itemsJson items ++
      additionalJson additional ++
      listField "allOf" .array (membersJson allOf) ++
      listField "anyOf" .array (membersJson anyOf) ++
      listField "oneOf" .array (membersJson oneOf) ++
      optionalField "enum" (fun values => .array (values.map .scalar)) k.enum ++
      optionalField "nullable" (fun b => .scalar (.bool b)) k.nullable ++
      optionalField "x-nullable" (fun b => .scalar (.bool b)) k.xNullable ++
      optionalField "discriminator" Discriminator.toJson k.discriminator ++
      k.extra
termination_by structural s => s

def propertiesJson : List (String × Schema) → List (String × Json)
  | [] => []
  | (name, s) :: rest => (name, s.toJson) :: propertiesJson rest
termination_by structural ps => ps

def membersJson : List Schema → List Json
  | [] => []
  | s :: rest => s.toJson :: membersJson rest
termination_by structural ss => ss

def itemsJson : Option Schema → List (String × Json)
  | none => []
  | some s => [("items", s.toJson)]
termination_by structural s => s

def additionalJson : Option (Additional Schema) → List (String × Json)
  | none => []
  | some (.any allowed) => [("additionalProperties", .scalar (.bool allowed))]
  | some (.schema s) => [("additionalProperties", s.toJson)]
termination_by structural a => a

end

theorem propertiesJson_eq_map (ps : List (String × Schema)) :
    propertiesJson ps = ps.map fun p => (p.1, p.2.toJson) := by
  induction ps with
  | nil => rfl
  | cons p rest ih => simp [propertiesJson, ih]

theorem membersJson_eq_map (ss : List Schema) : membersJson ss = ss.map toJson := by
  induction ss with
  | nil => rfl
  | cons s rest ih => simp [membersJson, ih]

end Schema
end SchemaSplit
