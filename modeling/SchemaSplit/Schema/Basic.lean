import SchemaSplit.Json.Basic

namespace SchemaSplit

inductive SchemaType where
  | single (name : String)
  | multiple (names : List String)
  deriving DecidableEq, Repr, Inhabited

/-- How the members of a union are told apart: by a property, or by a property with a mapping from
its values to references. -/
inductive Discriminator where
  | property (name : String)
  | object (name : String) (mapping? : Option (List (String × String)))
  deriving DecidableEq, Repr, Inhabited

inductive Additional (α : Type) where
  | any (allowed : Bool)
  | schema (values : α)

structure Schema.Keywords where
  ref : Option String := none
  type : Option SchemaType := none
  format : Option String := none
  description : Option String := none
  required : List String := []
  enum : Option (List Scalar) := none
  nullable : Option Bool := none
  xNullable : Option Bool := none
  discriminator : Option Discriminator := none
  /-- Every other keyword, as written. -/
  extra : List (String × Json) := []
  deriving Inhabited

structure Schema where
  keywords : Schema.Keywords := {}
  properties : List (String × Schema) := []
  items : Option Schema := none
  additional : Option (Additional Schema) := none
  allOf : List Schema := []
  anyOf : List Schema := []
  oneOf : List Schema := []
  deriving Inhabited

namespace Schema

abbrev ref (s : Schema) : Option String := s.keywords.ref
abbrev type (s : Schema) : Option SchemaType := s.keywords.type
abbrev required (s : Schema) : List String := s.keywords.required
abbrev description (s : Schema) : Option String := s.keywords.description

def reference (target : String) : Schema := { keywords := { ref := some target } }

def ofType (name : String) : Schema := { keywords := { type := some (.single name) } }

def Keywords.isNullable (k : Keywords) : Bool :=
  k.nullable == some true || k.xNullable == some true ||
    match k.type with
    | some (.multiple names) => names.contains "null"
    | _ => false

/-- Whether `null` is allowed, in any of the three spellings. -/
def isNullable (s : Schema) : Bool := s.keywords.isNullable

def enumValues (s : Schema) : List Scalar := s.keywords.enum.getD []

def valueSchema (s : Schema) : Option Schema :=
  match s.additional with
  | some (.schema values) => some values
  | _ => none

def children (s : Schema) : List Schema :=
  s.properties.map (·.2) ++ s.items.toList ++ s.valueSchema.toList ++ s.allOf ++ s.anyOf ++ s.oneOf

end Schema
end SchemaSplit
