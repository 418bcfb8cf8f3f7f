import SchemaSplit.Schema.Reader

namespace SchemaSplit

inductive Dialect where
  | swagger2
  | openapi3
  deriving DecidableEq, Repr, Inhabited

namespace Dialect

def referenceRoot : Dialect → String
  | swagger2 => "#/definitions/"
  | openapi3 => "#/components/schemas/"

def defaultSpecVersion : Dialect → String
  | swagger2 => "2.0"
  | openapi3 => "3.0.1"

end Dialect

structure Info where
  title : String := "Generated API"
  version : String := "1.0.0"
  deriving DecidableEq, Repr, Inhabited

abbrev Definitions := List (String × Schema)

structure Document where
  info : Info := {}
  dialect : Dialect := .swagger2
  specVersion : String := dialect.defaultSpecVersion
  definitions : Definitions := []
  deriving Inhabited

structure IsolatedDocument where
  key : String
  info : Info
  dialect : Dialect
  specVersion : String
  definitions : Definitions
  deriving Inhabited

namespace IsolatedDocument

def names (d : IsolatedDocument) : List String := d.definitions.map (·.1)

def contains (d : IsolatedDocument) (name : String) : Bool := d.names.contains name

end IsolatedDocument

namespace Document

def selection (d : Draft) : Nat → Node → Draft.Reader Node :=
  d.record
    [("swagger", d.whole), ("openapi", d.whole),
     ("info", d.record [("title", d.whole), ("version", d.whole)]),
     ("definitions", d.whole), ("components", d.record [("schemas", d.whole)])]

def info? (n : Node) : Option Info := do
  let fields ← n.record? ["title", "version"]
  let title ← Node.field fields "title" (Node.text? false)
  let version ← Node.field fields "version" Node.version?
  return { title := title.getD "Generated API", version := version.getD "1.0.0" }

def components? (n : Node) : Option (Option Definitions) := do
  Node.field (← n.record? ["schemas"]) "schemas" Schema.definitions?

/-- An `openapi` version decides the dialect; without one, `definitions` come before
    `components`. -/
def assemble (swagger openapi : Option String) (info : Option Info)
    (definitions components : Option Definitions) : Document :=
  let info := info.getD {}
  let openapi3 (schemas : Definitions) : Document :=
    { info, dialect := .openapi3, specVersion := openapi.getD Dialect.openapi3.defaultSpecVersion,
      definitions := schemas }
  let swagger2 (schemas : Definitions) : Document :=
    { info, dialect := .swagger2, specVersion := swagger.getD Dialect.swagger2.defaultSpecVersion,
      definitions := schemas }
  match openapi, definitions, components with
  | some _, _, schemas => openapi3 (schemas.getD [])
  | none, some schemas, _ => swagger2 schemas
  | none, none, some schemas => openapi3 schemas
  | none, none, none => swagger2 []

def ofNode? (n : Node) : Option Document := do
  let fields ← n.record? ["swagger", "openapi", "info", "definitions", "components"]
  let swagger ← Node.field fields "swagger" Node.version?
  let openapi ← Node.field fields "openapi" Node.version?
  let info ← Node.field fields "info" info?
  let definitions ← Node.field fields "definitions" Schema.definitions?
  let components ← Node.field fields "components" components?
  return assemble swagger openapi info definitions components.join

def ofDraft? (d : Draft) : Option Document := d.take? (selection d) >>= ofNode?

end Document
end SchemaSplit
