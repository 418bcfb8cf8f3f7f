import SchemaSplit.Log
import SchemaSplit.Plan
import SchemaSplit.Schema.Writer
import SchemaSplit.Json.Writer
import SchemaSplit.TypeScript.Printer

namespace SchemaSplit

inductive ArtifactFormat where
  | ts
  | json
  deriving DecidableEq, Repr, Inhabited

instance : Keyword ArtifactFormat where
  kind := "ArtifactFormat"
  values := [.ts, .json]
  word
    | .ts => "ts"
    | .json => "json"

structure Generator where
  /-- What follows the point in the names of the files. -/
  extension : String
  /-- The artifact of a document in a file of that name. -/
  generate : IsolatedDocument → (fileName : String) → Except GenerationError String
  /-- What is logged of a document that has an artifact. -/
  events : IsolatedDocument → List Event := fun _ => []

namespace IsolatedDocument

def toJson (d : IsolatedDocument) : Json :=
  let version := Json.text d.specVersion
  let info := Json.object [("title", .text d.info.title), ("version", .text d.info.version)]
  let schemas := Json.object (d.definitions.map fun e => (e.1, e.2.toJson))
  match d.dialect with
  | .swagger2 =>
    .object [("swagger", version), ("info", info), ("paths", .object []), ("definitions", schemas)]
  | .openapi3 =>
    .object [("openapi", version), ("info", info), ("paths", .object []),
      ("components", .object [("schemas", schemas)])]

def jsonText (d : IsolatedDocument) : String := d.toJson.pretty 0 ++ "\n"

end IsolatedDocument

namespace Generator

def typeScript (settings : TypeScript.Settings) : Generator where
  extension := Keyword.word ArtifactFormat.ts
  generate d fileName := (·.text) <$> TypeScript.moduleOf settings d fileName
  events d := [.declared d.key d.definitions.length]

def json : Generator where
  extension := Keyword.word ArtifactFormat.json
  generate d _ := .ok d.jsonText

end Generator

def ArtifactFormat.generator (settings : TypeScript.Settings) : ArtifactFormat → Generator
  | ts => .typeScript settings
  | json => .json

end SchemaSplit
