import SchemaSplit.Document
import SchemaSplit.Json.Reader
import SchemaSplit.Yaml.Reader
import SchemaSplit.Text.Blank

namespace SchemaSplit

inductive SourceFormat where
  | json
  | yaml
  deriving DecidableEq, Repr, Inhabited

namespace SourceFormat

def name : SourceFormat → String
  | json => "JSON"
  | yaml => "YAML"

def draft? : SourceFormat → List Char → Option Draft
  | json => Json.draft?
  | yaml => Yaml.draft?

def detect (text : List Char) : SourceFormat :=
  if (Text.trimStart text).head? = some '\x7b' then json else yaml

end SourceFormat

structure ParseError where
  format : SourceFormat
  deriving DecidableEq, Repr, Inhabited

def ParseError.message (e : ParseError) : String :=
  "Failed to parse API description as " ++ e.format.name

namespace Document

def read (format : SourceFormat) (text : List Char) : Except ParseError Document :=
  match format.draft? text >>= ofDraft? with
  | some d => .ok d
  | none => .error ⟨format⟩

/-- The document of a text in the format that its start shows. Blanks count in YAML only. -/
def parse (text : List Char) : Except ParseError Document :=
  match SourceFormat.detect text with
  | .json => read .json (Text.trimStart text)
  | .yaml => read .yaml text

end Document
end SchemaSplit
