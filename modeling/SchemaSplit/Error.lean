namespace SchemaSplit

inductive GenerationError where
  /-- A reference names no definition of the document. -/
  | unresolvedReference (document definition reference : String)
  /-- A reference that names no definition at all. -/
  | unsupportedReference (definition reference : String)
  | unwritable (document cause : String)
  deriving DecidableEq, Repr, Inhabited

namespace GenerationError

def message : GenerationError → String
  | unresolvedReference document definition reference =>
    "Unresolved reference '" ++ reference ++ "' in definition '" ++ definition ++
      "' of group '" ++ document ++ "'"
  | unsupportedReference definition reference =>
    "Unsupported reference '" ++ reference ++ "' in definition '" ++ definition ++ "'"
  | unwritable document cause => "Failed to serialize group '" ++ document ++ "': " ++ cause

def causes : GenerationError → List String
  | unwritable _ cause => [cause]
  | _ => []

end GenerationError

inductive RunError where
  | generation (group : String) (cause : GenerationError)
  | write (path cause : String)
  deriving DecidableEq, Repr, Inhabited

namespace RunError

def message : RunError → String
  | generation group cause =>
    "Code generation failed for group '" ++ group ++ "': " ++ cause.message
  | write path cause => "Failed to write " ++ path ++ ": " ++ cause

def causes : RunError → List String
  | generation _ cause => cause.message :: cause.causes
  | write _ cause => [cause]

end RunError

inductive RetrievalError where
  | fetch (url cause : String)
  | io (path cause : String)
  | parse (locator message : String)
  | invalidUrl (input cause : String)
  deriving DecidableEq, Repr, Inhabited

namespace RetrievalError

def message : RetrievalError → String
  | fetch url cause => "Failed to fetch " ++ url ++ ": " ++ cause
  | io path cause => "Failed to read " ++ path ++ ": " ++ cause
  | parse locator message => "Failed to parse " ++ locator ++ ": " ++ message
  | invalidUrl input cause => "Invalid URL '" ++ input ++ "': " ++ cause

def causes : RetrievalError → List String
  | fetch _ cause | io _ cause | invalidUrl _ cause => [cause]
  | parse .. => []

end RetrievalError
end SchemaSplit
