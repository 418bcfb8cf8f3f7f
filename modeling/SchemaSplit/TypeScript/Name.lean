import SchemaSplit.Text.Alphanumeric

namespace SchemaSplit.TypeScript

def reservedWords : List String :=
  ["any", "async", "await", "boolean", "break", "case", "catch", "class", "const", "continue",
   "debugger", "default", "delete", "do", "else", "enum", "export", "extends", "false",
   "finally", "for", "function", "if", "implements", "import", "in", "instanceof", "interface",
   "let", "never", "new", "null", "number", "object", "package", "private", "protected",
   "public", "return", "static", "string", "super", "switch", "this", "throw", "true", "try",
   "type", "typeof", "undefined", "unknown", "var", "void", "while", "with", "yield"]

def globalTypes : List String := ["Array", "Blob", "Date", "Record"]

def isIdentifierStart (c : Char) : Bool := c.isAlpha || c == '_' || c == '$'

def isIdentifierChar (c : Char) : Bool := c.isAlphanum || c == '_' || c == '$'

def isPlainKey (name : List Char) : Bool :=
  name.head?.any isIdentifierStart && name.all isIdentifierChar

def escape (c : Char) : List Char :=
  if c = '\\' then ['\\', '\\']
  else if c = '\x22' then ['\\', '\x22']
  else if c = '\n' then ['\\', 'n']
  else if c = '\r' then ['\\', 'r']
  else [c]

def stringLiteral (s : List Char) : List Char := '\x22' :: s.flatMap escape ++ ['\x22']

def propertyKey (name : List Char) : List Char :=
  if isPlainKey name then name else stringLiteral name

def splitBy (isSplit : Char → Bool) : List Char → List (List Char)
  | [] => [[]]
  | c :: rest =>
    match splitBy isSplit rest with
    | [] => [[c]]
    | run :: runs => if isSplit c then [] :: run :: runs else (c :: run) :: runs

def isPathChar (c : Char) : Bool := Text.isAlphanumeric c || c == '_' || c == '$' || c == '.'

def lastSegment? (path : List Char) : Option (List Char) :=
  (splitBy (· == '.') path).reverse.find? fun segment => !segment.isEmpty

/-- The identifier of a definition name. Characters that no identifier has split the name into
    paths, and of each path the last segment is kept. -/
def typeIdentifier (name : String) : String :=
  let segments := (splitBy (fun c => !isPathChar c) name.toList).filterMap lastSegment?
  let joined := String.ofList (['_'].intercalate segments)
  if joined.isEmpty then "Anonymous"
  else if joined.toList.head?.any Char.isDigit || reservedWords.contains joined then "_" ++ joined
  else joined

def firstNumbered (isFree : String → Bool) (stem : String) (k : Nat) : (steps : Nat) → String
  | 0 => stem ++ toString k
  | steps + 1 =>
    if isFree (stem ++ toString k) then stem ++ toString k
    else firstNumbered isFree stem (k + 1) steps

/-- The first free name among a base and the base with a number from two on. Of more names than are
    taken, one is free. -/
def firstFree (isFree : String → Bool) (base link : String) (taken : Nat) : String :=
  if isFree base then base else firstNumbered isFree (base ++ link) 2 taken

def distinctNames (used : List String) : List String → List String
  | [] => []
  | name :: rest =>
    let free := firstFree (fun n => !used.contains n) name "_" used.length
    free :: distinctNames (free :: used) rest

def claims (interfaces : Bool) (name : String) : List String :=
  if interfaces then [name, "I" ++ name] else [name]

/-- The identifiers of definitions in order. Each takes up itself and, with interfaces, that of its
    interface. -/
def assignIdentifiers (interfaces : Bool) (used : List String) : List String → List String
  | [] => []
  | name :: rest =>
    let free := firstFree (fun n => (claims interfaces n).all (!used.contains ·))
      (typeIdentifier name) "" (2 * used.length)
    free :: assignIdentifiers interfaces (claims interfaces free ++ used) rest

abbrev Identifiers := List (String × String)

def identifiers (interfaces : Bool) (definitions : List String) : Identifiers :=
  definitions.zip (assignIdentifiers interfaces globalTypes definitions)

end SchemaSplit.TypeScript
