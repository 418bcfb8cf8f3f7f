namespace SchemaSplit.Yaml

def isAllowed (c : Char) : Bool :=
  let n := c.toNat
  n == 0x09 || n == 0x0a || n == 0x0d || (0x20 ≤ n && n ≤ 0x7e) || n == 0x85 ||
    (0xa0 ≤ n && n ≤ 0xd7ff) || (0xe000 ≤ n && n ≤ 0xfffd) || 0x10000 ≤ n

/-- A carriage return, alone or before a line feed, and a next line are line feeds. -/
def unifyBreaks : List Char → List Char
  | '\r' :: '\n' :: rest => '\n' :: unifyBreaks rest
  | '\r' :: rest => '\n' :: unifyBreaks rest
  | '\u0085' :: rest => '\n' :: unifyBreaks rest
  | c :: rest => c :: unifyBreaks rest
  | [] => []

/-- Line and paragraph separators end a line, too, and are kept. -/
def isBreak (c : Char) : Bool := c == '\n' || c == '\u2028' || c == '\u2029'

def isBlank (c : Char) : Bool := c == ' ' || c == '\t'

structure Placed where
  char : Char
  line : Nat
  column : Nat
  deriving Repr, Inhabited

abbrev Source := List Placed

def place (line column : Nat) : List Char → Source
  | [] => []
  | c :: rest =>
    ⟨c, line, column⟩ ::
      if isBreak c then place (line + 1) 0 rest else place line (column + 1) rest

def Source.ofText? (text : List Char) : Option Source :=
  if text.all isAllowed then some (place 0 0 (unifyBreaks text)) else none

def atGap : Source → Bool
  | [] => true
  | p :: _ => isBlank p.char || isBreak p.char

def atDocumentMark : Source → Bool
  | a :: b :: c :: rest =>
    a.column == 0 && (a.char == '-' || a.char == '.') && b.char == a.char && c.char == a.char &&
      atGap rest
  | _ => false

def skipBlanks (s : Source) : Source := s.dropWhile fun p => isBlank p.char

def endLine? (s : Source) : Option Source :=
  let ended : Source → Option Source
    | [] => some []
    | p :: rest => if isBreak p.char then some rest else none
  match skipBlanks s with
  | ⟨'#', _, _⟩ :: rest => ended (rest.dropWhile fun p => !isBreak p.char)
  | s => ended s

def isNameChar (c : Char) : Bool := c.isAlphanum || c == '_' || c == '-'

def takeName (s : Source) : List Char × Source :=
  let (name, rest) := s.span fun p => isNameChar p.char
  (name.map (·.char), rest)

end SchemaSplit.Yaml
