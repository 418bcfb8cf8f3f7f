import SchemaSplit.Yaml.Folding

namespace SchemaSplit.Yaml

inductive Style where
  | plain
  | quoted
  | literal
  | folded
  deriving DecidableEq, Repr, Inhabited

inductive Token where
  | version (major minor : Nat)
  | handle (handle : List Char) (root : List Nat)
  | documentStart
  | documentEnd
  | blockSequence
  | blockMapping
  | blockEnd
  | flowSequence
  | flowSequenceEnd
  | flowMapping
  | flowMappingEnd
  /-- A dash before an item. -/
  | item
  | comma
  | key
  | value
  | reuse (name : List Char)
  | anchor (name : List Char)
  /-- The octets of a tag behind its handle; a tag written out in full has an empty handle. -/
  | tag (handle : List Char) (suffix : List Nat)
  | scalar (style : Style) (text : List Char)
  deriving DecidableEq, Repr, Inhabited

def isTagChar (full : Bool) (c : Char) : Bool :=
  isNameChar c || ";/?:@&=+$.!~*\x27()%".contains c || (full && (c == ',' || c == '[' || c == ']'))

def following? (octet : Nat) : Option Nat :=
  if octet < 0x80 then some 0
  else if octet / 0x20 = 6 then some 1
  else if octet / 0x10 = 14 then some 2
  else if octet / 8 = 30 then some 3
  else none

/-- The octets of a tag, where an escape stands for one octet and a character is escaped as a
    whole. -/
def octets? : (pending : Nat) → List Char → Option (List Nat)
  | 0, [] => some []
  | _ + 1, [] => none
  | pending, '%' :: a :: b :: rest => do
    let octet ← Text.natural? 16 [a, b]
    match pending with
    | 0 => return octet :: (← octets? (← following? octet) rest)
    | left + 1 =>
      if octet / 0x40 = 2 then return octet :: (← octets? left rest) else failure
  | pending, c :: rest =>
    if pending = 0 ∧ c ≠ '%' then (c.toNat :: ·) <$> octets? 0 rest else none

def tagText? (full : Bool) (s : Source) : Option (List Nat × Source) := do
  let (text, rest) := s.span fun p => isTagChar full p.char
  return (← octets? 0 (text.map (·.char)), rest)

def tag? (flow : Bool) (s : Source) : Option (Token × Source) := do
  let (token, rest) ← match s with
    | ⟨'<', _, _⟩ :: s => do
      match ← tagText? true s with
      | (_ :: _, []) | ([], _) => failure
      | (octets, p :: rest) => if p.char = '>' then some (.tag [] octets, rest) else failure
    | s => do
      match takeName s with
      | (name, ⟨'!', _, _⟩ :: s) => do
        let (octets, rest) ← tagText? false s
        guard !octets.isEmpty
        pure (Token.tag ('!' :: name ++ ['!']) octets, rest)
      | _ => do
        let (octets, rest) ← tagText? false s
        pure (if octets.isEmpty then .tag [] ['!'.toNat] else .tag ['!'] octets, rest)
  guard ((flow ∧ rest.head?.any (·.char == ',')) ∨ atGap rest)
  return (token, rest)

def anchor? (s : Source) : Option (List Char × Source) :=
  let (name, rest) := takeName s
  let ends : Bool := atGap rest ||
    rest.head?.any fun p => ['?', ':', ',', ']', '\x7d', '%', '@', '\x60'].contains p.char
  if !name.isEmpty && ends then some (name, rest) else none

def number? (s : Source) : Option (Nat × Source) :=
  let (digits, rest) := s.span fun p => p.char.isDigit
  if digits.isEmpty ∨ 9 < digits.length then none
  else some (Text.decimal (digits.map (·.char)), rest)

def directive? (s : Source) : Option (Token × Source) := do
  let (name, rest) := takeName s
  guard (atGap rest)
  let s := skipBlanks rest
  if name = "YAML".toList then
    let (major, s) ← number? s
    match s with
    | ⟨'.', _, _⟩ :: s =>
      let (minor, s) ← number? s
      return (.version major minor, ← endLine? s)
    | _ => failure
  else if name = "TAG".toList then
    match s with
    | ⟨'!', _, _⟩ :: s =>
      let (name, s) := takeName s
      let (handle, s) ← match name, s with
        | name, ⟨'!', _, _⟩ :: s => some ('!' :: name ++ ['!'], s)
        | [], s => some (['!'], s)
        | _, _ => none
      guard (s.head?.any fun p => isBlank p.char)
      let (root, s) ← tagText? true (skipBlanks s)
      guard (!root.isEmpty ∧ atGap s)
      return (.handle handle root, ← endLine? s)
    | _ => failure
  else failure

end SchemaSplit.Yaml
