import SchemaSplit.Yaml.Token

/-!
Cutting a YAML text into tokens. Outside of flow collections the columns of keys and dashes open
and close collections. A key is known as one only at the colon behind it, so every place where a
key may start is kept in mind until its line ends, and the tokens that announce the key go to that
place.
-/

namespace SchemaSplit.Yaml

structure Candidate where
  /-- Whether nothing but a key may stand there. -/
  required : Bool
  /-- The number of tokens before it. -/
  place : Nat
  line : Nat
  column : Nat

structure Lexer where
  /-- The tokens so far, the latest first. -/
  tokens : List Token := []
  count : Nat := 0
  /-- The columns of the open block collections, the innermost first. -/
  indents : List Nat := []
  candidate : Option Candidate := none
  /-- One for each open flow collection: the candidate around it. -/
  outer : List (Option Candidate) := []
  keyAllowed : Bool := true

namespace Lexer

def flow (s : Lexer) : Bool := !s.outer.isEmpty

def emit (t : Token) (s : Lexer) : Lexer := { s with tokens := t :: s.tokens, count := s.count + 1 }

def insert (place : Nat) (ts : List Token) (s : Lexer) : Lexer :=
  { s with
    tokens := s.tokens.take (s.count - place) ++ ts.reverse ++ s.tokens.drop (s.count - place)
    count := s.count + ts.length }

/-- A key can be long up to 1024 characters and stands on one line. -/
def isStale (p : Placed) (k : Candidate) : Bool := k.line < p.line || k.column + 1024 < p.column

def dropStale? (p : Placed) : Option Candidate → Option (Option Candidate)
  | some k => if isStale p k then if k.required then none else some none else some (some k)
  | none => some none

def dropAllStale? (p : Placed) (s : Lexer) : Option Lexer := do
  return { s with
    candidate := ← dropStale? p s.candidate
    outer := ← s.outer.mapM (dropStale? p) }

def drop? (s : Lexer) : Option Lexer :=
  if s.candidate.any (·.required) then none else some { s with candidate := none }

def save? (p : Placed) (s : Lexer) : Option Lexer :=
  if s.keyAllowed then do
    let s ← s.drop?
    let required := !s.flow && s.indents.head? == some p.column
    return { s with candidate := some ⟨required, s.count, p.line, p.column⟩ }
  else some s

def opens (column : Nat) (s : Lexer) : Bool := !s.flow && s.indents.head?.all (· < column)

def openBlock (column : Nat) (t : Token) (s : Lexer) : Lexer :=
  if s.opens column then { s with indents := column :: s.indents }.emit t else s

def close (isClosed : Nat → Bool) (s : Lexer) : Lexer :=
  if s.flow then s
  else
    let closed := s.indents.takeWhile isClosed
    { s with
      tokens := List.replicate closed.length .blockEnd ++ s.tokens
      count := s.count + closed.length
      indents := s.indents.drop closed.length }

def closeAll (s : Lexer) : Lexer := s.close fun _ => true

def blockMark? (p : Placed) (opening mark : Token) (s : Lexer) : Option Lexer :=
  if s.flow then return (← s.drop?).emit mark
  else if s.keyAllowed then return (← (s.openBlock p.column opening).drop?).emit mark
  else none

def item? (p : Placed) (s : Lexer) : Option Lexer := do
  return { ← s.blockMark? p .blockSequence .item with keyAllowed := true }

def key? (p : Placed) (s : Lexer) : Option Lexer := do
  return { ← s.blockMark? p .blockMapping .key with keyAllowed := !s.flow }

/-- A colon makes the candidate a key. Without one it stands behind a key that was announced. -/
def value? (p : Placed) (s : Lexer) : Option Lexer :=
  match s.candidate with
  | some k =>
    let opening := s.opens k.column
    let s := s.insert k.place (if opening then [.blockMapping, .key] else [.key])
    let s := if opening then { s with indents := k.column :: s.indents } else s
    some ({ s with candidate := none, keyAllowed := false }.emit .value)
  | none =>
    if s.flow then some ({ s with keyAllowed := false }.emit .value)
    else if s.keyAllowed then some ((s.openBlock p.column .blockMapping).emit .value)
    else none

def openFlow? (p : Placed) (t : Token) (s : Lexer) : Option Lexer := do
  let s ← s.save? p
  return { s with candidate := none, outer := s.candidate :: s.outer, keyAllowed := true }.emit t

def closeFlow? (t : Token) (s : Lexer) : Option Lexer := do
  let s ← s.drop?
  let s := match s.outer with
    | k :: outer => { s with candidate := k, outer }
    | [] => s
  return { s with keyAllowed := false }.emit t

def comma? (s : Lexer) : Option Lexer := do
  return { ← s.drop? with keyAllowed := true }.emit .comma

def word? (p : Placed) (t : Token) (s : Lexer) : Option Lexer := do
  return { ← s.save? p with keyAllowed := false }.emit t

def outside? (t : Token) (s : Lexer) : Option Lexer := do
  return { ← s.closeAll.drop? with keyAllowed := false }.emit t

def next? (p : Placed) (rest : Source) (s : Lexer) : Option (Lexer × Source) := do
  if p.column = 0 ∧ p.char = '%' then
    let (t, rest) ← directive? rest
    return (← s.outside? t, rest)
  if atDocumentMark (p :: rest) then
    let t := if p.char = '-' then .documentStart else .documentEnd
    return (← s.outside? t, rest.drop 2)
  let plain : Option (Lexer × Source) := do
    let (text, ended, after) ← plain? s.flow ((s.indents.head?.map (· + 1)).getD 0) none (p :: rest)
    let s ← s.word? p (.scalar .plain text)
    return ({ s with keyAllowed := ended }, after)
  let block (style : Style) : Option (Lexer × Source) := do
    let (text, after) ← block? (style == .folded) s.indents.head? rest
    return ({ ← s.drop? with keyAllowed := true }.emit (.scalar style text), after)
  match p.char with
  | '[' => return (← s.openFlow? p .flowSequence, rest)
  | '\x7b' => return (← s.openFlow? p .flowMapping, rest)
  | ']' => return (← s.closeFlow? .flowSequenceEnd, rest)
  | '\x7d' => return (← s.closeFlow? .flowMappingEnd, rest)
  | ',' => return (← s.comma?, rest)
  | '-' => if atGap rest then return (← s.item? p, rest) else plain
  | '?' => if s.flow ∨ atGap rest then return (← s.key? p, rest) else plain
  | ':' => if s.flow ∨ atGap rest then return (← s.value? p, rest) else plain
  | '*' =>
    let (name, after) ← anchor? rest
    return (← s.word? p (.reuse name), after)
  | '&' =>
    let (name, after) ← anchor? rest
    return (← s.word? p (.anchor name), after)
  | '!' =>
    let (t, after) ← tag? s.flow rest
    return (← s.word? p t, after)
  | '|' => if s.flow then failure else block .literal
  | '>' => if s.flow then failure else block .folded
  | '\x27' =>
    let (text, after) ← singleQuoted? none rest
    return (← s.word? p (.scalar .quoted text), after)
  | '\x22' =>
    let (text, after) ← doubleQuoted? none rest
    return (← s.word? p (.scalar .quoted text), after)
  | '#' | '%' | '@' | '\x60' | '\t' => failure
  | _ => plain

/-- Goes to the next token over blanks, comments and line ends, after which a key may start. A tab
    may not stand where a key may start, and a byte order mark may begin a line. -/
def skip (flow : Bool) : (comment keyAllowed : Bool) → Source → Bool × Source
  | _, keyAllowed, [] => (keyAllowed, [])
  | comment, keyAllowed, p :: rest =>
    if isBreak p.char then skip flow false (keyAllowed || !flow) rest
    else if comment || p.char == ' ' || (p.char == '\t' && (flow || !keyAllowed)) ||
        (p.char == '\ufeff' && p.column == 0) then
      skip flow comment keyAllowed rest
    else if p.char = '#' then skip flow true keyAllowed rest
    else (keyAllowed, p :: rest)

/-- All tokens. Each takes at least one character, so as many steps as there are characters are
    enough. -/
def run? : (steps : Nat) → Lexer → Source → Option (List Token)
  | steps, s, source => do
    let (keyAllowed, source) := skip s.flow false s.keyAllowed source
    let s := { s with keyAllowed }
    match steps, source with
    | _, [] => return (← s.closeAll.drop?).tokens.reverse
    | 0, _ => failure
    | steps + 1, p :: rest =>
      let s ← s.dropAllStale? p
      let (s, rest) ← (s.close (p.column < ·)).next? p rest
      run? steps s rest

end Lexer

def lex? (text : List Char) : Option (List Token) := do
  let source ← Source.ofText? text
  Lexer.run? source.length {} source

end SchemaSplit.Yaml
