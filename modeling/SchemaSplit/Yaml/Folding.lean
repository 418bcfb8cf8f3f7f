import SchemaSplit.Yaml.Text
import SchemaSplit.Text.Digits

/-!
Scalars that run over lines. Between two words stand blanks on one line, which are kept, or line
breaks: a single line feed becomes a space, and of several the first is dropped. Quoted and plain
scalars fold all their lines; a block scalar keeps its lines or folds those that do not start with
a blank.
-/

namespace SchemaSplit.Yaml

inductive Gap where
  | blanks (chars : List Char)
  /-- The first break, unless it was escaped, and those after it. -/
  | breaks (first? : Option Char) (more : List Char)

namespace Gap

def add (g : Option Gap) (c : Char) : Gap :=
  match g with
  | none => if isBreak c then breaks (some c) [] else blanks [c]
  | some (blanks cs) => if isBreak c then breaks (some c) [] else blanks (cs ++ [c])
  | some (breaks first? more) => breaks first? (if isBreak c then more ++ [c] else more)

def hasBreak : Option Gap → Bool
  | some (breaks ..) => true
  | _ => false

def text : Option Gap → List Char
  | none => []
  | some (blanks cs) => cs
  | some (breaks (some '\n') []) => [' ']
  | some (breaks (some '\n') more) => more
  | some (breaks first? more) => first?.toList ++ more

end Gap

def unescape? : Char → Option Char
  | '0' => some '\x00'
  | 'a' => some '\x07'
  | 'b' => some '\x08'
  | 't' => some '\t'
  | '\t' => some '\t'
  | 'n' => some '\n'
  | 'v' => some '\x0b'
  | 'f' => some '\x0c'
  | 'r' => some '\r'
  | 'e' => some '\x1b'
  | ' ' => some ' '
  | '\x22' => some '\x22'
  | '/' => some '/'
  | '\\' => some '\\'
  | 'N' => some '\u0085'
  | '_' => some '\u00a0'
  | 'L' => some '\u2028'
  | 'P' => some '\u2029'
  | _ => none

def codePoint? (digits : List Placed) : Option Char := do
  let n ← Text.natural? 16 (digits.map (·.char))
  if n.isValidChar then some (Char.ofNat n) else none

def doubleQuoted? : Option Gap → Source → Option (List Char × Source)
  | _, [] => none
  | g, ⟨'\\', _, _⟩ :: ⟨'x', _, _⟩ :: a :: b :: rest => do
    let c ← codePoint? [a, b]
    let (cs, rest) ← doubleQuoted? none rest
    return (Gap.text g ++ c :: cs, rest)
  | g, ⟨'\\', _, _⟩ :: ⟨'u', _, _⟩ :: a :: b :: c :: d :: rest => do
    let c ← codePoint? [a, b, c, d]
    let (cs, rest) ← doubleQuoted? none rest
    return (Gap.text g ++ c :: cs, rest)
  | g, ⟨'\\', _, _⟩ :: ⟨'U', _, _⟩ :: a :: b :: c :: d :: e :: f :: h :: i :: rest => do
    let c ← codePoint? [a, b, c, d, e, f, h, i]
    let (cs, rest) ← doubleQuoted? none rest
    return (Gap.text g ++ c :: cs, rest)
  | g, ⟨'\\', _, _⟩ :: p :: rest =>
    if isBreak p.char then do
      let (cs, rest) ← doubleQuoted? (some (.breaks none [])) rest
      return (Gap.text g ++ cs, rest)
    else do
      let c ← unescape? p.char
      let (cs, rest) ← doubleQuoted? none rest
      return (Gap.text g ++ c :: cs, rest)
  | g, p :: rest =>
    if isBlank p.char || isBreak p.char then doubleQuoted? (some (Gap.add g p.char)) rest
    else if atDocumentMark (p :: rest) || p.char == '\\' then none
    else if p.char = '\x22' then some (Gap.text g, rest)
    else do
      let (cs, rest) ← doubleQuoted? none rest
      return (Gap.text g ++ p.char :: cs, rest)

def singleQuoted? : Option Gap → Source → Option (List Char × Source)
  | _, [] => none
  | g, ⟨'\x27', _, _⟩ :: ⟨'\x27', _, _⟩ :: rest => do
    let (cs, rest) ← singleQuoted? none rest
    return (Gap.text g ++ '\x27' :: cs, rest)
  | g, p :: rest =>
    if isBlank p.char || isBreak p.char then singleQuoted? (some (Gap.add g p.char)) rest
    else if atDocumentMark (p :: rest) then none
    else if p.char = '\x27' then some (Gap.text g, rest)
    else do
      let (cs, rest) ← singleQuoted? none rest
      return (Gap.text g ++ p.char :: cs, rest)

def isFlowMark (c : Char) : Bool :=
  c == ',' || c == '[' || c == ']' || c == '\x7b' || c == '\x7d'

/-- A plain scalar, whether a line ended behind it, and what follows. Its further lines start at
    `least` or beyond, and in a flow collection the marks of the collection end it. -/
def plain? (flow : Bool) (least : Nat) : Option Gap → Source → Option (List Char × Bool × Source)
  | g, [] => some ([], Gap.hasBreak g, [])
  | g, p :: rest =>
    if isBlank p.char || isBreak p.char then
      if p.char = '\t' ∧ Gap.hasBreak g ∧ p.column < least then none
      else plain? flow least (some (Gap.add g p.char)) rest
    else if g.isSome ∧
        ((!flow ∧ p.column < least) ∨ atDocumentMark (p :: rest) ∨ p.char = '#') then
      some ([], Gap.hasBreak g, p :: rest)
    else if flow ∧ p.char = ':' ∧ rest.head?.any (fun q => isFlowMark q.char || q.char == '?') then
      none
    else if (p.char = ':' ∧ atGap rest) ∨ (flow ∧ isFlowMark p.char) then
      some ([], Gap.hasBreak g, p :: rest)
    else do
      let (cs, ended, rest) ← plain? flow least none rest
      return (Gap.text g ++ p.char :: cs, ended, rest)

inductive Chomping where
  | strip
  | clip
  | keep
  deriving DecidableEq, Repr

structure BlockLine where
  text : List Char
  ending : List Char
  further : List Char

namespace BlockLine

def startsBlank (l : BlockLine) : Bool := l.text.head?.any isBlank

def join (fold : Bool) (l m : BlockLine) : List Char :=
  if fold && l.ending == ['\n'] && !l.startsBlank && !m.startsBlank then
    if l.further.isEmpty then [' '] else l.further
  else l.ending ++ l.further

def textOf (fold : Bool) (chomping : Chomping) : List BlockLine → List Char
  | [] => []
  | [l] =>
    l.text ++ (if chomping = .strip then [] else l.ending) ++
      (if chomping = .keep then l.further else [])
  | l :: m :: rest => l.text ++ join fold l m ++ textOf fold chomping (m :: rest)

end BlockLine

/-- The breaks of empty lines, how far these lines reach, and what follows. Lines are empty up to
    `indent`; without it, up to their first character. -/
def emptyLines? (indent : Option Nat) (reach : Nat) : Source → Option (List Char × Nat × Source)
  | [] => some ([], reach, [])
  | p :: rest =>
    let before := indent.all (p.column < ·)
    if p.char = ' ' ∧ before then emptyLines? indent reach rest
    else if p.char = '\t' ∧ before then none
    else if isBreak p.char then do
      let (cs, reach, rest) ← emptyLines? indent (max reach p.column) rest
      return (p.char :: cs, reach, rest)
    else some ([], max reach p.column, p :: rest)

def blockLines? (indent : Nat) : (steps : Nat) → Source → Option (List BlockLine × Source)
  | 0, s => some ([], s)
  | _, [] => some ([], [])
  | steps + 1, p :: rest =>
    if p.column ≠ indent then some ([], p :: rest)
    else do
      let (line, rest) := (p :: rest).span fun q => !isBreak q.char
      let (further, _, after) ← emptyLines? (some indent) 0 rest.tail
      let (lines, after) ← blockLines? indent steps after
      return ({ text := line.map (·.char), ending := (rest.head?.map (·.char)).toList, further } ::
        lines, after)

def blockHeader? (s : Source) : Option (Option Nat × Chomping × Source) :=
  let chomping? : Source → Option (Chomping × Source)
    | ⟨'+', _, _⟩ :: rest => some (.keep, rest)
    | ⟨'-', _, _⟩ :: rest => some (.strip, rest)
    | _ => none
  let digit? : Source → Option (Nat × Source)
    | p :: rest => (·, rest) <$> Text.digit? 10 p.char
    | [] => none
  let (chomping, s) := match chomping? s with
    | some (c, rest) => (some c, rest)
    | none => (none, s)
  let (indent, s) := match digit? s with
    | some (n, rest) => (some n, rest)
    | none => (none, s)
  let (chomping, s) := match chomping, indent, chomping? s with
    | none, some _, some (c, rest) => (some c, rest)
    | _, _, _ => (chomping, s)
  if indent = some 0 then none else some (indent, chomping.getD .clip, s)

def block? (fold : Bool) (parent : Option Nat) (s : Source) : Option (List Char × Source) := do
  let (stated, chomping, s) ← blockHeader? s
  let s ← endLine? s
  let stated := stated.map (· + parent.getD 0)
  let (initial, reach, s) ← emptyLines? stated 0 s
  let indent := stated.getD (max reach (max 1 ((parent.map (· + 1)).getD 0)))
  let (lines, rest) ← blockLines? indent s.length s
  let initial := if lines.isEmpty ∧ chomping ≠ .keep then [] else initial
  return (initial ++ BlockLine.textOf fold chomping lines, rest)

end SchemaSplit.Yaml
