import SchemaSplit.Yaml.Lexer
import SchemaSplit.Yaml.Scalar
import SchemaSplit.Node.Draft

namespace SchemaSplit.Yaml

/-- An anchored node under the number of its anchor; `start` counts what was read before it. -/
structure Anchored where
  number : Nat
  start : Nat
  node : Node

structure Progress where
  tokens : List Token
  /-- What each handle of a tag stands for; the first entry counts. -/
  handles : List (List Char × List Nat)
  /-- The numbers of the anchors by name. -/
  numbers : List (List Char × Nat) := []
  anchored : List Anchored := []
  /-- Scalars and aliases count once, collections twice. -/
  count : Nat := 0

abbrev Parser := StateT Progress Option

namespace Parser

def peek : Parser (Option Token) := do return (← get).tokens.head?

def skip : Parser Unit := modify fun s => { s with tokens := s.tokens.tail }

def counted (n : Nat) : Parser Unit := modify fun s => { s with count := s.count + n }

def expect (t : Token) : Parser Unit := do
  if (← peek) = some t then skip else failure

def emptyNode : Node := .leaf (leaf .plain none [])

def empty : Parser Node := do
  counted 1
  return emptyNode

def anchor : Parser (Option (List Char)) := do
  match ← peek with
  | some (.anchor name) => skip; return some name
  | _ => return none

def tag : Parser (Option (List Nat)) := do
  match ← peek with
  | some (.tag [] octets) => skip; return some octets
  | some (.tag handle octets) =>
    skip
    match (← get).handles.lookup handle with
    | some root => return some (root ++ octets)
    | none => failure
  | _ => return none

def properties : Parser (Option (List Char) × Option (List Nat)) := do
  match ← anchor with
  | some name => return (some name, ← tag)
  | none =>
    match ← tag with
    | some octets => return (← anchor, some octets)
    | none => return (none, none)

def assign (name : List Char) : Parser Nat := do
  let s ← get
  let number := s.numbers.length
  set { s with numbers := (name, number) :: s.numbers.filter (·.1 ≠ name) }
  return number

def anchoring (name? : Option (List Char)) (read : Parser Node) : Parser Node := do
  match name? with
  | none => read
  | some name =>
    let number ← assign name
    let start := (← get).count
    let node ← read
    modify fun s => { s with anchored := ⟨number, start, node⟩ :: s.anchored }
    return node

mutual

/-- A node. Only where a block may stand, its collections may; only behind a key or its value, a
    sequence may stand without an indentation of its own. -/
def node : (fuel : Nat) → (block bare : Bool) → Parser Node
  | 0, _, _ => failure
  | fuel + 1, block, bare => do
    if let some (.reuse name) ← peek then
      skip
      counted 1
      match (← get).numbers.lookup name with
      | some number => return .reuse number
      | none => failure
    let (name?, octets?) ← properties
    anchoring name? do
      let tag? := octets?.map Tag.ofOctets
      let isSealed := tag? == some .own
      match ← peek, block with
      | some (.scalar style text), _ =>
        skip
        counted 1
        let tag? := if octets? = some ['!'.toNat] then none else tag?
        return .leaf (leaf style tag? text)
      | some .flowSequence, _ =>
        skip
        counted 2
        return .list (← flowItems fuel true) isSealed
      | some .flowMapping, _ =>
        skip
        counted 2
        return .map (← flowEntries fuel true) isSealed
      | some .blockSequence, true =>
        skip
        counted 2
        return .list (← blockItems fuel) isSealed
      | some .blockMapping, true =>
        skip
        counted 2
        return .map (← blockEntries fuel) isSealed
      | some .item, _ =>
        if bare then
          counted 2
          return .list (← bareItems fuel) isSealed
        else if name?.isSome || octets?.isSome then
          counted 1
          return .leaf (leaf .plain tag? [])
        else failure
      | _, _ =>
        if name?.isSome || octets?.isSome then
          counted 1
          return .leaf (leaf .plain tag? [])
        else failure

def nodeUnless : (fuel : Nat) → (ends : List Token) → (block bare : Bool) → Parser Node
  | 0, _, _, _ => failure
  | fuel + 1, ends, block, bare => do
    match ← peek with
    | some t => if ends.contains t then empty else node fuel block bare
    | none => node fuel block bare

def blockItems : (fuel : Nat) → Parser (List Node)
  | 0 => failure
  | fuel + 1 => do
    match ← peek with
    | some .item =>
      skip
      let n ← nodeUnless fuel [.item, .blockEnd] true false
      return n :: (← blockItems fuel)
    | some .blockEnd => skip; return []
    | _ => failure

def bareItems : (fuel : Nat) → Parser (List Node)
  | 0 => failure
  | fuel + 1 => do
    match ← peek with
    | some .item =>
      skip
      let n ← nodeUnless fuel [.item, .key, .value, .blockEnd] true false
      return n :: (← bareItems fuel)
    | _ => return []

def blockEntries : (fuel : Nat) → Parser (List (Node × Node))
  | 0 => failure
  | fuel + 1 => do
    match ← peek with
    | some .key =>
      skip
      let k ← nodeUnless fuel [.key, .value, .blockEnd] true true
      let n ← if (← peek) = some .value then
          skip
          nodeUnless fuel [.key, .value, .blockEnd] true true
        else empty
      return (k, n) :: (← blockEntries fuel)
    | some .blockEnd => skip; return []
    | _ => failure

def flowItems : (fuel : Nat) → (first : Bool) → Parser (List Node)
  | 0, _ => failure
  | fuel + 1, first => do
    if (← peek) = some .flowSequenceEnd then
      skip
      return []
    if !first then expect .comma
    match ← peek with
    | some .flowSequenceEnd => skip; return []
    | some .key =>
      skip
      counted 2
      let entry ← flowPair fuel
      return .map [entry] false :: (← flowItems fuel false)
    | _ =>
      let n ← node fuel false false
      return n :: (← flowItems fuel false)

/-- A single pair as an item. If its key is missing, so is the token in place of the key. -/
def flowPair : (fuel : Nat) → Parser (Node × Node)
  | 0 => failure
  | fuel + 1 => do
    let k ← match ← peek with
      | some .value | some .comma | some .flowSequenceEnd => skip; empty
      | _ => node fuel false false
    let n ← if (← peek) = some .value then
        skip
        nodeUnless fuel [.comma, .flowSequenceEnd] false false
      else empty
    return (k, n)

def flowEntries : (fuel : Nat) → (first : Bool) → Parser (List (Node × Node))
  | 0, _ => failure
  | fuel + 1, first => do
    if (← peek) = some .flowMappingEnd then
      skip
      return []
    if !first then expect .comma
    match ← peek with
    | some .flowMappingEnd => skip; return []
    | some .key =>
      skip
      let k ← nodeUnless fuel [.value, .comma, .flowMappingEnd] false false
      let n ← if (← peek) = some .value then
          skip
          nodeUnless fuel [.comma, .flowMappingEnd] false false
        else empty
      return (k, n) :: (← flowEntries fuel false)
    | _ =>
      let k ← node fuel false false
      let n ← empty
      return (k, n) :: (← flowEntries fuel false)

end

def directives (versioned : Bool) : List Token → Parser Unit
  | .version major minor :: rest => do
    guard (!versioned ∧ major = 1 ∧ (minor = 1 ∨ minor = 2))
    skip
    directives true rest
  | .handle h root :: rest => do
    let s ← get
    guard ((s.handles.lookup h).isNone)
    set { s with handles := s.handles ++ [(h, root)] }
    skip
    directives versioned rest
  | _ => return ()

def document : Parser Node := do
  let tokens := (← get).tokens
  directives false tokens
  modify fun s => { s with handles := s.handles ++
    [(['!'], ['!'.toNat]), (['!', '!'], "tag:yaml.org,2002:".toList.map Char.toNat)] }
  let fuel := 4 * tokens.length + 4
  match ← peek with
  | some .documentStart =>
    skip
    match ← peek with
    | some (.version ..) | some (.handle ..) | some .documentStart | some .documentEnd | none =>
      empty
    | _ => node fuel true false
  | t =>
    -- Behind directives a document has to be started.
    guard ((← get).tokens.length = tokens.length)
    match t with
    | none => return emptyNode
    | some _ => node fuel true false

end Parser

def lastAnchored (all : List Anchored) : List (Nat × Node) :=
  (all.filter fun a => all.all fun b => b.number ≠ a.number ∨ b.start ≤ a.start).map fun a =>
    (a.number, a.node)

/-- Collections are nested at most 128 deep. Aliases may be followed a hundred times as often as
    there are nodes and ends of collections. -/
def draft? (text : List Char) : Option Draft := do
  let tokens ← lex? text
  let (root, last) ← Parser.document.run { tokens, handles := [] }
  guard (last.tokens.all (· = .documentEnd))
  return {
    root
    anchors := lastAnchored last.anchored
    depth := 128
    jumps := 100 * last.count
    positional := false }

end SchemaSplit.Yaml
