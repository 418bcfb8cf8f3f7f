import SchemaSplit.Json.Token
import SchemaSplit.Node.Draft

namespace SchemaSplit.Json

def Token.leaf? : Token → Option Leaf
  | .string value? => some ((value?.map fun s => Leaf.ofScalar (.string s)).getD .unreadable)
  | .scalar value? => some ((value?.map Leaf.ofScalar).getD .unreadable)
  | .mark _ => none

inductive Enclosing where
  | list (items : List Node)
  | map (entries : List (Node × Node)) (key : Node)

inductive Partial where
  /-- Before a value, or before the end of an empty list. -/
  | value (mayClose : Bool) (around : List Enclosing)
  /-- Before a key, or before the end of an empty map. -/
  | key (mayClose : Bool) (entries : List (Node × Node)) (around : List Enclosing)
  /-- Before the colon behind a key. -/
  | colon (key : Node) (entries : List (Node × Node)) (around : List Enclosing)
  /-- Behind a value. -/
  | done (value : Node) (around : List Enclosing)

namespace Partial

def step? : Partial → Token → Option Partial
  | value _ around, .mark '[' => some (value true (.list [] :: around))
  | value _ around, .mark '\x7b' => some (key true [] around)
  | value true (.list [] :: around), .mark ']' => some (done (.list [] false) around)
  | value _ around, t => (fun l => done (.leaf l) around) <$> t.leaf?
  | key _ entries around, .string s? =>
    (fun l => colon (.leaf l) entries around) <$> (Token.string s?).leaf?
  | key true _ around, .mark '\x7d' => some (done (.map [] false) around)
  | colon k entries around, .mark ':' => some (value false (.map entries k :: around))
  | done n (.list items :: around), .mark ',' =>
    some (value false (.list (n :: items) :: around))
  | done n (.list items :: around), .mark ']' =>
    some (done (.list (n :: items).reverse false) around)
  | done n (.map entries k :: around), .mark ',' => some (key false ((k, n) :: entries) around)
  | done n (.map entries k :: around), .mark '\x7d' =>
    some (done (.map ((k, n) :: entries).reverse false) around)
  | _, _ => none

def result? : Partial → Option Node
  | done n [] => some n
  | _ => none

end Partial

def node? (text : List Char) : Option Node := do
  let tokens ← Token.lex? text
  let last ← tokens.foldlM Partial.step? (.value false [])
  last.result?

/-- Collections are nested at most 127 deep, and a record may be the list of its fields. -/
def draft? (text : List Char) : Option Draft := do
  return { root := ← node? text, depth := 127, positional := true }

end SchemaSplit.Json
