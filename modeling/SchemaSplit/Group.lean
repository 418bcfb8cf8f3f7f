import SchemaSplit.Closure

namespace SchemaSplit

def globalNamespace : String := "Global"

def defaultSeparator : Char := '.'

def separator? (s : String) : Option Char :=
  match s.toList with
  | [c] => some c
  | _ => none

/-- The namespace of a name: what stands before its last separator. -/
def namespaceKey (separator : Char) (name : String) : String :=
  match name.toList.reverse.dropWhile (· ≠ separator) with
  | [] => globalNamespace
  | _ :: namespaceReversed => String.ofList namespaceReversed.reverse

structure Group where
  key : String
  /-- In the order of the document. -/
  members : Definitions
  deriving Inhabited

namespace Group

def names (g : Group) : List String := g.members.map (·.1)

def ofDefinitions (key : String → String) (source : Definitions) : List Group :=
  (source.map fun d => key d.1).eraseDups.map fun k =>
    ⟨k, source.filter fun d => key d.1 == k⟩

end Group

namespace Document

def groups (separator : Char) (d : Document) : List Group :=
  Group.ofDefinitions (namespaceKey separator) d.definitions

def closure (d : Document) (g : Group) : Closure :=
  .ofMembers d.definitions d.dialect.referenceRoot g.members

def isolateWith (d : Document) (g : Group) (c : Closure) : IsolatedDocument where
  key := g.key
  info := d.info
  dialect := d.dialect
  specVersion := d.specVersion
  definitions := c.found

def isolate (d : Document) (g : Group) : IsolatedDocument := d.isolateWith g (d.closure g)

end Document
end SchemaSplit
