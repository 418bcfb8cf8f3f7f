import SchemaSplit.Group

namespace SchemaSplit

/-- Characters that no file name may hold: controls and those with a meaning in some path. -/
def isForbiddenInFileName (c : Char) : Bool :=
  c.toNat < 0x20 || ['\\', '/', ':', '*', '?', '\x22', '<', '>', '|'].contains c

def fileName (key : String) : String :=
  String.ofList (key.toList.map fun c => if isForbiddenInFileName c then '_' else c)

structure GroupPlan where
  key : String
  fileName : String
  members : Nat
  /-- The size of the group with all that it refers to. -/
  definitions : Nat
  deriving DecidableEq, Repr, Inhabited

def Document.plan (separator : Char) (d : Document) : List GroupPlan :=
  (d.groups separator).map fun g =>
    { key := g.key
      fileName := fileName g.key
      members := g.members.length
      definitions := (d.isolate g).definitions.length }

end SchemaSplit
