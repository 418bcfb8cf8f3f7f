import SchemaSplit.Json.Basic

namespace SchemaSplit.TypeScript

inductive Primitive where
  | string
  | number
  | boolean
  | null
  | undefined
  | unknown
  deriving DecidableEq, Repr, Inhabited

structure Member (α : Type) where
  name : String
  type : α
  isOptional : Bool
  description : Option String := none

inductive TypeExpr where
  | primitive (p : Primitive)
  | array (element : TypeExpr)
  | union (members : List TypeExpr)
  | intersection (members : List TypeExpr)
  | object (members : List (Member TypeExpr))
  | record (key value : TypeExpr)
  | literal (value : Scalar)
  /-- A declared type or a global one. -/
  | named (name : String)
  deriving Inhabited

namespace TypeExpr

def recordOf (value : TypeExpr) : TypeExpr := record (primitive .string) value

def unknownRecord : TypeExpr := recordOf (primitive .unknown)

def isPrimitive (p : Primitive) : TypeExpr → Bool
  | primitive q => p == q
  | _ => false

def orPrimitive (p : Primitive) (t : TypeExpr) : TypeExpr :=
  if t.isPrimitive p then t
  else
    match t with
    | union members =>
      if members.any (isPrimitive p) then union members else union (members ++ [primitive p])
    | t => union [t, primitive p]

end TypeExpr

inductive Body where
  | interfaceType (bases : List String) (members : List (Member TypeExpr))
  | classType (base : Option String) (members : List (Member TypeExpr))
      (hasInterface hasClone : Bool)
  | aliasType (type : TypeExpr)
  /-- An object of constants with the type of its values. The keys are written as they stand. -/
  | constants (values : List (String × Scalar))

structure Declaration where
  name : String
  description : Option String
  body : Body

structure Module where
  header : List String
  declarations : List Declaration

end SchemaSplit.TypeScript
