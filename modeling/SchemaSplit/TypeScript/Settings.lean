import SchemaSplit.Text.Keyword

namespace SchemaSplit.TypeScript

inductive TypeStyle where
  | interfaceType
  | classType
  deriving DecidableEq, Repr, Inhabited

inductive NullValue where
  | null
  | undefined
  deriving DecidableEq, Repr, Inhabited

inductive DateTimeType where
  | date
  | string
  deriving DecidableEq, Repr, Inhabited

instance : Keyword TypeStyle where
  kind := "TypeStyle"
  values := [.interfaceType, .classType]
  word
    | .interfaceType => "interface"
    | .classType => "class"

instance : Keyword NullValue where
  kind := "NullValue"
  values := [.null, .undefined]
  word
    | .null => "null"
    | .undefined => "undefined"

instance : Keyword DateTimeType where
  kind := "DateTimeType"
  values := [.date, .string]
  word
    | .date => "date"
    | .string => "string"

structure Settings where
  typeStyle : TypeStyle := .interfaceType
  nullValue : NullValue := .null
  dateTimeType : DateTimeType := .date
  /-- Beside each class `X` an interface `IX`, which its constructor takes. -/
  constructorInterface : Bool := false
  /-- In each class a method that copies an object. -/
  cloneMethod : Bool := false
  /-- What the name of a client adds to that of its file. -/
  clientSuffix : String := "Client"
  deriving DecidableEq, Repr, Inhabited

namespace Settings

def clientName (s : Settings) (fileName : String) : String := fileName ++ s.clientSuffix

def hasInterfaces (s : Settings) : Bool := s.typeStyle == .classType && s.constructorInterface

end Settings
end SchemaSplit.TypeScript
