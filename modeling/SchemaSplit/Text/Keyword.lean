namespace SchemaSplit

class Keyword (α : Type) where
  /-- What the enumeration is called in messages. -/
  kind : String
  values : List α
  word : α → String

structure UnknownKeyword where
  kind : String
  given : String
  expected : List String
  deriving DecidableEq, Repr, Inhabited

namespace UnknownKeyword

def message (e : UnknownKeyword) : String :=
  "unknown " ++ e.kind ++ " '" ++ e.given ++ "', expected one of: " ++ ", ".intercalate e.expected

end UnknownKeyword

namespace Keyword

variable {α : Type} [Keyword α]

def ofWord? (s : String) : Option α := (values : List α).find? (word · == s)

def parse (s : String) : Except UnknownKeyword α :=
  let lower := s.map Char.toLower
  match (ofWord? lower : Option α) with
  | some v => .ok v
  | none => .error ⟨kind α, lower, (values : List α).map word⟩

end Keyword
end SchemaSplit
