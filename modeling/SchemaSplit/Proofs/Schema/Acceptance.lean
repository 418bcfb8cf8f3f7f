import SchemaSplit.Proofs.TypeScript.Shape

namespace SchemaSplit

def Double.number? : Double → Option Rat
  | finite negative mantissa scale =>
    let units : Int := mantissa * Nat.pow 2 scale
    some (mkRat (if negative then -units else units) unit)
  | _ => none

def Scalar.number? : Scalar → Option Rat
  | .int n => some n
  | .double d => d.number?
  | _ => none

/-- Two values are the same if they are one, or the same number in two forms. -/
def Scalar.Same (a b : Scalar) : Prop := a = b ∨ a.number?.isSome ∧ a.number? = b.number?

namespace Json

def isObject : Json → Bool
  | object _ => true
  | _ => false

theorem isObject_iff {v : Json} : v.isObject ↔ ∃ fields, v = .object fields := by
  cases v <;> simp [isObject]

/-- A value is of the type of that name. Other names than those of types restrict nothing. -/
def HasType (v : Json) (name : String) : Prop :=
  match name with
  | "string" => ∃ s, v = .scalar (.string s)
  | "number" => ∃ x q, v = .scalar x ∧ x.number? = some q
  | "integer" => ∃ x q, v = .scalar x ∧ x.number? = some q ∧ q.isInt
  | "boolean" => ∃ b, v = .scalar (.bool b)
  | "null" => v = .scalar .null
  | "array" => ∃ items, v = .array items
  | "object" => v.isObject
  | _ => True

end Json

namespace Schema

/-- What a node without a type says about entries makes it a node for objects. -/
def AllowsType (s : Schema) (v : Json) : Prop :=
  match s.type with
  | some (.single name) => v.HasType name
  | some (.multiple names) => ∃ name ∈ names, v.HasType name
  | none => s.properties ≠ [] ∨ s.additional.isSome → v.isObject

structure Allows (s : Schema) (v : Json) : Prop where
  type : s.AllowsType v
  enum : s.enumValues ≠ [] → ∃ listed ∈ s.enumValues, ∃ x, v = .scalar x ∧ listed.Same x
  required : ∀ fields, v = .object fields → s.required ⊆ fields.map (·.1)
  further : s.additional = some (.any false) → ∀ fields, v = .object fields →
    fields.map (·.1) ⊆ s.properties.map (·.1)

inductive Asks (s : Schema) : Json → Schema → Json → Prop
  | property {p : String × Schema} {fields : List (String × Json)} {value : Json}
      (declared : p ∈ s.properties) (field : (p.1, value) ∈ fields) :
      Asks s (.object fields) p.2 value
  | item {items : Schema} {values : List Json} {value : Json} (each : s.items = some items)
      (inside : value ∈ values) : Asks s (.array values) items value
  | further {values : Schema} {fields : List (String × Json)} {name : String} {value : Json}
      (each : s.valueSchema = some values) (field : (name, value) ∈ fields)
      (undeclared : name ∉ s.properties.map (·.1)) : Asks s (.object fields) values value
  | member {m : Schema} {v : Json} (inside : m ∈ s.allOf) : Asks s v m v

/-- A schema accepts a value: through its target, or as a node with some of its branches. -/
inductive Accepts (scope : TypeScript.Scope) : Schema → Json → Prop
  | null {s : Schema} (nullable : s.isNullable) : Accepts scope s (.scalar .null)
  | reference {s target : Schema} {v : Json} {reference name : String}
      (refers : s.ref = some reference) (found : scope.target? reference = some (name, target))
      (accepted : Accepts scope target v) : Accepts scope s v
  | node {s : Schema} {v : Json} (branches : List Schema) (inline : s.ref = none)
      (allowed : s.Allows v) (asked : ∀ child x, s.Asks v child x → Accepts scope child x)
      (anyOf : s.anyOf ≠ [] → ∃ branch ∈ s.anyOf, branch ∈ branches)
      (oneOf : s.oneOf ≠ [] → ∃ branch ∈ s.oneOf, branch ∈ branches)
      (chosen : ∀ branch ∈ branches, Accepts scope branch v) : Accepts scope s v

def typeNames (s : Schema) : List String :=
  match s.type with
  | none => []
  | some (.single name) => [name]
  | some (.multiple names) => names.filter (· != "null")

/-- A value is of a type that the node names, unless it is `null` that the node allows. -/
theorem Allows.exists_type {s : Schema} {v : Json} (allowed : s.Allows v) (typed : s.type ≠ none)
    (notNull : s.isNullable → v ≠ .scalar .null) : ∃ name ∈ s.typeNames, v.HasType name := by
  have type := allowed.type
  rcases kind : s.type with _ | (name | names)
  · exact absurd kind typed
  · rw [AllowsType, kind] at type
    rw [typeNames, kind]
    exact ⟨name, List.mem_singleton_self _, type⟩
  · rw [AllowsType, kind] at type
    rw [typeNames, kind]
    obtain ⟨name, listed, ofType⟩ := type
    refine ⟨name, List.mem_filter.mpr ⟨listed, bne_iff_ne.mpr ?_⟩, ofType⟩
    rintro rfl
    have nullable : s.isNullable := by simp [isNullable, Keywords.isNullable, kind, listed]
    exact notNull nullable ofType

theorem Asks.child_mem {s child : Schema} {v x : Json} (asks : s.Asks v child x) :
    child ∈ s.children := by
  cases asks with
  | property declared =>
    exact s.properties_subset_children (List.mem_map_of_mem declared)
  | item each => simp [children, each]
  | further each => simp [children, each]
  | member inside => exact s.allOf_subset_children inside

variable {scope : TypeScript.Scope} {s : Schema} {v : Json}

/-- A node that is no reference decides itself, unless it is `null` that it allows. -/
theorem Accepts.allowed (accepted : Accepts scope s v) (inline : s.ref = none)
    (notNull : s.isNullable = false) :
    s.Allows v ∧ ∀ child x, s.Asks v child x → Accepts scope child x := by
  cases accepted with
  | null nullable =>
    rw [notNull] at nullable
    cases nullable
  | reference refers =>
    rw [inline] at refers
    cases refers
  | node branches _ allowed asked => exact ⟨allowed, asked⟩

end Schema
end SchemaSplit
