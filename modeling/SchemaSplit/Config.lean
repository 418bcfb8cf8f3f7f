import SchemaSplit.Artifact
import SchemaSplit.Machine
import SchemaSplit.Toml.Reader

namespace SchemaSplit

structure TypeScriptConfig where
  typeStyle : Option TypeScript.TypeStyle := none
  nullValue : Option TypeScript.NullValue := none
  dateTimeType : Option TypeScript.DateTimeType := none
  constructorInterface : Option Bool := none
  cloneMethod : Option Bool := none
  clientSuffix : Option String := none
  deriving DecidableEq, Repr, Inhabited

structure Config where
  separator : Option Char := none
  format : Option ArtifactFormat := none
  failFast : Option Bool := none
  /-- In seconds. -/
  timeout : Option Nat := none
  typeScript : TypeScriptConfig := {}
  deriving DecidableEq, Repr, Inhabited

namespace Toml.Value

def string? : Value → Option String
  | string s => some s
  | _ => none

def bool? : Value → Option Bool
  | bool b => some b
  | _ => none

def natural? : Value → Option Nat
  | int n => n.toNat?
  | _ => none

def separator? (v : Value) : Option Char := v.string? >>= SchemaSplit.separator?

def word? {α : Type} [Keyword α] (v : Value) : Option α := v.string? >>= Keyword.ofWord?

end Toml.Value

namespace TypeScriptConfig

def keys : List String :=
  ["type_style", "null_value", "date_time_type", "generate_constructor_interface",
   "generate_clone_method", "client_class_suffix"]

def set? (c : TypeScriptConfig) (key : String) (v : Toml.Value) : Option TypeScriptConfig :=
  match key with
  | "type_style" => v.word?.map fun x => { c with typeStyle := some x }
  | "null_value" => v.word?.map fun x => { c with nullValue := some x }
  | "date_time_type" => v.word?.map fun x => { c with dateTimeType := some x }
  | "generate_constructor_interface" =>
    v.bool?.map fun x => { c with constructorInterface := some x }
  | "generate_clone_method" => v.bool?.map fun x => { c with cloneMethod := some x }
  | "client_class_suffix" => v.string?.map fun x => { c with clientSuffix := some x }
  | _ => none

def setEntry? (c : TypeScriptConfig) : List String × Toml.Value → Option TypeScriptConfig
  | ([key], v) => c.set? key v
  | _ => none

/-- No path is that of another entry, and none leads through the value of another. -/
def areDistinct (paths : List (List String)) : Prop :=
  paths.Pairwise fun p q => !p.isPrefixOf q ∧ !q.isPrefixOf p

instance (paths : List (List String)) : Decidable (areDistinct paths) := by
  unfold areDistinct
  infer_instance

def ofValue? : Toml.Value → Option TypeScriptConfig
  | .table entries =>
    if areDistinct (entries.map (·.1)) then entries.foldlM setEntry? {} else none
  | .array items => (keys.zip items).foldlM (fun c (key, v) => c.set? key v) {}
  | _ => none

end TypeScriptConfig

namespace Config

def setEntry? (c : Config) : List String × Toml.Value → Option Config
  | (["separator"], v) => v.separator?.map fun x => { c with separator := some x }
  | (["format"], v) => v.word?.map fun x => { c with format := some x }
  | (["fail_fast"], v) => v.bool?.map fun x => { c with failFast := some x }
  | (["timeout_secs"], v) => v.natural?.map fun x => { c with timeout := some x }
  | (["typescript"], v) => (TypeScriptConfig.ofValue? v).map fun t => { c with typeScript := t }
  | ("typescript" :: path, v) =>
    (c.typeScript.setEntry? (path, v)).map fun t => { c with typeScript := t }
  | _ => none

/-- The entries with their whole paths. The one table with a header of its own is that of
    TypeScript, and nothing of it stands before the header. -/
def entries? : (inTable : Bool) → List Toml.Line → Option (List (List String × Toml.Value))
  | _, [] => some []
  | inTable, .header path :: rest =>
    if inTable ∨ path ≠ ["typescript"] then none else entries? true rest
  | inTable, .entry path v :: rest => do
    let entries ← entries? inTable rest
    let hasHeader := rest.any fun | .header _ => true | _ => false
    if !inTable ∧ hasHeader ∧ path.head? = some "typescript" then none
    else return (if inTable then "typescript" :: path else path, v) :: entries

def ofLines? (lines : List Toml.Line) : Option Config := do
  let entries ← entries? false lines
  guard (TypeScriptConfig.areDistinct (entries.map (·.1)))
  entries.foldlM setEntry? {}

def ofText? (text : String) : Option Config := Toml.lines? text.toList >>= ofLines?

end Config

section
variable {m : Type → Type} [Monad m]

def Config.load (machine : Machine m) : Option String → m (Except String Config)
  | none => return .ok {}
  | some path => do
    match ← machine.read path with
    | .error e => return .error ("Failed to read config " ++ path ++ ": " ++ e.message)
    | .ok text =>
      match Config.ofText? text with
      | some c => return .ok c
      | none => return .error ("Failed to parse config " ++ path)

end
end SchemaSplit
