import SchemaSplit.Schema.Reader
import SchemaSplit.Schema.Writer
import SchemaSplit.Proofs.Node
import SchemaSplit.Proofs.Reference
import SchemaSplit.Proofs.Traversal

namespace SchemaSplit

namespace Schema

section Reading

variable (settled : Bool)

def field? (name : String) (n : Node) : Option Field :=
  match name with
  | "properties" => .properties <$> properties? settled n
  | "items" => .items <$> items? settled n
  | "additionalProperties" => .additional <$> additional? settled n
  | "allOf" => .allOf <$> members? settled n
  | "anyOf" => .anyOf <$> members? settled n
  | "oneOf" => .oneOf <$> members? settled n
  | _ => plainField? settled name n

def entryField? (entry : Node × Node) : Option Field := do
  field? settled (← entry.1.key? settled) entry.2

theorem fields?_eq_mapM (entries : List (Node × Node)) :
    fields? settled entries = entries.mapM (entryField? settled) := by
  induction entries with
  | nil => rfl
  | cons entry rest ih =>
    rcases entry with ⟨k, n⟩
    rw [fields?, List.mapM_cons, ih, entryField?, bind_assoc]
    refine bind_congr fun name => ?_
    unfold field?
    dsimp only
    split <;> simp_all

def namedSchema? (entry : Node × Node) : Option (String × Schema) := do
  return (← entry.1.key? settled, ← ofNode? settled entry.2)

theorem entries?_eq_mapM (entries : List (Node × Node)) :
    entries? settled entries = entries.mapM (namedSchema? settled) := by
  induction entries with
  | nil => rfl
  | cons entry rest ih =>
    rcases entry with ⟨k, n⟩
    rw [entries?, List.mapM_cons, ih, namedSchema?]
    cases k.key? settled with
    | none => rfl
    | some name => cases ofNode? settled n <;> rfl

theorem schemas?_eq_mapM (ns : List Node) : schemas? settled ns = ns.mapM (ofNode? settled) := by
  induction ns with
  | nil => rfl
  | cons n rest ih => rw [schemas?, List.mapM_cons, ih]

end Reading

def keywordNames : List String :=
  ["$ref", "type", "format", "description", "properties", "required", "items",
   "additionalProperties", "allOf", "anyOf", "oneOf", "enum", "nullable", "x-nullable",
   "discriminator"]

theorem field?_of_extra {settled : Bool} {name : String} (unknown : name ∉ keywordNames)
    (n : Node) : field? settled name n = (fun j => .extra name j.settled) <$> n.json? := by
  simp only [keywordNames, List.mem_cons, List.not_mem_nil, or_false, not_or] at unknown
  unfold field? plainField?
  split <;> simp_all

section Writing
open Json (optionalField listField)

def additionalValue : Additional Schema → Json
  | .any allowed => .scalar (.bool allowed)
  | .schema s => s.toJson

def fieldsJson (s : Schema) : List (String × Json) :=
  optionalField "$ref" .text s.ref ++
  optionalField "type" SchemaType.toJson s.type ++
  optionalField "format" .text s.keywords.format ++
  optionalField "description" .text s.description ++
  listField "properties" .object (s.properties.map fun p => (p.1, p.2.toJson)) ++
  listField "required" .texts s.required ++
  optionalField "items" toJson s.items ++
  optionalField "additionalProperties" additionalValue s.additional ++
  listField "allOf" .array (s.allOf.map toJson) ++
  listField "anyOf" .array (s.anyOf.map toJson) ++
  listField "oneOf" .array (s.oneOf.map toJson) ++
  optionalField "enum" (fun values => .array (values.map .scalar)) s.keywords.enum ++
  optionalField "nullable" (fun b => .scalar (.bool b)) s.keywords.nullable ++
  optionalField "x-nullable" (fun b => .scalar (.bool b)) s.keywords.xNullable ++
  optionalField "discriminator" Discriminator.toJson s.keywords.discriminator ++
  s.keywords.extra

theorem toJson_eq (s : Schema) : s.toJson = .object (fieldsJson s) := by
  rcases s with ⟨k, properties, items, additional, allOf, anyOf, oneOf⟩
  rw [toJson, propertiesJson_eq_map, membersJson_eq_map, membersJson_eq_map, membersJson_eq_map]
  have itemsField : itemsJson items = optionalField "items" toJson items := by
    cases items <;> rfl
  have additionalField : additionalJson additional =
      optionalField "additionalProperties" additionalValue additional := by
    rcases additional with _ | (_ | _) <;> rfl
  rw [itemsField, additionalField]
  rfl

namespace Field

def ofOption {α : Type} (make : Option α → Field) (value : Option α) : List Field :=
  (value.map fun v => make (some v)).toList

def ofList {α : Type} (make : List α → Field) (value : List α) : List Field :=
  if value.isEmpty then [] else [make value]

end Field

open Schema.Field

def fields (s : Schema) : List Field :=
  ofOption .ref s.ref ++ ofOption .type s.type ++ ofOption .format s.keywords.format ++
  ofOption .description s.description ++ ofList .properties s.properties ++
  ofList .required s.required ++ ofOption .items s.items ++ ofOption .additional s.additional ++
  ofList .allOf s.allOf ++ ofList .anyOf s.anyOf ++ ofList .oneOf s.oneOf ++
  ofOption .enum s.keywords.enum ++ ofOption .nullable s.keywords.nullable ++
  ofOption .xNullable s.keywords.xNullable ++ ofOption .discriminator s.keywords.discriminator ++
  s.keywords.extra.map fun e => .extra e.1 e.2

theorem slots_ofOption {α : Type} {make : Option α → Field} {slot : Nat}
    (known : ∀ v, (make v).slot? = some slot) (value : Option α) :
    ((ofOption make value).filterMap Field.slot?).Sublist [slot] := by
  cases value with
  | none => exact List.nil_sublist _
  | some v =>
    simp only [ofOption, Option.map_some, Option.toList_some, List.filterMap_cons, known,
      List.filterMap_nil]
    exact List.Sublist.refl _

theorem slots_ofList {α : Type} {make : List α → Field} {slot : Nat}
    (known : ∀ v, (make v).slot? = some slot) (value : List α) :
    ((ofList make value).filterMap Field.slot?).Sublist [slot] := by
  unfold ofList
  split
  · exact List.nil_sublist _
  · simp only [List.filterMap_cons, known, List.filterMap_nil]
    exact List.Sublist.refl _

theorem slots_extra (extra : List (String × Json)) :
    (extra.map fun e => Field.extra e.1 e.2).filterMap Field.slot? = [] := by
  induction extra with
  | nil => rfl
  | cons e rest ih => rw [List.map_cons, List.filterMap_cons_none rfl, ih]

theorem slots_fields (s : Schema) : ((fields s).filterMap Field.slot?).Nodup := by
  have ordered : ((fields s).filterMap Field.slot?).Sublist
      ([0] ++ [1] ++ [2] ++ [3] ++ [4] ++ [5] ++ [6] ++ [7] ++ [8] ++ [9] ++ [10] ++ [11] ++ [12] ++
        [13] ++ [14] ++ []) := by
    simp only [fields, List.filterMap_append, slots_extra]
    repeat' apply List.Sublist.append
    all_goals first
      | exact slots_ofOption (fun _ => rfl) _
      | exact slots_ofList (fun _ => rfl) _
      | exact List.Sublist.refl _
  exact List.Nodup.sublist ordered (by decide)

section Collecting

variable {α β : Type}

theorem findSome?_ofOption (f : Field → Option β) (make : Option α → Field) (value : Option α) :
    (ofOption make value).findSome? f = value.bind fun v => f (make (some v)) := by
  cases value with
  | none => rfl
  | some v => cases found : f (make (some v)) <;> simp [ofOption, found]

theorem findSome?_ofList (f : Field → Option β) (make : List α → Field) (value : List α) :
    (ofList make value).findSome? f = if value.isEmpty then none else f (make value) := by
  unfold ofList
  split
  · rfl
  · cases found : f (make value) <;> simp [found]

theorem filterMap_ofOption (f : Field → Option β) (make : Option α → Field)
    (none_of : ∀ v, f (make v) = none) (value : Option α) :
    (ofOption make value).filterMap f = [] := by
  cases value with
  | none => rfl
  | some v => exact List.filterMap_cons_none (none_of _)

theorem filterMap_ofList (f : Field → Option β) (make : List α → Field)
    (none_of : ∀ v, f (make v) = none) (value : List α) :
    (ofList make value).filterMap f = [] := by
  unfold ofList
  split
  · rfl
  · exact List.filterMap_cons_none (none_of _)

theorem getD_nonempty (value : List α) :
    (if value.isEmpty then none else some value).getD [] = value := by
  cases value <;> rfl

theorem findSome?_extra (f : Field → Option β) (none_of : ∀ name j, f (.extra name j) = none)
    (extra : List (String × Json)) :
    (extra.map fun e => Field.extra e.1 e.2).findSome? f = none := by
  induction extra with
  | nil => rfl
  | cons e rest ih => rw [List.map_cons, List.findSome?_cons, none_of, ih]

end Collecting

theorem ofFields_fields {s : Schema} (distinct : (s.keywords.extra.map (·.1)).Nodup) :
    ofFields (fields s) = s := by
  rcases s with ⟨k, properties, items, additional, allOf, anyOf, oneOf⟩
  rcases k with ⟨ref, type, format, description, required, enum, nullable, xNullable,
    discriminator, extra⟩
  have extraOnly (f : Field → Option (String × Json))
      (keeps : ∀ name j, f (.extra name j) = some (name, j)) :
      (extra.map fun e => Field.extra e.1 e.2).filterMap f = extra := by
    rw [List.filterMap_map]
    refine (List.filterMap_congr fun e _ => keeps e.1 e.2).trans ?_
    exact List.filterMap_some
  unfold ofFields fields Schema.ref Schema.type Schema.description Schema.required
  simp only [List.findSome?_append, findSome?_ofOption, findSome?_ofList, findSome?_extra,
    getD_nonempty, implies_true, Option.bind_fun_none, Option.bind_fun_some, ite_self, Option.none_or,
    Option.or_none, List.filterMap_append, filterMap_ofOption, filterMap_ofList, List.nil_append,
    extraOnly, lastWins_of_nodup distinct]

theorem ofFields?_fields {s : Schema} (distinct : (s.keywords.extra.map (·.1)).Nodup) :
    ofFields? (fields s) = some s := by
  unfold ofFields?
  rw [if_pos (slots_fields s), ofFields_fields distinct]

end Writing
end Schema
end SchemaSplit
