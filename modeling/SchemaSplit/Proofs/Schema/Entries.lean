import SchemaSplit.Proofs.Schema.Fields

namespace SchemaSplit.Schema

open Json (optionalField listField)

namespace Field

def entry : Field → Option (String × Json)
  | ref v => v.map fun t => ("$ref", .text t)
  | type v => v.map fun t => ("type", t.toJson)
  | format v => v.map fun t => ("format", .text t)
  | description v => v.map fun t => ("description", .text t)
  | properties v =>
    if v.isEmpty then none else some ("properties", .object (v.map fun p => (p.1, p.2.toJson)))
  | required v => if v.isEmpty then none else some ("required", .texts v)
  | items v => v.map fun s => ("items", s.toJson)
  | additional v => v.map fun a => ("additionalProperties", additionalValue a)
  | allOf v => if v.isEmpty then none else some ("allOf", .array (v.map toJson))
  | anyOf v => if v.isEmpty then none else some ("anyOf", .array (v.map toJson))
  | oneOf v => if v.isEmpty then none else some ("oneOf", .array (v.map toJson))
  | enum v => v.map fun values => ("enum", .array (values.map .scalar))
  | nullable v => v.map fun b => ("nullable", .scalar (.bool b))
  | xNullable v => v.map fun b => ("x-nullable", .scalar (.bool b))
  | discriminator v => v.map fun d => ("discriminator", d.toJson)
  | extra name j => some (name, j)

end Field

open Schema.Field

theorem entries_ofOption {α : Type} {name : String} {write : α → Json} {make : Option α → Field}
    (written : ∀ v, (make (some v)).entry = some (name, write v)) (value : Option α) :
    (ofOption make value).filterMap entry = optionalField name write value := by
  cases value with
  | none => rfl
  | some v => simp [ofOption, optionalField, written]

theorem entries_ofList {α β : Type} {name : String} {write : List β → Json}
    {make : List α → Field} (f : List α → List β) (empty : ∀ v, (f v).isEmpty = v.isEmpty)
    (written : ∀ v, (make v).entry = if v.isEmpty then none else some (name, write (f v)))
    (value : List α) : (ofList make value).filterMap entry = listField name write (f value) := by
  unfold ofList listField
  rw [empty]
  cases isEmpty : value.isEmpty with
  | true => rfl
  | false => simp [written, isEmpty]

theorem entries_extra (extra : List (String × Json)) :
    (extra.map fun e => Field.extra e.1 e.2).filterMap entry = extra := by
  rw [List.filterMap_map]
  exact List.filterMap_some

theorem entries_fields (s : Schema) : (fields s).filterMap entry = fieldsJson s := by
  have each {α β : Type} (f : α → β) (v : List α) : (v.map f).isEmpty = v.isEmpty := List.isEmpty_map
  unfold fields fieldsJson
  simp only [List.filterMap_append]
  -- One goal for each keyword, and the last for the further keywords.
  repeat' apply congrArg₂ (· ++ ·)
  all_goals first
    | exact entries_extra _
    | exact entries_ofOption (fun _ => rfl) _
    | exact entries_ofList id (fun _ => rfl) (fun _ => rfl) _
    | exact entries_ofList (List.map _) (each _) (fun _ => rfl) _

section Collected

variable {α : Type} {fs : List Field} {f : Field} {slot : Nat}

structure Collects (get : Field → Option α) (make : Option α → Field) (slot : Nat) : Prop where
  read : ∀ v, get (make (some v)) = some v
  only : ∀ g v, get g = some v → g = make (some v)
  slot : ∀ v, (make v).slot? = some slot

structure CollectsList (get : Field → Option (List α)) (make : List α → Field) (slot : Nat) :
    Prop where
  read : ∀ v, get (make v) = some v
  only : ∀ g v, get g = some v → g = make v
  slot : ∀ v, (make v).slot? = some slot

theorem eq_of_slot {g : Field} (distinct : (fs.filterMap slot?).Nodup) (left : f ∈ fs)
    (right : g ∈ fs) (first : f.slot? = some slot) (second : g.slot? = some slot) : f = g := by
  induction fs with
  | nil => cases left
  | cons h rest ih =>
    have apart : ∀ k ∈ rest, h.slot? = some slot → k.slot? ≠ some slot := by
      intro k inside here there
      rw [List.filterMap_cons_some here, List.nodup_cons] at distinct
      exact distinct.1 (List.mem_filterMap.mpr ⟨k, inside, there⟩)
    have later : (rest.filterMap slot?).Nodup :=
      distinct.sublist ((List.sublist_cons_self h rest).filterMap _)
    rcases List.mem_cons.mp left with rfl | before
    · rcases List.mem_cons.mp right with rfl | after
      · rfl
      · exact absurd second (apart g after first)
    · rcases List.mem_cons.mp right with rfl | after
      · exact absurd first (apart f before second)
      · exact ih later before after

theorem findSome?_of_slot {get : Field → Option α} {v : α} (distinct : (fs.filterMap slot?).Nodup)
    (only : ∀ g w, get g = some w → g.slot? = some slot) (inside : f ∈ fs)
    (here : get f = some v) : fs.findSome? get = some v := by
  cases found : fs.findSome? get with
  | none =>
    rw [List.findSome?_eq_none_iff.mp found f inside] at here
    cases here
  | some w =>
    obtain ⟨g, member, there⟩ := List.exists_of_findSome?_eq_some found
    have same := eq_of_slot distinct member inside (only g w there) (only f v here)
    rw [same, here] at there
    exact there.symm

theorem Collects.mem_iff {get : Field → Option α} {make : Option α → Field}
    (keyword : Collects get make slot) (distinct : (fs.filterMap slot?).Nodup) :
    f ∈ ofOption make (fs.findSome? get) ↔ f ∈ fs ∧ ∃ v, f = make (some v) := by
  have only (g : Field) (w : α) (told : get g = some w) : g.slot? = some slot := by
    rw [keyword.only g w told, keyword.slot]
  constructor
  · intro member
    cases found : fs.findSome? get with
    | none =>
      rw [found] at member
      cases member
    | some v =>
      obtain ⟨g, inside, told⟩ := List.exists_of_findSome?_eq_some found
      rw [found] at member
      have same : f = make (some v) := List.mem_singleton.mp member
      rw [keyword.only g v told] at inside
      exact ⟨same ▸ inside, v, same⟩
  · rintro ⟨inside, v, rfl⟩
    rw [findSome?_of_slot distinct only inside (keyword.read v)]
    exact List.mem_singleton_self _

theorem CollectsList.mem_iff {get : Field → Option (List α)} {make : List α → Field}
    (keyword : CollectsList get make slot) (distinct : (fs.filterMap slot?).Nodup) :
    f ∈ ofList make ((fs.findSome? get).getD []) ↔ f ∈ fs ∧ ∃ v, v ≠ [] ∧ f = make v := by
  have only (g : Field) (w : List α) (told : get g = some w) : g.slot? = some slot := by
    rw [keyword.only g w told, keyword.slot]
  constructor
  · intro member
    cases found : fs.findSome? get with
    | none =>
      rw [found] at member
      cases member
    | some v =>
      obtain ⟨g, inside, told⟩ := List.exists_of_findSome?_eq_some found
      rw [found, Option.getD_some, ofList] at member
      split at member
      · cases member
      · rename_i filled
        have same : f = make v := List.mem_singleton.mp member
        rw [keyword.only g v told] at inside
        exact ⟨same ▸ inside, v, fun empty => filled (List.isEmpty_iff.mpr empty), same⟩
  · rintro ⟨inside, v, filled, rfl⟩
    rw [findSome?_of_slot distinct only inside (keyword.read v), Option.getD_some, ofList,
      if_neg (fun empty => filled (List.isEmpty_iff.mp empty))]
    exact List.mem_singleton_self _

def extras (fs : List Field) : List (String × Json) :=
  fs.filterMap fun | .extra name v => some (name, v) | _ => none

theorem mem_extras {e : String × Json} : e ∈ extras fs ↔ Field.extra e.1 e.2 ∈ fs := by
  rw [extras, List.mem_filterMap]
  constructor
  · rintro ⟨g, inside, told⟩
    cases g <;> cases told
    exact inside
  · intro inside
    exact ⟨_, inside, rfl⟩

theorem mem_fields_ofFields (distinct : (fs.filterMap slot?).Nodup)
    (apart : ((extras fs).map (·.1)).Nodup) :
    f ∈ fields (ofFields fs) ↔ f ∈ fs ∧ f.entry.isSome := by
  have extra : f ∈ (ofFields fs).keywords.extra.map (fun e => Field.extra e.1 e.2) ↔
      f ∈ fs ∧ ∃ name j, f = .extra name j := by
    have all : (ofFields fs).keywords.extra = extras fs := lastWins_of_nodup apart
    rw [all, List.mem_map]
    constructor
    · rintro ⟨e, inside, rfl⟩
      exact ⟨mem_extras.mp inside, _, _, rfl⟩
    · rintro ⟨inside, name, j, rfl⟩
      exact ⟨(name, j), mem_extras.mpr inside, rfl⟩
  unfold fields
  simp only [List.mem_append, extra]
  unfold ofFields Schema.ref Schema.type Schema.description Schema.required
  dsimp only
  repeat rw [Collects.mem_iff _ distinct]
  repeat rw [CollectsList.mem_iff _ distinct]
  · cases f with
    | extra name j => simp [entry]
    | _ v => cases v <;> simp [entry]
  -- What is left is that each keyword is collected from the fields of its own number.
  all_goals try
    refine ⟨fun _ => rfl, ?_, fun _ => rfl⟩
    intro g v told
    cases g <;> cases told
    rfl

theorem mem_fieldsJson_ofFields (distinct : (fs.filterMap slot?).Nodup)
    (apart : ((extras fs).map (·.1)).Nodup) {e : String × Json} :
    e ∈ fieldsJson (ofFields fs) ↔ ∃ f ∈ fs, f.entry = some e := by
  rw [← entries_fields, List.mem_filterMap]
  constructor
  · rintro ⟨f, member, given⟩
    exact ⟨f, ((mem_fields_ofFields distinct apart).mp member).1, given⟩
  · rintro ⟨f, inside, given⟩
    have written : f.entry.isSome := by rw [given]; rfl
    exact ⟨f, (mem_fields_ofFields distinct apart).mpr ⟨inside, written⟩, given⟩

end Collected

theorem names_optionalField {α : Type} (name : String) (write : α → Json) (value : Option α) :
    ((optionalField name write value).map (·.1)).Sublist [name] := by
  cases value with
  | none => exact List.nil_sublist _
  | some v => exact List.Sublist.refl _

theorem names_listField {α : Type} (name : String) (write : List α → Json) (value : List α) :
    ((listField name write value).map (·.1)).Sublist [name] := by
  unfold listField
  split
  · exact List.nil_sublist _
  · exact List.Sublist.refl _

theorem names_fieldsJson (s : Schema) :
    ((fieldsJson s).map (·.1)).Sublist (keywordNames ++ s.keywords.extra.map (·.1)) := by
  unfold fieldsJson keywordNames
  rw [List.map_append]
  apply List.Sublist.append _ (List.Sublist.refl _)
  simp only [List.map_append]
  -- One goal for each keyword, each with its own name.
  have split : (["$ref", "type", "format", "description", "properties", "required", "items",
      "additionalProperties", "allOf", "anyOf", "oneOf", "enum", "nullable", "x-nullable",
      "discriminator"] : List String) =
      ["$ref"] ++ ["type"] ++ ["format"] ++ ["description"] ++ ["properties"] ++ ["required"] ++
        ["items"] ++ ["additionalProperties"] ++ ["allOf"] ++ ["anyOf"] ++ ["oneOf"] ++ ["enum"] ++
        ["nullable"] ++ ["x-nullable"] ++ ["discriminator"] := rfl
  rw [split]
  repeat' apply List.Sublist.append
  all_goals first
    | exact names_optionalField _ _ _
    | exact names_listField _ _ _

theorem nodup_fieldsJson {s : Schema} (unknown : ∀ e ∈ s.keywords.extra, e.1 ∉ keywordNames)
    (distinct : (s.keywords.extra.map (·.1)).Nodup) : ((fieldsJson s).map (·.1)).Nodup := by
  apply List.Nodup.sublist (names_fieldsJson s)
  rw [List.nodup_append]
  refine ⟨by decide, distinct, ?_⟩
  intro name keyword other member same
  obtain ⟨e, inside, rfl⟩ := List.mem_map.mp member
  exact unknown e inside (same ▸ keyword)

end SchemaSplit.Schema
