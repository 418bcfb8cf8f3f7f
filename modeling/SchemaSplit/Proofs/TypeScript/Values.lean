import SchemaSplit.Proofs.Json.Basic
import SchemaSplit.Proofs.Schema.Acceptance
import SchemaSplit.Proofs.TypeScript.Module

namespace SchemaSplit.TypeScript

theorem TypeExpr.isPrimitive_iff {p : Primitive} {t : TypeExpr} :
    t.isPrimitive p ↔ t = .primitive p := by
  cases t with
  | primitive q => rw [isPrimitive, beq_iff_eq, primitive.injEq, eq_comm]
  | _ => simp only [isPrimitive, Bool.false_eq_true, reduceCtorEq]

namespace Module

def body? (m : Module) (name : String) : Option Body :=
  (m.declarations.find? (·.name == name)).map (·.body)

theorem body?_of_mem {m : Module} (distinct : (m.declarations.map (·.name)).Nodup)
    {declaration : Declaration} (member : declaration ∈ m.declarations) :
    m.body? declaration.name = some declaration.body := by
  obtain ⟨before, after, split⟩ := List.append_of_mem member
  rw [split, List.map_append, List.map_cons] at distinct
  have fresh : ∀ b ∈ before, ¬ (b.name == declaration.name) := by
    intro b earlier same
    exact (List.nodup_append.mp distinct).2.2 b.name (List.mem_map_of_mem earlier) _
      List.mem_cons_self (beq_iff_eq.mp same)
  have found : m.declarations.find? (·.name == declaration.name) = some declaration := by
    rw [split, List.find?_append, List.find?_eq_none.mpr fresh, Option.none_or]
    exact List.find?_cons_of_pos (beq_self_eq_true _)
  rw [body?, found, Option.map_some]

/-- A type of a module of interfaces admits a value. The global types for dates and files admit no
    JSON, and of constants under one key the last one counts. -/
inductive Admits (m : Module) : TypeExpr → Json → Prop
  | unknown (v : Json) : Admits m (.primitive .unknown) v
  | string (s : String) : Admits m (.primitive .string) (.scalar (.string s))
  | number {x : Scalar} {q : Rat} (value : x.number? = some q) :
      Admits m (.primitive .number) (.scalar x)
  | boolean (b : Bool) : Admits m (.primitive .boolean) (.scalar (.bool b))
  | null : Admits m (.primitive .null) (.scalar .null)
  | array {element : TypeExpr} {values : List Json} (each : ∀ v ∈ values, Admits m element v) :
      Admits m (.array element) (.array values)
  | union {ts : List TypeExpr} {t : TypeExpr} {v : Json} (member : t ∈ ts) (admitted : Admits m t v) :
      Admits m (.union ts) v
  | intersection {ts : List TypeExpr} {v : Json} (all : ∀ t ∈ ts, Admits m t v) :
      Admits m (.intersection ts) v
  | object {members : List (Member TypeExpr)} {fields : List (String × Json)}
      (present : ∀ member ∈ members, member.isOptional = false → member.name ∈ fields.map (·.1))
      (each : ∀ member ∈ members, ∀ v, (member.name, v) ∈ fields → Admits m member.type v) :
      Admits m (.object members) (.object fields)
  | record {key value : TypeExpr} {fields : List (String × Json)}
      (keys : ∀ f ∈ fields, Admits m key (.scalar (.string f.1)))
      (values : ∀ f ∈ fields, Admits m value f.2) :
      Admits m (.record key value) (.object fields)
  | literal {value x : Scalar} (same : value.Same x) : Admits m (.literal value) (.scalar x)
  | constant {name : String} {values : List (String × Scalar)} {e : String × Scalar} {x : Scalar}
      (declared : m.body? name = some (.constants values)) (member : e ∈ lastWins values)
      (same : e.2.Same x) : Admits m (.named name) (.scalar x)
  | aliasType {name : String} {t : TypeExpr} {v : Json} (declared : m.body? name = some (.aliasType t))
      (admitted : Admits m t v) : Admits m (.named name) v
  | interfaceType {name : String} {bases : List String} {members : List (Member TypeExpr)} {v : Json}
      (declared : m.body? name = some (.interfaceType bases members))
      (inherited : ∀ base ∈ bases, Admits m (.named base) v) (own : Admits m (.object members) v) :
      Admits m (.named name) v

variable {m : Module} {v : Json}

theorem Admits.isObject_of_object {members : List (Member TypeExpr)}
    (admitted : m.Admits (.object members) v) : v.isObject := by
  cases admitted
  rfl

theorem Admits.isObject {name : String} {bases : List String} {members : List (Member TypeExpr)}
    (admitted : m.Admits (.named name) v)
    (declared : m.body? name = some (.interfaceType bases members)) : v.isObject := by
  cases admitted with
  | constant other => cases declared.symm.trans other
  | aliasType other => cases declared.symm.trans other
  | interfaceType _ _ own => exact own.isObject_of_object

theorem admits_unknownRecord (isObject : v.isObject) : m.Admits .unknownRecord v := by
  obtain ⟨fields, rfl⟩ := Json.isObject_iff.mp isObject
  exact .record (fun f _ => .string f.1) fun f _ => .unknown f.2

theorem admits_intersectionOf {ts : List TypeExpr} (all : ∀ t ∈ ts, m.Admits t v) :
    m.Admits (intersectionOf ts) v := by
  unfold intersectionOf
  split
  · exact all _ (List.mem_singleton_self _)
  · exact .intersection all

theorem admits_null : m.Admits (.primitive .null) v ↔ v = .scalar .null := by
  constructor
  · intro admitted
    cases admitted
    rfl
  · rintro rfl
    exact .null

theorem admits_union {ts : List TypeExpr} : m.Admits (.union ts) v ↔ ∃ t ∈ ts, m.Admits t v := by
  constructor
  · intro admitted
    cases admitted with
    | union member admitted => exact ⟨_, member, admitted⟩
  · rintro ⟨t, member, admitted⟩
    exact .union member admitted

theorem admits_orPrimitive {p : Primitive} {t : TypeExpr} :
    m.Admits (t.orPrimitive p) v ↔ m.Admits t v ∨ m.Admits (.primitive p) v := by
  unfold TypeExpr.orPrimitive
  split
  · rename_i same
    rw [TypeExpr.isPrimitive_iff.mp same, or_self]
  · split
    · rename_i members
      split
      · rename_i there
        obtain ⟨t, member, same⟩ := List.any_eq_true.mp there
        cases TypeExpr.isPrimitive_iff.mp same
        exact ⟨.inl, fun either => either.elim id (.union member)⟩
      · simp only [admits_union, List.mem_append, List.mem_singleton, or_and_right, exists_or,
          exists_eq_left]
    · simp only [admits_union, List.mem_cons, List.not_mem_nil, or_false, or_and_right, exists_or,
        exists_eq_left]

theorem admits_object_flatten {parts : List (List (Member TypeExpr))} (isObject : v.isObject)
    (each : ∀ members ∈ parts, m.Admits (.object members) v) :
    m.Admits (.object parts.flatten) v := by
  obtain ⟨fields, rfl⟩ := Json.isObject_iff.mp isObject
  refine .object ?_ ?_
  · intro member inside
    obtain ⟨members, among, inside⟩ := List.mem_flatten.mp inside
    cases each members among with
    | object present => exact present member inside
  · intro member inside
    obtain ⟨members, among, inside⟩ := List.mem_flatten.mp inside
    cases each members among with
    | object _ each => exact each member inside

end Module

section Constants

theorem length_givenNames? {count : Nat} {names : Option Json} {keys : List String}
    (given : givenNames? count names = some keys) : keys.length = count := by
  unfold givenNames? at given
  split at given
  · split at given
    · rename_i items length
      rw [← length, (List.mapM_eq_some.mp given).length_eq]
    · cases given
  · cases given

/-- Constants have all listed values, each under a key of its own. -/
theorem constantsOf_spec (values : List Scalar) (names : Option Json) :
    (constantsOf values names).map (·.2) = values ∧
      ((constantsOf values names).map (·.1)).Nodup := by
  let keys := (givenNames? values.length names).getD (values.map constantKey)
  have length : keys.length = values.length := by
    cases given : givenNames? values.length names with
    | none => simp [keys, given]
    | some names => simpa [keys, given] using length_givenNames? given
  let written := (distinctNames [] keys).map fun key => String.ofList (propertyKey key.toList)
  have lengths : written.length = values.length := by
    rw [List.length_map, length_distinctNames, length]
  have distinct : written.Nodup := by
    refine (distinctNames_distinct [] keys).1.map ?_
    intro a b same
    exact String.ext (propertyKey_injective (String.ofList_injective same))
  refine ⟨List.map_snd_zip (Nat.le_of_eq lengths.symm), ?_⟩
  show ((written.zip values).map (·.1)).Nodup
  rwa [List.map_fst_zip (Nat.le_of_eq lengths)]

/-- No listed value gets lost among constants. -/
theorem Module.admits_constant {m : Module} {name : String} {values : List Scalar}
    {names : Option Json} (declared : m.body? name = some (.constants (constantsOf values names)))
    {listed x : Scalar} (member : listed ∈ values) (same : listed.Same x) :
    m.Admits (.named name) (.scalar x) := by
  obtain ⟨all, distinct⟩ := constantsOf_spec values names
  rw [← all] at member
  obtain ⟨e, inside, rfl⟩ := List.mem_map.mp member
  exact .constant declared ((lastWins_of_nodup distinct).symm ▸ inside) same

end Constants
end SchemaSplit.TypeScript
