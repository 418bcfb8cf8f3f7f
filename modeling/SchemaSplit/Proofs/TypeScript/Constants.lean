import SchemaSplit.Proofs.TypeScript.Identifier
import SchemaSplit.Proofs.TypeScript.Meaning
import SchemaSplit.Proofs.TypeScript.Spelling

namespace SchemaSplit.TypeScript

def keyName? (letters : Letters) (key : String) : Option String :=
  match Token.lex? letters key.toList with
  | some [t] => t.key?
  | _ => none

theorem keyName?_keyText (letters : Letters) (name : String) :
    keyName? letters (keyText name) = some name := by
  rw [keyName?, Letters.lex?_of_spells (spells_key name)]
  exact key?_keyToken name

/-- Names are given out for others in order, each the first one that was not given out before: the name
    itself, or the name with the least number from two on behind an underscore. -/
structure GivesFirstFree (names given : List String) : Prop where
  length : given.length = names.length
  each : ∀ i name free, names[i]? = some name → given[i]? = some free →
    IsFirstFree (fun n => !(given.take i).contains n) name "_" free

theorem distinctNames_cons (used : List String) (name : String) (rest : List String) :
    ∃ free, IsFirstFree (fun n => !used.contains n) name "_" free ∧
      distinctNames used (name :: rest) = free :: distinctNames (free :: used) rest := by
  refine ⟨_, firstFree_spec used ?_ (Nat.le_refl used.length), rfl⟩
  intro n taken
  simpa using taken

/-- Each name is the first free one among those used before and those given out before. -/
theorem distinctNames_each (used names : List String) :
    ∀ i name free, names[i]? = some name → (distinctNames used names)[i]? = some free →
      IsFirstFree (fun n => !((distinctNames used names).take i ++ used).contains n) name "_" free := by
  induction names generalizing used with
  | nil => exact fun i name free listed => nomatch listed
  | cons first rest ih =>
    obtain ⟨here, isFirst, split⟩ := distinctNames_cons used first rest
    rw [split]
    intro i name free listed given
    cases i with
    | zero =>
      cases listed
      cases given
      exact isFirst
    | succ i =>
      rw [List.getElem?_cons_succ] at listed given
      refine (ih (here :: used) i name free listed given).congr fun n => ?_
      simp only [List.take_succ_cons, List.cons_append, List.contains_eq_mem, List.mem_append,
        List.mem_cons]
      grind

theorem distinctNames_givesFirstFree (names : List String) :
    GivesFirstFree names (distinctNames [] names) where
  length := length_distinctNames [] names
  each i name free listed given := by
    simpa using distinctNames_each [] names i name free listed given

theorem distinctNames_eq_self {used names : List String} (distinct : names.Nodup)
    (apart : names.Disjoint used) : distinctNames used names = names := by
  induction names generalizing used with
  | nil => rfl
  | cons name rest ih =>
    rw [List.nodup_cons] at distinct
    rw [List.disjoint_cons_left] at apart
    have free : firstFree (fun n => !used.contains n) name "_" used.length = name :=
      if_pos (by simpa using apart.1)
    have others : rest.Disjoint (name :: used) :=
      List.disjoint_cons_right.mpr ⟨distinct.1, apart.2⟩
    rw [distinctNames, free, ih distinct.2 others]

/-- The names of listed values before they are made distinct: the given ones, if each value has one, and
    otherwise those that the values make themselves. -/
def statedNames (values : List Scalar) (names : Option Json) : List String :=
  (givenNames? values.length names).getD (values.map constantKey)

theorem length_statedNames (values : List Scalar) (names : Option Json) :
    (statedNames values names).length = values.length := by
  unfold statedNames
  cases given : givenNames? values.length names with
  | none => exact List.length_map _
  | some keys => exact length_givenNames? given

theorem constantsOf_eq_zip (values : List Scalar) (names : Option Json) :
    constantsOf values names =
      ((distinctNames [] (statedNames values names)).map keyText).zip values := rfl

/-- The keys of constants are read as the distinct names that they were made of. -/
theorem keyNames_constantsOf (letters : Letters) (values : List Scalar) (names : Option Json) :
    (constantsOf values names).map (fun e => keyName? letters e.1) =
      (distinctNames [] (statedNames values names)).map some := by
  have lengths :
      ((distinctNames [] (statedNames values names)).map keyText).length = values.length := by
    rw [List.length_map, length_distinctNames, length_statedNames]
  calc (constantsOf values names).map (fun e => keyName? letters e.1)
    _ = (((distinctNames [] (statedNames values names)).map keyText).zip values).map
        (keyName? letters ∘ (·.1)) := by
      rw [constantsOf_eq_zip]
      rfl
    _ = ((distinctNames [] (statedNames values names)).map keyText).map (keyName? letters) := by
      rw [← List.map_map, List.map_fst_zip (Nat.le_of_eq lengths)]
    _ = (distinctNames [] (statedNames values names)).map some := by
      rw [List.map_map]
      exact List.map_congr_left fun name _ => keyName?_keyText letters name

/-- A definition that lists values declares one constant for each of them, in their order, and the keys
    are read as names no two of which are the same. These are the stated names with the repeated ones
    numbered: a name stays as it is unless it was given out before, and names that are distinct all
    stay. -/
theorem bodyOf_constants (letters : Letters) (c : Context) (definition : String) {s : Schema}
    (listed : s.enumValues ≠ []) :
    let stated := statedNames s.enumValues (s.keywords.extra.lookup "x-enumNames")
    ∃ constants, bodyOf c definition s = .ok (.constants constants) ∧
      constants.map (·.2) = s.enumValues ∧
      constants.map (fun e => keyName? letters e.1) = (distinctNames [] stated).map some ∧
      (distinctNames [] stated).Nodup ∧
      (∀ names, GivesFirstFree names (distinctNames [] names)) ∧
      ∀ names, names.Nodup → distinctNames [] names = names := by
  intro stated
  refine ⟨_, bodyOf_of_values listed, (constantsOf_spec _ _).1, keyNames_constantsOf letters _ _,
    (distinctNames_distinct [] stated).1, distinctNames_givesFirstFree, ?_⟩
  exact fun names distinct => distinctNames_eq_self distinct (List.disjoint_nil_right names)

/-- Two numbers with one text, and texts that are the names which the second of them and a third one
    would get. -/
theorem bodyOf_constants_numbered :
    let values : List Scalar :=
      [.int 1, .double (.ofInt 1), .string "VALUE_1_2", .string "VALUE_1", .string "in stock"]
    let s : Schema := { keywords := { enum := some values } }
    let c := Context.ofDocument {} ⟨"A", {}, .openapi3, "3.0.1", [("A.State", s)]⟩
    s.enumValues ≠ [] ∧ ∃ constants, bodyOf c "A.State" s = .ok (.constants constants) ∧
      constants.map (·.2) = values ∧
      constants.map (fun e => keyName? .ascii e.1) =
        ["VALUE_1", "VALUE_1_2", "VALUE_1_2_2", "VALUE_1_3", "in stock"].map some := by
  intro values s c
  have listed : s.enumValues ≠ [] := List.cons_ne_nil _ _
  obtain ⟨constants, made, all, read, -⟩ := bodyOf_constants .ascii c "A.State" listed
  refine ⟨listed, constants, made, all, read.trans (congrArg (List.map some) ?_)⟩
  decide +kernel

end SchemaSplit.TypeScript
