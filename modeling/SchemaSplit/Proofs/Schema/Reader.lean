import SchemaSplit.Proofs.Schema.Writer
import Mathlib

namespace SchemaSplit

theorem Scalar.enumValue_enumValue (v : Scalar) : v.enumValue.enumValue = v.enumValue := by
  cases v with
  | int n =>
    unfold enumValue
    dsimp only
    by_cases fits : fitsSigned 64 n = true <;> simp [fits]
  | _ => rfl

theorem Discriminator.distinct_of_read {j : Json} {d : Discriminator} (read : ofJson? j = some d) :
    d.Distinct := by
  have mapped {m : Json} {mapping : Option (List (String × String))}
      (read : mapping? m = some mapping) : ∀ entries, mapping = some entries →
        (entries.map (·.1)).Nodup := by
    intro entries some
    subst some
    unfold mapping? at read
    split at read
    · cases read
    · obtain ⟨kept, _, same⟩ := Option.bind_eq_some_iff.mp read
      cases same
      exact nodup_lastWins _
    · cases read
  unfold ofJson? at read
  split at read
  · cases read
    trivial
  · simp only [Option.bind_eq_bind, Option.pure_def] at read
    split at read
    · rw [Option.bind_some] at read
      split at read
      · cases read
        trivial
      · obtain ⟨mapping, told, same⟩ := Option.bind_eq_some_iff.mp read
        cases same
        cases mapping with
        | none => trivial
        | some entries => exact mapped told entries rfl
      · cases read
    · cases read
  · cases read

namespace Schema

def Field.Sound : Field → Prop
  | properties ps => (ps.map (·.1)).Nodup ∧ ∀ p ∈ ps, p.2.Sound
  | items (some s) => s.Sound
  | additional (some (.schema s)) => s.Sound
  | allOf ss => ∀ s ∈ ss, s.Sound
  | anyOf ss => ∀ s ∈ ss, s.Sound
  | oneOf ss => ∀ s ∈ ss, s.Sound
  | enum (some values) => ∀ v ∈ values, v.enumValue = v
  | discriminator (some d) => d.Distinct
  | extra name j =>
    name ∉ keywordNames ∧ j.settled = j ∧ ∀ n, .int n ∈ j.scalars → fitsEither 64 n
  | _ => True

theorem exists_of_findSome?_getD {α : Type} {f : Field → Option (List α)} {fields : List Field}
    {P : List α → Prop} (nil : P []) (each : ∀ field ∈ fields, ∀ v, f field = some v → P v) :
    P ((fields.findSome? f).getD []) := by
  cases found : fields.findSome? f with
  | none => exact nil
  | some v =>
    obtain ⟨field, inside, here⟩ := List.exists_of_findSome?_eq_some found
    exact each field inside v here

theorem sound_ofFields {fields : List Field} (sound : ∀ field ∈ fields, field.Sound) :
    (ofFields fields).Sound := by
  have properties : ((ofFields fields).properties.map (·.1)).Nodup ∧
      ∀ p ∈ (ofFields fields).properties, p.2.Sound := by
    refine exists_of_findSome?_getD (P := fun ps : List (String × Schema) =>
      (ps.map (·.1)).Nodup ∧ ∀ p ∈ ps, p.2.Sound) ⟨List.nodup_nil, nofun⟩ ?_
    intro field inside v here
    cases field <;> cases here
    exact sound _ inside
  have extra : ∀ e ∈ (ofFields fields).keywords.extra, Field.Sound (.extra e.1 e.2) := by
    rintro ⟨name, j⟩ member
    obtain ⟨field, inside, here⟩ := List.mem_filterMap.mp (mem_of_mem_lastWins member)
    cases field <;> cases here
    exact sound _ inside
  have members {f : Field → Option (List Schema)}
      (each : ∀ field cs, f field = some cs → field.Sound → ∀ c ∈ cs, c.Sound) :
      ∀ c ∈ (fields.findSome? f).getD [], c.Sound :=
    exists_of_findSome?_getD (P := fun cs => ∀ c ∈ cs, c.Sound) nofun
      fun field inside cs here => each field cs here (sound field inside)
  rw [sound_iff]
  constructor
  · refine ⟨properties.1, nodup_lastWins _, fun e member => (extra e member).1,
      fun e member => (extra e member).2.1, fun e member => (extra e member).2.2, ?_, ?_⟩
    · refine exists_of_findSome?_getD
        (P := fun values : List Scalar => ∀ v ∈ values, v.enumValue = v) nofun ?_
      intro field inside values here
      cases field <;> cases here
      exact sound _ inside
    · intro d told
      obtain ⟨field, inside, here⟩ := List.exists_of_findSome?_eq_some told
      cases field <;> cases here
      exact sound _ inside
  · intro c below
    rcases mem_children.mp below with member | items | values | member | member | member
    · obtain ⟨p, inside, rfl⟩ := List.mem_map.mp member
      exact properties.2 p inside
    · obtain ⟨field, inside, here⟩ := List.exists_of_findSome?_eq_some items
      cases field <;> cases here
      exact sound _ inside
    · unfold valueSchema at values
      split at values
      · rename_i told
        cases values
        obtain ⟨field, inside, here⟩ := List.exists_of_findSome?_eq_some told
        cases field <;> cases here
        exact sound _ inside
      · cases values
    · refine members (fun field cs here known => ?_) c member
      cases field <;> cases here
      exact known
    · refine members (fun field cs here known => ?_) c member
      cases field <;> cases here
      exact known
    · refine members (fun field cs here known => ?_) c member
      cases field <;> cases here
      exact known

theorem sound_of_ofFields? {fields : List Field} {s : Schema} (made : ofFields? fields = some s)
    (sound : ∀ field ∈ fields, field.Sound) : s.Sound := by
  unfold ofFields? at made
  split at made
  · cases made
    exact sound_ofFields sound
  · cases made

section Reading

variable {settled : Bool} {name : String} {n : Node} {field : Field}

/-- Whatever schema is read from the node, or from a smaller one, is sound. The node itself counts
too, since the value of `items` is read as a schema without a step down. -/
def ReadsSound (n : Node) : Prop :=
  ∀ m, sizeOf m ≤ sizeOf n → m.Fits → ∀ settled s, ofNode? settled m = some s → s.Sound

theorem enumValue_of_read {values : List Scalar} (read : enum? n = some values) :
    ∀ v ∈ values, v.enumValue = v := by
  intro v member
  unfold enum? at read
  split at read
  · obtain ⟨item, _, known⟩ := (List.mapM_eq_some.mp read).exists_left member
    cases item with
    | leaf l =>
      obtain ⟨s, _, rfl⟩ := Option.map_eq_some_iff.mp known
      exact s.enumValue_enumValue
    | _ => cases known
  · cases read

theorem sound_extra (fits : n.Fits) (unknown : name ∉ keywordNames) {j : Json}
    (read : n.json? = some j) : Field.Sound (.extra name j.settled) :=
  ⟨unknown, j.settled_settled, fun _ member => fits.json read (Json.int_of_mem_settled member)⟩

theorem sizeOf_value_le {entries : List (Node × Node)} {isSealed : Bool} {e : Node × Node}
    (inside : e ∈ entries) : sizeOf e.2 ≤ sizeOf (Node.map entries isSealed) := by
  have small := List.sizeOf_lt_of_mem inside
  rcases e with ⟨k, n⟩
  simp only [Prod.mk.sizeOf_spec, Node.map.sizeOf_spec] at small ⊢
  omega

theorem sound_lastWins {entries : List (Node × Node)} {kept : List (String × Schema)}
    (each : entries.mapM (namedSchema? settled) = some kept)
    (sound : ∀ e ∈ entries, ∀ s, ofNode? settled e.2 = some s → s.Sound) :
    ((lastWins kept).map (·.1)).Nodup ∧ ∀ p ∈ lastWins kept, p.2.Sound := by
  refine ⟨nodup_lastWins kept, fun p inside => ?_⟩
  obtain ⟨e, source, known⟩ :=
    (List.mapM_eq_some.mp each).exists_left (mem_of_mem_lastWins inside)
  unfold namedSchema? at known
  simp only [Option.bind_eq_bind, Option.bind_eq_some_iff, Option.pure_def,
    Option.some_inj] at known
  obtain ⟨_, _, s, known, rfl⟩ := known
  exact sound e source s known

theorem sound_properties? {ps : List (String × Schema)} (fits : n.Fits) (below : ReadsSound n)
    (read : properties? settled n = some ps) : Field.Sound (.properties ps) := by
  cases n with
  | map entries isSealed =>
    obtain ⟨kept, each, rfl⟩ := Option.map_eq_some_iff.mp read
    rw [entries?_eq_mapM] at each
    exact sound_lastWins each fun e source s known =>
      below e.2 (sizeOf_value_le source) (fits.ofMap e source) settled s known
  | leaf l =>
    unfold properties? at read
    split at read <;> cases read
    exact ⟨List.nodup_nil, nofun⟩
  | list items isSealed => cases read
  | reuse anchor => cases read

theorem sound_items? {s? : Option Schema} (fits : n.Fits) (below : ReadsSound n)
    (read : items? settled n = some s?) : Field.Sound (.items s?) := by
  cases n with
  | map entries isSealed =>
    obtain ⟨s, known, rfl⟩ := Option.map_eq_some_iff.mp read
    exact below _ le_rfl fits settled s known
  | leaf l =>
    unfold items? at read
    split at read <;> cases read
    trivial
  | list items isSealed => cases read
  | reuse anchor => cases read

theorem sound_additional? {a? : Option (Additional Schema)} (fits : n.Fits) (below : ReadsSound n)
    (read : additional? settled n = some a?) : Field.Sound (.additional a?) := by
  cases n with
  | map entries isSealed =>
    unfold additional? at read
    obtain ⟨_, _, made⟩ := Option.bind_eq_some_iff.mp read
    obtain ⟨s, known, same⟩ := Option.bind_eq_some_iff.mp made
    cases same
    exact below _ le_rfl fits true s known
  | leaf l =>
    unfold additional? at read
    split at read
    · obtain ⟨allowed, _, rfl⟩ := Option.map_eq_some_iff.mp read
      trivial
    · cases read
      trivial
    · cases read
  | list items isSealed => cases read
  | reuse anchor => cases read

theorem sound_members? {members : List Schema} (fits : n.Fits) (below : ReadsSound n)
    (read : members? settled n = some members) : ∀ c ∈ members, c.Sound := by
  cases n with
  | list items isSealed =>
    unfold members? at read
    rw [schemas?_eq_mapM, List.mapM_eq_some] at read
    intro c inside
    obtain ⟨item, source, known⟩ := read.exists_left inside
    have small := List.sizeOf_lt_of_mem source
    refine below item ?_ (fits.ofList item source) settled c known
    rw [Node.list.sizeOf_spec]
    omega
  | leaf l =>
    unfold members? at read
    split at read <;> cases read
    intro c inside
    cases inside
  | map entries isSealed => cases read
  | reuse anchor => cases read

theorem sound_field? (fits : n.Fits) (below : ReadsSound n)
    (read : field? settled name n = some field) : field.Sound := by
  by_cases unknown : name ∉ keywordNames
  · rw [field?_of_extra unknown] at read
    obtain ⟨j, known, rfl⟩ := Option.map_eq_some_iff.mp read
    exact sound_extra fits unknown known
  have keyword := not_not.mp unknown
  simp only [keywordNames, List.mem_cons, List.not_mem_nil, or_false] at keyword
  -- One goal for each keyword, in the order of `keywordNames`.
  rcases keyword with rfl | rfl | rfl | rfl | rfl | rfl | rfl | rfl | rfl | rfl | rfl | rfl | rfl |
    rfl | rfl
  all_goals obtain ⟨v, known, rfl⟩ := Option.map_eq_some_iff.mp read
  · trivial
  · trivial
  · trivial
  · trivial
  · exact sound_properties? fits below known
  · trivial
  · exact sound_items? fits below known
  · exact sound_additional? fits below known
  · exact sound_members? fits below known
  · exact sound_members? fits below known
  · exact sound_members? fits below known
  · cases v with
    | none => trivial
    | some values => exact enumValue_of_read (Node.eq_some_of_optional known)
  · trivial
  · trivial
  · cases v with
    | none => trivial
    | some d =>
      obtain ⟨j, _, told⟩ := Option.bind_eq_some_iff.mp (Node.eq_some_of_optional known)
      exact Discriminator.distinct_of_read told

theorem readsSound (n : Node) : ReadsSound n := by
  intro m size fits settled s read
  cases m with
  | map entries isSealed =>
    unfold ofNode? at read
    obtain ⟨fields, known, made⟩ := Option.bind_eq_some_iff.mp read
    rw [fields?_eq_mapM, List.mapM_eq_some] at known
    refine sound_of_ofFields? made fun field inside => ?_
    obtain ⟨e, source, known⟩ := known.exists_left inside
    obtain ⟨name, _, known⟩ := Option.bind_eq_some_iff.mp known
    exact sound_field? (fits.ofMap e source) (readsSound e.2) known
  | leaf l =>
    unfold ofNode? at read
    split at read <;> cases read
    exact sound_ofFields fun _ inside => absurd inside List.not_mem_nil
  | list items isSealed => cases read
  | reuse anchor => cases read
termination_by sizeOf n
decreasing_by
  have small := List.sizeOf_lt_of_mem source
  rcases e with ⟨k, value⟩
  simp only [Prod.mk.sizeOf_spec, Node.map.sizeOf_spec] at small size ⊢
  omega

theorem sound_of_ofNode? {s : Schema} (fits : n.Fits) (read : ofNode? settled n = some s) :
    s.Sound :=
  readsSound n n le_rfl fits settled s read

theorem sound_of_definitions? {ds : List (String × Schema)} (fits : n.Fits)
    (read : definitions? n = some ds) : (ds.map (·.1)).Nodup ∧ ∀ e ∈ ds, e.2.Sound := by
  unfold definitions? Node.textMap? at read
  split at read
  · obtain ⟨kept, each, same⟩ := Option.bind_eq_some_iff.mp read
    cases same
    exact sound_lastWins each fun e source s known =>
      sound_of_ofNode? (fits.ofMap e source) known
  · split at read <;> cases read
    exact ⟨List.nodup_nil, nofun⟩
  · cases read

end Reading
end Schema
end SchemaSplit
