import SchemaSplit.Json.Reader
import SchemaSplit.Proofs.Node

namespace SchemaSplit.Json

theorem Numeral.fits_of_value? {n : Numeral} {i : Int} (read : n.value? = some (.int i)) :
    fitsEither 64 i := by
  unfold value? at read
  extract_lets digits whole at read
  split at read
  · rename_i known
    rw [← Scalar.int.inj (Option.some.inj read)]
    exact known.2.2.2
  · obtain ⟨d, _, same⟩ := Option.map_eq_some_iff.mp read
    cases same

namespace Token

def Fits (t : Token) : Prop := ∀ i, t = .scalar (some (.int i)) → fitsEither 64 i

theorem fits_of_first? {cs rest : List Char} {t : Token} (read : first? cs = some (t, rest)) :
    t.Fits := by
  intro i same
  subst same
  unfold first? at read
  split at read
  · obtain ⟨_, _, same⟩ := Option.map_eq_some_iff.mp read
    cases same
  · cases read
  · cases read
  · cases read
  · split at read
    · cases read
    · obtain ⟨⟨n, rest⟩, _, same⟩ := Option.map_eq_some_iff.mp read
      simp only [Prod.mk.injEq, scalar.injEq] at same
      exact n.fits_of_value? same.1
  · cases read

theorem fits_of_go {steps : Nat} {cs : List Char} {ts : List Token}
    (read : lex?.go steps cs = some ts) : ∀ t ∈ ts, t.Fits := by
  induction steps generalizing cs ts with
  | zero =>
    rw [lex?.go.eq_def] at read
    dsimp only at read
    cases kept : cs.dropWhile isSpace with
    | nil =>
      rw [kept] at read
      cases read
      exact nofun
    | cons c more =>
      rw [kept] at read
      cases read
  | succ steps ih =>
    rw [lex?.go.eq_def] at read
    dsimp only at read
    cases kept : cs.dropWhile isSpace with
    | nil =>
      rw [kept] at read
      cases read
      exact nofun
    | cons c more =>
      rw [kept] at read
      obtain ⟨⟨t, rest⟩, first, later⟩ := Option.bind_eq_some_iff.mp read
      obtain ⟨ts', known, same⟩ := Option.bind_eq_some_iff.mp later
      cases same
      exact List.forall_mem_cons.mpr ⟨fits_of_first? first, ih known⟩

theorem fits_of_leaf? {t : Token} {l : Leaf} (fits : t.Fits) (known : t.leaf? = some l) :
    l.Fits := by
  intro i value
  cases t with
  | mark c => cases known
  | string s? =>
    cases known
    cases s? <;> cases value
  | scalar s? =>
    cases known
    cases s? with
    | none => cases value
    | some s =>
      cases value
      exact fits i rfl

end Token

def Enclosing.Fits : Enclosing → Prop
  | list items => ∀ n ∈ items, n.Fits
  | map entries _ => ∀ e ∈ entries, e.2.Fits

namespace Partial

def Fits : Partial → Prop
  | value _ around => ∀ e ∈ around, e.Fits
  | key _ entries around => (∀ e ∈ entries, e.2.Fits) ∧ ∀ e ∈ around, e.Fits
  | colon _ entries around => (∀ e ∈ entries, e.2.Fits) ∧ ∀ e ∈ around, e.Fits
  | done n around => n.Fits ∧ ∀ e ∈ around, e.Fits

theorem fits_step? {p q : Partial} {t : Token} (fits : p.Fits) (token : t.Fits)
    (step : p.step? t = some q) : q.Fits := by
  unfold step? at step
  split at step
  · cases step
    exact List.forall_mem_cons.mpr ⟨nofun, fits⟩
  · cases step
    exact ⟨nofun, fits⟩
  · cases step
    exact ⟨.list nofun, (List.forall_mem_cons.mp fits).2⟩
  · obtain ⟨l, known, rfl⟩ := Option.map_eq_some_iff.mp step
    exact ⟨.leaf (Token.fits_of_leaf? token known), fits⟩
  · obtain ⟨l, _, rfl⟩ := Option.map_eq_some_iff.mp step
    exact fits
  · cases step
    exact ⟨.map nofun, fits.2⟩
  · cases step
    exact List.forall_mem_cons.mpr fits
  · cases step
    have around := List.forall_mem_cons.mp fits.2
    exact List.forall_mem_cons.mpr ⟨List.forall_mem_cons.mpr ⟨fits.1, around.1⟩, around.2⟩
  · cases step
    have around := List.forall_mem_cons.mp fits.2
    refine ⟨.list fun n inside => ?_, around.2⟩
    exact List.forall_mem_cons.mpr ⟨fits.1, around.1⟩ n (List.mem_reverse.mp inside)
  · cases step
    have around := List.forall_mem_cons.mp fits.2
    exact ⟨List.forall_mem_cons.mpr ⟨fits.1, around.1⟩, around.2⟩
  · cases step
    have around := List.forall_mem_cons.mp fits.2
    refine ⟨.map fun e inside => ?_, around.2⟩
    rcases List.mem_cons.mp (List.mem_reverse.mp inside) with rfl | before
    · exact fits.1
    · exact around.1 e before
  · cases step

theorem fits_foldlM {ts : List Token} (tokens : ∀ t ∈ ts, t.Fits) {p q : Partial} (fits : p.Fits)
    (steps : ts.foldlM step? p = some q) : q.Fits := by
  induction ts generalizing p with
  | nil =>
    cases steps
    exact fits
  | cons t rest ih =>
    obtain ⟨next, now, later⟩ := Option.bind_eq_some_iff.mp steps
    have token := List.forall_mem_cons.mp tokens
    exact ih token.2 (fits_step? fits token.1 now) later

end Partial

theorem fits_of_draft? {text : List Char} {d : Draft} (read : draft? text = some d) : d.Fits := by
  obtain ⟨n, tree, same⟩ := Option.bind_eq_some_iff.mp read
  cases same
  obtain ⟨ts, lexed, built⟩ := Option.bind_eq_some_iff.mp tree
  obtain ⟨last, steps, result⟩ := Option.bind_eq_some_iff.mp built
  have fits := Partial.fits_foldlM (Token.fits_of_go lexed) (p := .value false []) nofun steps
  refine ⟨?_, nofun⟩
  unfold Partial.result? at result
  split at result
  · cases result
    exact fits.1
  · cases result

end SchemaSplit.Json
