import Mathlib.Data.List.Forall2

theorem Except.bind_eq_ok {ε α β : Type} {x : Except ε α} {f : α → Except ε β} {b : β} :
    x >>= f = .ok b ↔ ∃ a, x = .ok a ∧ f a = .ok b := by
  cases x <;> simp [bind, Except.bind]

theorem Except.map_eq_ok {ε α β : Type} {x : Except ε α} {f : α → β} {b : β} :
    f <$> x = .ok b ↔ ∃ a, x = .ok a ∧ f a = b := by
  cases x <;> simp [Functor.map, Except.map]

namespace Except

variable {ε α β : Type}

theorem map_eq_error {x : Except ε α} {f : α → β} {e : ε} : f <$> x = .error e ↔ x = .error e := by
  cases x <;> simp [Functor.map, Except.map]

theorem isOk_iff {x : Except ε α} : x.isOk ↔ ∃ a, x = .ok a := by
  cases x <;> simp [Except.isOk, Except.toBool]

@[simp] theorem isOk_pure (a : α) : (pure a : Except ε α).isOk = true := rfl

@[simp] theorem isOk_map (f : α → β) (x : Except ε α) : (f <$> x).isOk = x.isOk := by
  cases x <;> rfl

/-- Of two computations the second may use the result of the first, as long as it does not depend on
    that result whether there is another one. -/
theorem isOk_bind {x : Except ε α} {f : α → Except ε β} {later : Bool}
    (same : ∀ a, (f a).isOk = later) : (x >>= f).isOk = (x.isOk && later) := by
  cases x with
  | error e => rfl
  | ok a => exact same a

end Except

/-- The computation gives a result, or it fails with an error that has `P`. -/
def Except.Blames {ε α : Type} (P : ε → Prop) (x : Except ε α) : Prop := ∀ e, x = .error e → P e

namespace Except.Blames

variable {ε α β : Type} {P Q : ε → Prop} {x : Except ε α}

protected theorem pure (a : α) : (pure a : Except ε α).Blames P := nofun

protected theorem bind {f : α → Except ε β} (first : x.Blames P)
    (next : ∀ a, x = .ok a → (f a).Blames P) : (x >>= f).Blames P := by
  cases x with
  | error e => exact fun _ same => first _ (by cases same; rfl)
  | ok a => exact next a rfl

protected theorem map (f : α → β) (first : x.Blames P) : (f <$> x).Blames P := by
  cases x with
  | error e => exact fun _ same => first _ (by cases same; rfl)
  | ok a => nofun

protected theorem mono (first : x.Blames P) (weaker : ∀ e, P e → Q e) : x.Blames Q :=
  fun e same => weaker e (first e same)

protected theorem mapM {f : α → Except ε β} {as : List α} (each : ∀ a ∈ as, (f a).Blames P) :
    (as.mapM f).Blames P := by
  induction as with
  | nil => exact Blames.pure []
  | cons a rest ih =>
    rw [List.mapM_cons]
    refine (each a List.mem_cons_self).bind fun b _ => ?_
    refine (ih fun a inside => each a (List.mem_cons_of_mem _ inside)).bind fun bs _ => ?_
    exact Blames.pure (b :: bs)

end Except.Blames

namespace List

theorem mapM_eq_ok {ε α β : Type} {f : α → Except ε β} {as : List α} {bs : List β} :
    as.mapM f = .ok bs ↔ Forall₂ (fun a b => f a = .ok b) as bs := by
  induction as generalizing bs with
  | nil => simp [pure, Except.pure, eq_comm]
  | cons a rest ih =>
    simp only [mapM_cons, Except.bind_eq_ok, ih, forall₂_cons_left_iff, pure, Except.pure,
      Except.ok.injEq]
    constructor
    · rintro ⟨b, here, bs, there, rfl⟩
      exact ⟨b, bs, here, there, rfl⟩
    · rintro ⟨b, bs, here, there, rfl⟩
      exact ⟨b, here, bs, there, rfl⟩

theorem isOk_mapM {ε α β : Type} (f : α → Except ε β) (as : List α) :
    (as.mapM f).isOk = as.all fun a => (f a).isOk := by
  induction as with
  | nil => rfl
  | cons a rest ih =>
    rw [mapM_cons, all_cons, ← ih]
    refine Except.isOk_bind fun b => ?_
    rw [Except.isOk_bind fun _ => Except.isOk_pure _, Bool.and_true]

theorem mapM_eq_error {ε α β : Type} {f : α → Except ε β} {as : List α} {e : ε} :
    as.mapM f = .error e ↔ ∃ before a after, as = before ++ a :: after ∧
      (∀ b ∈ before, (f b).isOk) ∧ f a = .error e := by
  induction as with
  | nil => simp [pure, Except.pure]
  | cons a rest ih =>
    rw [mapM_cons]
    simp only [cons_eq_append_iff]
    cases here : f a with
    | error e' =>
      constructor
      · intro same
        cases same
        exact ⟨[], a, rest, .inl ⟨rfl, rfl⟩, nofun, here⟩
      · rintro ⟨before, b, after, ⟨rfl, same⟩ | ⟨others, rfl, -⟩, fine, failed⟩
        · cases same
          rw [here] at failed
          cases failed
          rfl
        · have first := fine a mem_cons_self
          rw [here] at first
          cases first
    | ok b =>
      have step : (Except.ok b >>= fun b => rest.mapM f >>= fun bs => pure (b :: bs)) = .error e ↔
          rest.mapM f = .error e := by
        cases rest.mapM f <;> simp [bind, Except.bind, pure, Except.pure]
      rw [step, ih]
      constructor
      · rintro ⟨before, c, after, rfl, fine, failed⟩
        refine ⟨a :: before, c, after, .inr ⟨before, rfl, rfl⟩, ?_, failed⟩
        exact forall_mem_cons.mpr ⟨Except.isOk_iff.mpr ⟨b, here⟩, fine⟩
      · rintro ⟨before, c, after, ⟨rfl, same⟩ | ⟨others, rfl, rfl⟩, fine, failed⟩
        · cases same
          rw [here] at failed
          cases failed
        · exact ⟨others, c, after, rfl, (forall_mem_cons.mp fine).2, failed⟩

theorem mapM_eq_some {α β : Type} {f : α → Option β} {as : List α} {bs : List β} :
    as.mapM f = some bs ↔ Forall₂ (fun a b => f a = some b) as bs := by
  induction as generalizing bs with
  | nil => simp [eq_comm]
  | cons a rest ih =>
    simp only [mapM_cons, Option.bind_eq_bind, Option.bind_eq_some_iff, ih, forall₂_cons_left_iff,
      pure, Option.some.injEq]
    constructor
    · rintro ⟨b, here, bs, there, rfl⟩
      exact ⟨b, bs, here, there, rfl⟩
    · rintro ⟨b, bs, here, there, rfl⟩
      exact ⟨b, here, bs, there, rfl⟩

theorem mapM_map_eq_some {α β : Type} {f : α → Option β} {g : β → α} (bs : List β)
    (inverse : ∀ b ∈ bs, f (g b) = some b) : (bs.map g).mapM f = some bs := by
  rw [mapM_eq_some, forall₂_map_left_iff]
  exact forall₂_same.mpr inverse

theorem mapM_eq_pure {m : Type → Type} [Monad m] [LawfulMonad m] {α : Type} {f : α → m α}
    {as : List α} (same : ∀ a ∈ as, f a = pure a) : as.mapM f = pure as := by
  induction as with
  | nil => rfl
  | cons a rest ih =>
    rw [mapM_cons, same a mem_cons_self, ih fun b inside => same b (mem_cons_of_mem _ inside)]
    simp only [pure_bind]

theorem Forall₂.exists_left {α β : Type} {R : α → β → Prop} {as : List α} {bs : List β}
    (all : Forall₂ R as bs) {b : β} (member : b ∈ bs) : ∃ a ∈ as, R a b := by
  induction all with
  | nil => cases member
  | cons here _ ih =>
    rcases mem_cons.mp member with rfl | later
    · exact ⟨_, mem_cons_self, here⟩
    · obtain ⟨a, inside, related⟩ := ih later
      exact ⟨a, mem_cons_of_mem _ inside, related⟩

theorem Forall₂.exists_right {α β : Type} {R : α → β → Prop} {as : List α} {bs : List β}
    (all : Forall₂ R as bs) {a : α} (member : a ∈ as) : ∃ b ∈ bs, R a b :=
  all.flip.exists_left member

theorem Forall₂.split_left {α β : Type} {R : α → β → Prop} {before after : List α} {a : α}
    {bs : List β} (all : Forall₂ R (before ++ a :: after) bs) :
    ∃ before' b after', bs = before' ++ b :: after' ∧ Forall₂ R before before' ∧ R a b ∧
      Forall₂ R after after' := by
  induction before generalizing bs with
  | nil =>
    obtain ⟨b, after', here, rest, rfl⟩ := forall₂_cons_left_iff.mp all
    exact ⟨[], b, after', rfl, .nil, here, rest⟩
  | cons first before ih =>
    obtain ⟨b, bs, here, rest, rfl⟩ := forall₂_cons_left_iff.mp all
    obtain ⟨before', c, after', rfl, earlier, middle, later⟩ := ih rest
    exact ⟨b :: before', c, after', rfl, .cons here earlier, middle, later⟩

theorem Forall₂.split_right {α β : Type} {R : α → β → Prop} {as : List α} {before after : List β}
    {b : β} (all : Forall₂ R as (before ++ b :: after)) :
    ∃ before' a after', as = before' ++ a :: after' ∧ Forall₂ R before' before ∧ R a b ∧
      Forall₂ R after' after := by
  obtain ⟨before', a, after', split, earlier, middle, later⟩ := all.flip.split_left
  exact ⟨before', a, after', split, earlier.flip, middle, later.flip⟩

end List

namespace SchemaSplit

/-- Started with `I`, the computation ends, if at all, with `I` and a result with `P`. -/
def Keeps {σ α : Type} (I : σ → Prop) (x : StateT σ Option α) (P : α → Prop) : Prop :=
  ∀ s, I s → ∀ a t, x.run s = some (a, t) → P a ∧ I t

namespace Keeps

variable {σ α β : Type} {I : σ → Prop} {P : α → Prop} {x : StateT σ Option α}

protected theorem pure {a : α} (here : P a) : Keeps I (pure a) P := by
  intro s holds b t run
  cases run
  exact ⟨here, holds⟩

protected theorem failure : Keeps I failure P := by
  intro s holds b t run
  cases run

protected theorem bind {R : β → Prop} {f : α → StateT σ Option β} (first : Keeps I x P)
    (next : ∀ a, P a → Keeps I (f a) R) : Keeps I (x >>= f) R := by
  intro s holds b u run
  obtain ⟨⟨a, t⟩, now, later⟩ := Option.bind_eq_some_iff.mp run
  have reached := first s holds a t now
  exact next a reached.1 t reached.2 b u later

theorem anything (x : StateT σ Option α) : Keeps (fun _ => True) x fun _ => True :=
  fun _ _ _ _ _ => ⟨trivial, trivial⟩

protected theorem get : Keeps I get I := by
  intro s holds a t run
  cases run
  exact ⟨holds, holds⟩

protected theorem set {s : σ} (holds : I s) : Keeps I (set s) fun _ => True := by
  intro _ _ a t run
  cases run
  exact ⟨trivial, holds⟩

protected theorem modify {f : σ → σ} (step : ∀ s, I s → I (f s)) :
    Keeps I (modify f) fun _ => True := by
  intro s holds a t run
  cases run
  exact ⟨trivial, step s holds⟩

protected theorem guard (condition : Prop) [Decidable condition] :
    Keeps I (guard condition) fun _ => True := by
  unfold guard
  split
  · exact Keeps.pure trivial
  · exact Keeps.failure

protected theorem mapM {R : β → Prop} {f : α → StateT σ Option β} {as : List α}
    (each : ∀ a ∈ as, Keeps I (f a) R) : Keeps I (as.mapM f) fun bs => ∀ b ∈ bs, R b := by
  induction as with
  | nil => exact Keeps.pure nofun
  | cons a rest ih =>
    rw [List.mapM_cons]
    refine (each a List.mem_cons_self).bind fun b here => ?_
    refine (ih fun a inside => each a (List.mem_cons_of_mem _ inside)).bind fun bs there => ?_
    exact Keeps.pure (List.forall_mem_cons.mpr ⟨here, there⟩)

protected theorem filterMapM {R : β → Prop} {f : α → StateT σ Option (Option β)} {as : List α}
    (each : ∀ a ∈ as, Keeps I (f a) fun b? => ∀ b, b? = some b → R b) :
    Keeps I (as.filterMapM f) fun bs => ∀ b ∈ bs, R b := by
  induction as with
  | nil => exact Keeps.pure nofun
  | cons a rest ih =>
    rw [List.filterMapM_cons]
    refine (each a List.mem_cons_self).bind fun b? here => ?_
    have there := ih fun a inside => each a (List.mem_cons_of_mem _ inside)
    cases b? with
    | none => exact there
    | some b =>
      exact there.bind fun bs there => Keeps.pure (List.forall_mem_cons.mpr ⟨here b rfl, there⟩)

end Keeps
end SchemaSplit
