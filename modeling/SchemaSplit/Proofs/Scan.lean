import Mathlib.Data.Option.Basic

namespace SchemaSplit.Text

variable {α : Type} (isSpace : Char → Bool) (first? : List Char → Option (α × List Char))

def scan? : (steps : Nat) → List Char → Option (List α)
  | steps, cs =>
    match steps, cs.dropWhile isSpace with
    | _, [] => some []
    | 0, _ => none
    | steps + 1, cs => do
      let (t, rest) ← first? cs
      return t :: (← scan? steps rest)

inductive Scans : List Char → List α → Prop
  | nil : Scans [] []
  | space {c : Char} {cs : List Char} {ts : List α} (blank : isSpace c) (rest : Scans cs ts) :
      Scans (c :: cs) ts
  | token {c : Char} {word rest : List Char} {t : α} {ts : List α} (solid : isSpace c = false)
      (read : first? (c :: word ++ rest) = some (t, rest)) (more : Scans rest ts) :
      Scans (c :: word ++ rest) (t :: ts)

variable {isSpace first?}

theorem scan?_space {c : Char} (blank : isSpace c) (steps : Nat) (cs : List Char) :
    scan? isSpace first? steps (c :: cs) = scan? isSpace first? steps cs := by
  rw [scan?.eq_def, scan?.eq_def _ _ _ cs]
  dsimp only
  rw [List.dropWhile_cons_of_pos blank]

theorem scan?_token {c : Char} {word rest : List Char} {t : α} (solid : isSpace c = false)
    (read : first? (c :: word ++ rest) = some (t, rest)) (steps : Nat) :
    scan? isSpace first? (steps + 1) (c :: word ++ rest) =
      (t :: ·) <$> scan? isSpace first? steps rest := by
  have kept : (c :: (word ++ rest)).dropWhile isSpace = c :: (word ++ rest) :=
    List.dropWhile_cons_of_neg (by simp [solid])
  rw [List.cons_append] at read ⊢
  rw [scan?.eq_def]
  dsimp only
  rw [kept]
  dsimp only
  rw [read, Option.bind_eq_bind, Option.bind_some]
  cases scan? isSpace first? steps rest <;> rfl

theorem scan?_of_scans {cs : List Char} {ts : List α} (scans : Scans isSpace first? cs ts)
    {steps : Nat} (enough : cs.length ≤ steps) : scan? isSpace first? steps cs = some ts := by
  induction scans generalizing steps with
  | nil => cases steps <;> rfl
  | @space c cs ts blank rest ih =>
    rw [scan?_space blank]
    apply ih
    rw [List.length_cons] at enough
    omega
  | @token c word rest t ts solid read more ih =>
    rw [List.cons_append, List.length_cons, List.length_append] at enough
    cases steps with
    | zero => omega
    | succ steps =>
      rw [scan?_token solid read, ih (by omega)]
      rfl

end SchemaSplit.Text
