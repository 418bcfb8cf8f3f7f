import SchemaSplit.Json.Reader
import SchemaSplit.Proofs.Json.Basic
import SchemaSplit.Proofs.Json.Token
import SchemaSplit.Proofs.Scan

namespace SchemaSplit.Json

namespace Token

inductive Lexes : List Char → List Token → Prop
  | nil : Lexes [] []
  | space {c : Char} {cs : List Char} {ts : List Token} (blank : isSpace c)
      (rest : Lexes cs ts) : Lexes (c :: cs) ts
  | token {c : Char} {word rest : List Char} {t : Token} {ts : List Token}
      (solid : isSpace c = false) (read : first? (c :: word ++ rest) = some (t, rest))
      (more : Lexes rest ts) : Lexes (c :: word ++ rest) (t :: ts)

theorem Lexes.scans {cs : List Char} {ts : List Token} (lexes : Lexes cs ts) :
    Text.Scans isSpace first? cs ts := by
  induction lexes with
  | nil => exact .nil
  | space blank _ ih => exact .space blank ih
  | token solid read _ ih => exact .token solid read ih

theorem go_eq_scan? (steps : Nat) (cs : List Char) :
    lex?.go steps cs = Text.scan? isSpace first? steps cs := by
  induction steps generalizing cs with
  | zero =>
    rw [lex?.go.eq_def, Text.scan?.eq_def]
    dsimp only
    cases cs.dropWhile isSpace <;> rfl
  | succ steps ih =>
    rw [lex?.go.eq_def, Text.scan?.eq_def]
    dsimp only
    cases cs.dropWhile isSpace with
    | nil => rfl
    | cons c rest => simp only [ih]

theorem lex?_of_lexes {cs : List Char} {ts : List Token} (lexes : Lexes cs ts) :
    lex? cs = some ts := by
  rw [lex?, go_eq_scan?]
  exact Text.scan?_of_scans lexes.scans (Nat.le_refl _)

theorem Lexes.spaces {spaces rest : List Char} {ts : List Token}
    (blank : ∀ c ∈ spaces, isSpace c) (more : Lexes rest ts) : Lexes (spaces ++ rest) ts := by
  induction spaces with
  | nil => exact more
  | cons c spaces ih =>
    rw [List.forall_mem_cons] at blank
    exact .space blank.1 (ih blank.2)

theorem Lexes.mark {c : Char} {rest : List Char} {ts : List Token} (mark : isMark c)
    (more : Lexes rest ts) : Lexes (c :: rest) (.mark c :: ts) := by
  have solid : isSpace c = false := by
    simp only [isMark, Bool.or_eq_true, beq_iff_eq] at mark
    rcases mark with ((((rfl | rfl) | rfl) | rfl) | rfl) | rfl <;> rfl
  exact @Lexes.token c [] rest _ _ solid (first?_mark mark rest) more

theorem Lexes.newLine (depth : Nat) {rest : List Char} {ts : List Token} (more : Lexes rest ts) :
    Lexes ((Json.newLine depth).toList ++ rest) ts := by
  apply Lexes.spaces _ more
  intro c member
  simp only [Json.newLine, String.toList_append, String.toList_ofList, List.mem_append] at member
  rcases member with line | indent
  · rw [List.mem_singleton.mp line]
    rfl
  · rw [List.eq_of_mem_replicate indent]
    rfl

theorem text_cons {s : Scalar} (back : s.ReadsBack) :
    ∃ c word, s.text.toList = c :: word ∧ isSpace c = false := by
  have ofNumber : ∀ {cs : List Char} {n : Numeral}, number? cs = some (n, []) →
      ∃ c word, cs = c :: word ∧ isSpace c = false := by
    intro cs n read
    cases cs with
    | nil => cases read
    | cons c word =>
      refine ⟨c, word, rfl, ?_⟩
      by_contra blank
      simp only [isSpace, Bool.not_eq_false, Bool.or_eq_true, beq_iff_eq] at blank
      rcases blank with ((rfl | rfl) | rfl) | rfl <;>
        rcases number?_head read with same | isDigit <;> contradiction
  cases s with
  | null => exact ⟨_, _, rfl, rfl⟩
  | bool b => cases b <;> exact ⟨_, _, rfl, rfl⟩
  | int n => exact ofNumber (number?_int n)
  | double x =>
    obtain ⟨n, read, -⟩ := back
    exact ofNumber read
  | string s => exact ⟨_, _, String.toList_ofList, rfl⟩

theorem Lexes.scalar {s : Scalar} (back : s.ReadsBack) {rest : List Char} {ts : List Token}
    (ends : EndsNumber rest) (more : Lexes rest ts) :
    Lexes (s.text.toList ++ rest) (s.token :: ts) := by
  have read := s.first?_text back ends
  obtain ⟨c, word, text, solid⟩ := text_cons back
  rw [text] at read ⊢
  exact .token solid read more

theorem Lexes.name (name : String) {rest : List Char} {ts : List Token} (more : Lexes rest ts) :
    Lexes ((quote name).toList ++ rest) (.string (some name) :: ts) := by
  have read := first?_quote name rest
  have text : (quote name).toList = '\x22' :: (name.toList.flatMap escape ++ ['\x22']) := by
    rw [quote, String.toList_ofList, List.cons_append]
  rw [text] at read ⊢
  exact .token rfl read more

theorem endsNumber_newLine (depth : Nat) (rest : List Char) :
    EndsNumber ((Json.newLine depth).toList ++ rest) := by
  intro c head
  rw [Json.newLine, String.toList_append, List.append_assoc] at head
  cases head
  decide

theorem endsNumber_cons {c : Char} (ends : c.isDigit = false ∧ c ≠ '.' ∧ c ≠ 'e' ∧ c ≠ 'E')
    (rest : List Char) : EndsNumber (c :: rest) := by
  intro d head
  cases head
  exact ends

end Token

open Token

mutual

def tokens : Json → List Token
  | .scalar s => [s.token]
  | .array [] => [.mark '[', .mark ']']
  | .array (j :: rest) => .mark '[' :: (tokens j ++ (itemTokens rest ++ [.mark ']']))
  | .object [] => [.mark '\x7b', .mark '\x7d']
  | .object ((name, j) :: rest) =>
    .mark '\x7b' :: .string (some name) :: .mark ':' ::
      (tokens j ++ (fieldTokens rest ++ [.mark '\x7d']))
termination_by structural j => j

def itemTokens : List Json → List Token
  | [] => []
  | j :: rest => .mark ',' :: (tokens j ++ itemTokens rest)
termination_by structural js => js

def fieldTokens : List (String × Json) → List Token
  | [] => []
  | (name, j) :: rest =>
    .mark ',' :: .string (some name) :: .mark ':' :: (tokens j ++ fieldTokens rest)
termination_by structural fs => fs

end

theorem endsNumber_prettyItems (depth : Nat) (js : List Json) {rest : List Char}
    (ends : EndsNumber rest) : EndsNumber ((prettyItems depth js).toList ++ rest) := by
  cases js with
  | nil => exact ends
  | cons j js =>
    rw [prettyItems]
    simp only [String.toList_append, List.append_assoc]
    exact endsNumber_cons (by decide) _

theorem endsNumber_prettyFields (depth : Nat) (fs : List (String × Json)) {rest : List Char}
    (ends : EndsNumber rest) : EndsNumber ((prettyFields depth fs).toList ++ rest) := by
  cases fs with
  | nil => exact ends
  | cons f fs =>
    rcases f with ⟨name, j⟩
    rw [prettyFields]
    simp only [String.toList_append, List.append_assoc]
    exact endsNumber_cons (by decide) _

mutual

theorem lexes_pretty (depth : Nat) (j : Json) (back : ∀ s ∈ j.scalars, s.ReadsBack)
    {rest : List Char} {ts : List Token} (ends : EndsNumber rest) (more : Lexes rest ts) :
    Lexes ((pretty depth j).toList ++ rest) (tokens j ++ ts) := by
  cases j with
  | scalar s =>
    rw [pretty, tokens]
    exact .scalar (back s (by simp [scalars])) ends more
  | array items =>
    cases items with
    | nil =>
      have text : "[]".toList = ['[', ']'] := rfl
      rw [pretty, tokens, text]
      exact .mark rfl (.mark rfl more)
    | cons j items =>
      have backHere : ∀ s ∈ j.scalars, s.ReadsBack :=
        fun s inside => back s (by simp [scalars, itemScalars, inside])
      have backThere : ∀ s ∈ itemScalars items, s.ReadsBack :=
        fun s inside => back s (by simp [scalars, itemScalars, inside])
      rw [pretty, tokens]
      simp only [String.toList_append, List.append_assoc, List.cons_append]
      apply Lexes.mark rfl
      apply Lexes.newLine
      apply lexes_pretty (depth + 1) j backHere
      · exact endsNumber_prettyItems _ _ (endsNumber_newLine _ _)
      · apply lexes_prettyItems (depth + 1) items backThere (endsNumber_newLine _ _)
        exact .newLine _ (.mark rfl more)
  | object fields =>
    cases fields with
    | nil =>
      have text : "\x7b\x7d".toList = ['\x7b', '\x7d'] := rfl
      rw [pretty, tokens, text]
      exact .mark rfl (.mark rfl more)
    | cons f fields =>
      rcases f with ⟨name, j⟩
      have backHere : ∀ s ∈ j.scalars, s.ReadsBack :=
        fun s inside => back s (by simp [scalars, fieldScalars, inside])
      have backThere : ∀ s ∈ fieldScalars fields, s.ReadsBack :=
        fun s inside => back s (by simp [scalars, fieldScalars, inside])
      rw [pretty, tokens]
      simp only [String.toList_append, List.append_assoc, List.cons_append]
      apply Lexes.mark rfl
      apply Lexes.newLine
      apply Lexes.name
      apply Lexes.mark rfl
      apply Lexes.space rfl
      apply lexes_pretty (depth + 1) j backHere
      · exact endsNumber_prettyFields _ _ (endsNumber_newLine _ _)
      · apply lexes_prettyFields (depth + 1) fields backThere (endsNumber_newLine _ _)
        exact .newLine _ (.mark rfl more)
termination_by structural j

theorem lexes_prettyItems (depth : Nat) (js : List Json)
    (back : ∀ s ∈ itemScalars js, s.ReadsBack) {rest : List Char} {ts : List Token}
    (ends : EndsNumber rest) (more : Lexes rest ts) :
    Lexes ((prettyItems depth js).toList ++ rest) (itemTokens js ++ ts) := by
  cases js with
  | nil => exact more
  | cons j js =>
    have backHere : ∀ s ∈ j.scalars, s.ReadsBack :=
      fun s inside => back s (by simp [itemScalars, inside])
    have backThere : ∀ s ∈ itemScalars js, s.ReadsBack :=
      fun s inside => back s (by simp [itemScalars, inside])
    rw [prettyItems, itemTokens]
    simp only [String.toList_append, List.append_assoc, List.cons_append]
    apply Lexes.mark rfl
    apply Lexes.newLine
    apply lexes_pretty depth j backHere
    · exact endsNumber_prettyItems _ _ ends
    · exact lexes_prettyItems depth js backThere ends more
termination_by structural js

theorem lexes_prettyFields (depth : Nat) (fs : List (String × Json))
    (back : ∀ s ∈ fieldScalars fs, s.ReadsBack) {rest : List Char} {ts : List Token}
    (ends : EndsNumber rest) (more : Lexes rest ts) :
    Lexes ((prettyFields depth fs).toList ++ rest) (fieldTokens fs ++ ts) := by
  cases fs with
  | nil => exact more
  | cons f fs =>
    rcases f with ⟨name, j⟩
    have backHere : ∀ s ∈ j.scalars, s.ReadsBack :=
      fun s inside => back s (by simp [fieldScalars, inside])
    have backThere : ∀ s ∈ fieldScalars fs, s.ReadsBack :=
      fun s inside => back s (by simp [fieldScalars, inside])
    rw [prettyFields, fieldTokens]
    simp only [String.toList_append, List.append_assoc, List.cons_append]
    apply Lexes.mark rfl
    apply Lexes.newLine
    apply Lexes.name
    apply Lexes.mark rfl
    apply Lexes.space rfl
    apply lexes_pretty depth j backHere
    · exact endsNumber_prettyFields _ _ ends
    · exact lexes_prettyFields depth fs backThere ends more
termination_by structural fs

end

namespace Partial

variable {mayClose : Bool} {around : List Enclosing}

theorem step?_scalar (s : Scalar) :
    step? (.value mayClose around) s.token = some (.done (.leaf (.ofScalar s)) around) := by
  cases s <;> rfl

mutual

/-- The tokens of a value build its tree, wherever a value may stand. -/
theorem builds (j : Json) (mayClose : Bool) (around : List Enclosing) :
    j.tokens.foldlM step? (.value mayClose around) = some (.done (.ofJson j) around) := by
  cases j with
  | scalar s =>
    rw [tokens, List.foldlM_cons, step?_scalar, Node.ofJson]
    rfl
  | array items =>
    cases items with
    | nil =>
      rw [tokens, Node.ofJson, Node.ofJsonItems]
      rfl
    | cons j items =>
      have first := builds j true (.list [] :: around)
      have others := buildsItems items (.ofJson j) [] around
      rw [tokens, List.foldlM_cons]
      show List.foldlM step? (.value true (.list [] :: around)) _ = _
      rw [List.foldlM_append, first]
      exact others
  | object fields =>
    cases fields with
    | nil =>
      rw [tokens, Node.ofJson, Node.ofJsonFields]
      rfl
    | cons f fields =>
      rcases f with ⟨name, j⟩
      have first := builds j false (.map [] (.leaf (.ofScalar (.string name))) :: around)
      have others := buildsFields fields (.ofJson j) (.leaf (.ofScalar (.string name))) [] around
      rw [tokens, List.foldlM_cons]
      show List.foldlM step?
        (.value false (.map [] (.leaf (.ofScalar (.string name))) :: around)) _ = _
      rw [List.foldlM_append, first]
      exact others
termination_by structural j

theorem buildsItems (js : List Json) (n : Node) (items : List Node) (around : List Enclosing) :
    (itemTokens js ++ [Token.mark ']']).foldlM step? (.done n (.list items :: around)) =
      some (.done (.list (items.reverse ++ n :: Node.ofJsonItems js) false) around) := by
  cases js with
  | nil =>
    rw [itemTokens, Node.ofJsonItems, ← List.reverse_cons]
    rfl
  | cons j js =>
    have first := builds j false (.list (n :: items) :: around)
    have others := buildsItems js (.ofJson j) (n :: items) around
    rw [itemTokens, List.cons_append, List.foldlM_cons, List.append_assoc]
    show List.foldlM step? (.value false (.list (n :: items) :: around)) _ = _
    rw [List.foldlM_append, first]
    rw [List.reverse_cons, List.append_assoc] at others
    exact others
termination_by structural js

theorem buildsFields (fs : List (String × Json)) (n k : Node) (entries : List (Node × Node))
    (around : List Enclosing) :
    (fieldTokens fs ++ [Token.mark '\x7d']).foldlM step? (.done n (.map entries k :: around)) =
      some (.done (.map (entries.reverse ++ (k, n) :: Node.ofJsonFields fs) false) around) := by
  cases fs with
  | nil =>
    rw [fieldTokens, Node.ofJsonFields, ← List.reverse_cons]
    rfl
  | cons f fs =>
    rcases f with ⟨name, j⟩
    have first := builds j false
      (.map ((k, n) :: entries) (.leaf (.ofScalar (.string name))) :: around)
    have others := buildsFields fs (.ofJson j) (.leaf (.ofScalar (.string name)))
      ((k, n) :: entries) around
    rw [fieldTokens, List.cons_append, List.cons_append, List.cons_append, List.append_assoc,
      List.foldlM_cons]
    show List.foldlM step?
      (.value false (.map ((k, n) :: entries) (.leaf (.ofScalar (.string name))) :: around)) _ = _
    rw [List.foldlM_append, first]
    rw [List.reverse_cons, List.append_assoc] at others
    exact others
termination_by structural fs

end

end Partial

theorem node?_of_lex? {text : List Char} {j : Json} (lexed : Token.lex? text = some (tokens j)) :
    node? text = some (.ofJson j) := by
  rw [node?, lexed, Option.bind_eq_bind, Option.bind_some, Partial.builds]
  rfl

theorem node?_pretty (j : Json) (back : ∀ s ∈ j.scalars, s.ReadsBack) :
    node? (j.pretty 0 ++ "\n").toList = some (.ofJson j) := by
  have lexes : Lexes (j.pretty 0 ++ "\n").toList (tokens j ++ []) := by
    rw [String.toList_append]
    exact lexes_pretty 0 j back (endsNumber_cons (by decide) []) (.space rfl .nil)
  rw [List.append_nil] at lexes
  exact node?_of_lex? (lex?_of_lexes lexes)

end SchemaSplit.Json
