import SchemaSplit.Proofs.TypeScript.Header
import SchemaSplit.Proofs.TypeScript.LegalName
import Mathlib.Data.List.Chain

namespace SchemaSplit

namespace Text

theorem trimEnd_eq_nil {cs : List Char} : trimEnd cs = [] ↔ ∀ c ∈ cs, isBlank c := by
  rw [trimEnd, List.reverse_eq_nil_iff, List.dropWhile_eq_nil_iff]
  exact forall_congr' fun c => imp_congr_left List.mem_reverse

theorem trim_eq_nil {cs : List Char} : trim cs = [] ↔ ∀ c ∈ cs, isBlank c := by
  rw [trim, trimEnd_eq_nil]
  constructor
  · intro blank c inside
    rw [← List.takeWhile_append_dropWhile (p := isBlank) (l := cs), List.mem_append] at inside
    rcases inside with before | behind
    · exact List.mem_takeWhile_imp before
    · exact blank c behind
  · intro blank c inside
    exact blank c ((trimStart_suffix cs).subset inside)

end Text

namespace TypeScript

def Apart (a b : Char) : Prop := ¬ (a = '*' ∧ b = '/')

structure GoesOn (text : List Char) : Prop where
  apart : text.IsChain Apart
  last : ∀ c ∈ text.getLast?, c ≠ '*'

theorem isChain_apart_iff {text : List Char} :
    text.IsChain Apart ↔ ¬ ['*', '/'] <:+: text := by
  rw [List.isChain_iff_forall_rel_of_append_cons_cons]
  constructor
  · rintro apart ⟨before, after, rfl⟩
    exact apart (List.append_assoc before _ after) ⟨rfl, rfl⟩
  · rintro none a b before after rfl ⟨rfl, rfl⟩
    exact none ⟨before, after, by simp⟩

theorem head?_guardComment (text : List Char) : (guardComment text).head? = text.head? := by
  unfold guardComment
  split <;> rfl

theorem isChain_guardComment (text : List Char) : (guardComment text).IsChain Apart := by
  fun_induction guardComment text with
  | case1 rest ih =>
    have guard : Apart '*' '\\' ∧ Apart '\\' '/' := by simp [Apart]
    refine .cons_cons guard.1 (.cons_cons guard.2 (List.isChain_cons.mpr ⟨?_, ih⟩))
    exact fun c _ => by simp [Apart]
  | case2 c rest noEnd ih =>
    refine List.isChain_cons.mpr ⟨?_, ih⟩
    rintro d next ⟨rfl, rfl⟩
    rw [head?_guardComment, Option.mem_def] at next
    obtain ⟨behind, rfl⟩ := List.head?_eq_some_iff.mp next
    exact noEnd behind rfl rfl
  | case3 => exact .nil

theorem guardComment_eq_nil {text : List Char} : guardComment text = [] ↔ text = [] := by
  rw [← List.head?_eq_none_iff, head?_guardComment, List.head?_eq_none_iff]

section Lines

variable {isSplit : Char → Bool} {text run line : List Char}

theorem splitBy_cons (isSplit : Char → Bool) (c : Char) (rest : List Char) :
    ∃ first runs, splitBy isSplit rest = first :: runs ∧
      splitBy isSplit (c :: rest) =
        if isSplit c then [] :: first :: runs else (c :: first) :: runs := by
  obtain ⟨first, runs, split⟩ := List.exists_cons_of_ne_nil (splitBy_ne_nil isSplit rest)
  refine ⟨first, runs, split, ?_⟩
  rw [splitBy, split]

theorem infix_splitBy (isSplit : Char → Bool) (text : List Char) :
    ∃ first runs, splitBy isSplit text = first :: runs ∧ first <+: text ∧
      ∀ run ∈ runs, run <:+: text := by
  induction text with
  | nil => exact ⟨[], [], rfl, List.nil_prefix, nofun⟩
  | cons c rest ih =>
    obtain ⟨first, runs, split, start, others⟩ := ih
    obtain ⟨_, _, same, whole⟩ := splitBy_cons isSplit c rest
    cases split.symm.trans same
    rw [whole]
    split
    · refine ⟨[], first :: runs, rfl, List.nil_prefix, List.forall_mem_cons.mpr ⟨?_, ?_⟩⟩
      · exact List.infix_cons start.isInfix
      · exact fun run inside => List.infix_cons (others run inside)
    · refine ⟨c :: first, runs, rfl, List.cons_prefix_cons.mpr ⟨rfl, start⟩, ?_⟩
      exact fun run inside => List.infix_cons (others run inside)

theorem infix_of_mem_splitBy (inside : run ∈ splitBy isSplit text) : run <:+: text := by
  obtain ⟨first, runs, split, start, others⟩ := infix_splitBy isSplit text
  rw [split] at inside
  rcases List.mem_cons.mp inside with rfl | later
  · exact start.isInfix
  · exact others run later

theorem mem_splitBy_of_mem_linesOf (inside : line ∈ linesOf text) :
    line ∈ splitBy (· == '\n') text := by
  unfold linesOf at inside
  split at inside
  · rename_i before split
    rw [← List.mem_reverse, split]
    exact List.mem_cons_of_mem _ (List.mem_reverse.mp inside)
  · exact List.mem_reverse.mp (List.mem_reverse.mp inside)

theorem linesOf_eq_nil : linesOf text = [] ↔ text = [] := by
  constructor
  · intro none
    unfold linesOf at none
    split at none
    · rename_i before split
      rw [List.reverse_eq_nil_iff.mp none, ← List.reverse_singleton, List.reverse_inj] at split
      cases text with
      | nil => rfl
      | cons c rest =>
        obtain ⟨first, runs, -, whole⟩ := splitBy_cons (· == '\n') c rest
        rw [split] at whole
        split at whole <;> cases whole
    · exact absurd (List.reverse_eq_nil_iff.mp (List.reverse_eq_nil_iff.mp none))
        (splitBy_ne_nil _ text)
  · rintro rfl
    rfl

end Lines

theorem commentLines_eq_nil {description : String} :
    commentLines description = [] ↔ ∀ c ∈ description.toList, Text.isBlank c := by
  rw [commentLines, List.map_eq_nil_iff, linesOf_eq_nil, guardComment_eq_nil, Text.trim_eq_nil]

theorem line_of_mem_commentLines {description : String} {line : List Char}
    (inside : line ∈ commentLines description) : line.IsChain Apart ∧ '\n' ∉ line := by
  obtain ⟨untrimmed, among, rfl⟩ := List.mem_map.mp inside
  have run := mem_splitBy_of_mem_linesOf among
  have kept := Text.trimEnd_isPrefix untrimmed
  constructor
  · have stays := kept.isInfix.trans (infix_of_mem_splitBy run)
    exact List.IsChain.infix (isChain_guardComment _) stays
  · intro feed
    have other := (mem_of_mem_splitBy run '\n' (kept.subset feed)).2
    cases other

def commentRow (line : List Char) : List Char :=
  if line = [] then [' ', '*'] else [' ', '*', ' '] ++ line

def commentBody (indent : List Char) : List (List Char) → List Char
  | [line] => [' '] ++ (line ++ [' '])
  | lines => ['\n'] ++ lines.flatMap (fun line => indent ++ (commentRow line ++ ['\n'])) ++
      (indent ++ [' '])

def commentRows : List (List Char) → List (List Char)
  | [line] => ["/** ".toList ++ line ++ " */".toList]
  | lines => "/**".toList :: lines.map commentRow ++ [" */".toList]

section Text

variable {indent description : String}

theorem toList_docComment (filled : commentLines description ≠ []) :
    (docComment indent (some description)).toList =
      indent.toList ++ "/**".toList ++ commentBody indent.toList (commentLines description) ++
        "*/\n".toList := by
  have row (line : List Char) :
      (if line = [] then " *" else " * " ++ String.ofList line).toList = commentRow line := by
    rw [commentRow]
    split <;> simp
  rw [docComment, Option.map_some]
  rcases lines : commentLines description with _ | ⟨line, _ | ⟨second, rest⟩⟩
  · exact absurd lines filled
  · simp [commentBody]
  · simp [commentBody, String.toList_join, List.flatMap_map, row]

theorem docComment_eq_empty :
    docComment indent (some description) = "" ↔ ∀ c ∈ description.toList, Text.isBlank c := by
  rw [← commentLines_eq_nil]
  constructor
  · intro empty
    by_contra filled
    have letters := congrArg String.toList empty
    rw [toList_docComment filled] at letters
    simp at letters
  · intro none
    rw [docComment, Option.map_some, none]

theorem docComment_rows (filled : commentLines description ≠ []) :
    (docComment indent (some description)).toList =
      ((commentRows (commentLines description)).map (indent.toList ++ ·)).flatMap (· ++ ['\n']) := by
  rw [toList_docComment filled]
  rcases lines : commentLines description with _ | ⟨line, _ | ⟨second, rest⟩⟩
  · exact absurd lines filled
  · simp [commentBody, commentRows]
  · simp [commentBody, commentRows, List.flatMap_map]

end Text

theorem feed_notMem_commentRows {description : String} {row : List Char}
    (inside : row ∈ commentRows (commentLines description)) : '\n' ∉ row := by
  have single {line : List Char} (among : line ∈ commentLines description) :
      '\n' ∉ commentRow line := by
    have noFeed := (line_of_mem_commentLines among).2
    rw [commentRow]
    split <;> simp [noFeed]
  unfold commentRows at inside
  split at inside
  · rename_i line alone
    have noFeed := (line_of_mem_commentLines (alone ▸ List.mem_singleton_self line)).2
    rw [List.mem_singleton.mp inside]
    simp [noFeed]
  · simp only [List.cons_append, List.mem_cons, List.mem_append, List.mem_map, List.not_mem_nil,
      or_false] at inside
    rcases inside with rfl | ⟨line, among, rfl⟩ | rfl
    · decide
    · exact single among
    · decide

namespace GoesOn

variable {a b line indent : List Char}

theorem nil : GoesOn [] := ⟨.nil, nofun⟩

/-- The end of a comment does not come about where two texts meet. -/
theorem append (first : GoesOn a) (second : GoesOn b) : GoesOn (a ++ b) where
  apart := List.isChain_append.mpr
    ⟨first.apart, second.apart, fun c last _ _ same => first.last c last same.1⟩
  last c last := by
    rw [List.getLast?_append, Option.mem_def, Option.or_eq_some_iff] at last
    rcases last with last | ⟨-, last⟩
    · exact second.last c last
    · exact first.last c last

theorem flatMap {α : Type} {f : α → List Char} {items : List α}
    (each : ∀ item ∈ items, GoesOn (f item)) : GoesOn (items.flatMap f) := by
  induction items with
  | nil => exact nil
  | cons item rest ih =>
    rw [List.forall_mem_cons] at each
    rw [List.flatMap_cons]
    exact each.1.append (ih each.2)

theorem concat (apart : line.IsChain Apart) {c : Char} (noStar : c ≠ '*') (noSlash : c ≠ '/') :
    GoesOn (line ++ [c]) where
  apart := by
    refine List.isChain_append.mpr ⟨apart, .singleton c, fun _ _ d next same => ?_⟩
    cases next
    exact noSlash same.2
  last d last := by
    rw [List.getLast?_append, List.getLast?_singleton, Option.some_or, Option.mem_some_iff] at last
    rwa [← last]

theorem spaces (blank : ∀ c ∈ indent, c = ' ') : GoesOn indent where
  apart := by
    rw [List.isChain_iff_forall_rel_of_append_cons_cons]
    rintro a b before after rfl ⟨rfl, -⟩
    exact absurd (blank '*' (by simp)) (by decide)
  last c last := by
    rw [blank c (List.mem_of_mem_getLast? last)]
    decide

theorem singleton {c : Char} (noStar : c ≠ '*') : GoesOn [c] where
  apart := .singleton c
  last d last := by
    cases last
    exact noStar

theorem commentRow (apart : line.IsChain Apart) : GoesOn (commentRow line ++ ['\n']) := by
  have mark : [' ', '*'].IsChain Apart := by simp [Apart]
  rw [TypeScript.commentRow]
  split
  · exact .concat mark (by decide) (by decide)
  · have start : GoesOn ([' ', '*'] ++ [' ']) := .concat mark (by decide) (by decide)
    rw [List.append_assoc]
    exact start.append (.concat apart (by decide) (by decide))

theorem commentBody (blank : ∀ c ∈ indent, c = ' ') {lines : List (List Char)}
    (each : ∀ line ∈ lines, line.IsChain Apart) : GoesOn (commentBody indent lines) := by
  have space : GoesOn [' '] := .singleton (by decide)
  unfold TypeScript.commentBody
  split
  · rename_i line
    rw [List.forall_mem_singleton] at each
    exact space.append (.concat each (by decide) (by decide))
  · have rows := GoesOn.flatMap fun line inside =>
      (spaces blank).append (.commentRow (each line inside))
    have feed : GoesOn ['\n'] := .singleton (by decide)
    exact (feed.append rows).append ((spaces blank).append space)

end GoesOn

theorem head?_commentBody {indent : List Char} {lines : List (List Char)} {c : Char}
    (first : c ∈ (commentBody indent lines).head?) : c ≠ '/' := by
  unfold commentBody at first
  split at first
  · cases first
    decide
  · cases first
    decide

namespace CommentReader

variable {text indent : List Char}

theorem live_inBlock (apart : (text ++ ['*']).IsChain Apart) (rest : List Char) :
    inBlock.live (text ++ '*' :: '/' :: rest) = outside.live rest := by
  induction text with
  | nil => rw [List.nil_append, live]
  | cons c text ih =>
    rw [List.cons_append, List.isChain_cons] at apart
    have noEnd : ∀ behind, c = '*' → text ++ '*' :: '/' :: rest = '/' :: behind → False := by
      rintro behind rfl same
      refine apart.1 '/' ?_ ⟨rfl, rfl⟩
      cases text with
      | nil => cases same
      | cons d text => exact congrArg List.head? same
    rw [List.cons_append, live.eq_6 _ _ noEnd, ih apart.2]

theorem live_spaces (blank : ∀ c ∈ indent, c = ' ') (rest : List Char) :
    outside.live (indent ++ rest) = indent ++ outside.live rest := by
  induction indent with
  | nil => rfl
  | cons c indent ih =>
    obtain ⟨rfl, others⟩ := List.forall_mem_cons.mp blank
    rw [List.cons_append, List.cons_append, ← ih others]
    rfl

end CommentReader

structure IsComment (indent text : List Char) : Prop where
  /-- The end of the comment is the first that stands behind its start. -/
  closed : ∃ body, text = indent ++ "/**".toList ++ body ++ "*/\n".toList ∧
    ¬ "*/".toList <:+: body ++ ['*']
  indented : ∃ lines : List (List Char), text = lines.flatMap (· ++ ['\n']) ∧
    ∀ line ∈ lines, '\n' ∉ line ∧ indent <+: line
  /-- What follows is read on as if nothing but the indentation and a line feed stood there. -/
  silent : ∀ rest, CommentReader.outside.live (text ++ rest) =
    indent ++ '\n' :: CommentReader.outside.live rest

/-- A description gets no text if it is blank, and otherwise one comment: whatever it says, the first
    end behind the start is the one that closes it, and all its lines are indented. -/
theorem docComment_contained {indent : String} (spaces : ∀ c ∈ indent.toList, c = ' ')
    (description : String) :
    (docComment indent (some description) = "" ↔ ∀ c ∈ description.toList, Text.isBlank c) ∧
      (docComment indent (some description) ≠ "" →
        IsComment indent.toList (docComment indent (some description)).toList) := by
  refine ⟨docComment_eq_empty, fun written => ?_⟩
  have filled : commentLines description ≠ [] := by
    rwa [ne_eq, docComment_eq_empty, ← commentLines_eq_nil] at written
  have body : GoesOn (commentBody indent.toList (commentLines description)) :=
    .commentBody spaces fun line inside => (line_of_mem_commentLines inside).1
  have star : ['*'].IsChain Apart := .singleton '*'
  have apart := List.isChain_append.mpr
    ⟨body.apart, star, fun c last _ _ same => body.last c last same.1⟩
  constructor
  case closed =>
    exact ⟨_, toList_docComment filled, isChain_apart_iff.mp apart⟩
  case indented =>
    refine ⟨_, docComment_rows filled, List.forall_mem_map.mpr fun row inside => ⟨?_, ?_⟩⟩
    · have noFeed : '\n' ∉ indent.toList := fun feed => absurd (spaces '\n' feed) (by decide)
      simp [noFeed, feed_notMem_commentRows inside]
    · exact List.prefix_append _ _
  case silent =>
    intro rest
    -- The second star of the start does not end the comment either.
    have opened :
        ('*' :: (commentBody indent.toList (commentLines description) ++ ['*'])).IsChain Apart := by
      refine List.isChain_cons.mpr ⟨fun c first same => ?_, apart⟩
      rw [List.head?_append, Option.mem_def, Option.or_eq_some_iff] at first
      rcases first with first | ⟨-, first⟩
      · exact head?_commentBody first same.2
      · cases first
        exact absurd same.2 (by decide)
    calc CommentReader.outside.live ((docComment indent (some description)).toList ++ rest)
      _ = indent.toList ++ CommentReader.inBlock.live
          ('*' :: commentBody indent.toList (commentLines description) ++
            '*' :: '/' :: '\n' :: rest) := by
        rw [toList_docComment filled]
        simp only [List.append_assoc]
        rw [CommentReader.live_spaces spaces]
        rfl
      _ = indent.toList ++ '\n' :: CommentReader.outside.live rest := by
        rw [CommentReader.live_inBlock opened]
        rfl

/-- A description with ends of a comment where lines are cut and trimmed, and an empty line. -/
theorem docComment_contained_ends :
    let description := "  a */ b*\n/ c **/  \n\n*/\n"
    (∀ c ∈ "  ".toList, c = ' ') ∧
      IsComment "  ".toList (docComment "  " (some description)).toList ∧
      docComment "  " (some description) =
        "  /**\n   * a *\\/ b*\n   * / c **\\/\n   *\n   * *\\/\n   */\n" := by
  intro description
  have spaces : ∀ c ∈ "  ".toList, c = ' ' := fun c inside =>
    List.eq_of_mem_replicate (show c ∈ List.replicate 2 ' ' from inside)
  have text : docComment "  " (some description) =
      "  /**\n   * a *\\/ b*\n   * / c **\\/\n   *\n   * *\\/\n   */\n" := by decide +kernel
  exact ⟨spaces, (docComment_contained spaces description).2 (by rw [text]; decide), text⟩

end TypeScript
end SchemaSplit
