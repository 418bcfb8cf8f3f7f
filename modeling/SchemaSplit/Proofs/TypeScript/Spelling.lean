import SchemaSplit.Proofs.TypeScript.Grammar

namespace SchemaSplit.TypeScript

def numberTokens (text : String) : List Token :=
  match text.toList with
  | '-' :: digits => [.mark '-', .numeral (String.ofList digits)]
  | digits => [.numeral (String.ofList digits)]

def literalTokens : Scalar → List Token
  | .string s => [.text s]
  | .int n => numberTokens (toString n)
  | .double d => numberTokens (d.text doubleFormat)
  | .bool b => [.word (if b then "true" else "false")]
  | .null => [.word "null"]

def literalTree : Scalar → TypeTree
  | .string s => .text s
  | .int n => .number (toString n)
  | .double d => .number (d.text doubleFormat)
  | .bool b => .boolean b
  | .null => .primitive .null

def keyToken (name : String) : Token :=
  if isPlainKey name.toList then .word name else .text name

def enclosed (isNeeded : Bool) (ts : List Token) : List Token :=
  if isNeeded then .mark '(' :: (ts ++ [.mark ')']) else ts

namespace TypeExpr

def link? : TypeExpr → Option Link
  | union _ => some .union
  | intersection _ => some .intersection
  | _ => none

theorem isUnion_eq (t : TypeExpr) : t.isUnion = (t.link? == some .union) := by
  cases t <;> rfl

theorem isCompound_eq (t : TypeExpr) : t.isCompound = t.link?.isSome := by
  cases t <;> rfl

mutual

def tokens : TypeExpr → List Token
  | primitive p => [.word p.text]
  | array element => enclosed element.isCompound element.tokens ++ [.mark '[', .mark ']']
  | union members => [.mark '|'].intercalate (memberTokens false members)
  | intersection members => [.mark '&'].intercalate (memberTokens true members)
  | object members =>
    .mark '\x7b' :: ([.mark ';'].intercalate (propertyTokens members) ++ [.mark '\x7d'])
  | record key value =>
    .word "Record" :: .mark '<' :: (key.tokens ++ .mark ',' :: (value.tokens ++ [.mark '>']))
  | literal value => literalTokens value
  | named name => [.word name]
termination_by structural t => t

def memberTokens (wrapped : Bool) : List TypeExpr → List (List Token)
  | [] => []
  | t :: rest => enclosed (wrapped && t.isUnion) t.tokens :: memberTokens wrapped rest
termination_by structural ts => ts

def propertyTokens : List (Member TypeExpr) → List (List Token)
  | [] => []
  | m :: rest => onePropertyTokens m :: propertyTokens rest
termination_by structural ms => ms

def onePropertyTokens : Member TypeExpr → List Token
  | ⟨name, type, isOptional, _⟩ =>
    keyToken name :: ((if isOptional then [.mark '?', .mark ':'] else [.mark ':']) ++ type.tokens)
termination_by structural m => m

end

mutual

-- Descriptions do not belong to the type.
def tree : TypeExpr → TypeTree
  | primitive p => .primitive p
  | array element => .array element.tree
  | union members => .combine .union (trees members)
  | intersection members => .combine .intersection (trees members)
  | object members => .object (memberTrees members)
  | record key value => .named "Record" [key.tree, value.tree]
  | literal value => literalTree value
  | named name => .named name []
termination_by structural t => t

def trees : List TypeExpr → List TypeTree
  | [] => []
  | t :: rest => t.tree :: trees rest
termination_by structural ts => ts

def memberTrees : List (Member TypeExpr) → List (Member TypeTree)
  | [] => []
  | m :: rest => memberTree m :: memberTrees rest
termination_by structural ms => ms

def memberTree : Member TypeExpr → Member TypeTree
  | ⟨name, type, isOptional, _⟩ => { name, type := type.tree, isOptional }
termination_by structural m => m

end

mutual

def parts (link : Link) : TypeExpr → List TypeExpr
  | union members => if link = .union then partsOf link members else [union members]
  | intersection members =>
    if link = .intersection then partsOf link members else [intersection members]
  | t => [t]
termination_by structural t => t

def partsOf (link : Link) : List TypeExpr → List TypeExpr
  | [] => []
  | t :: rest => parts link t ++ partsOf link rest
termination_by structural ts => ts

end

theorem memberTexts_eq_map (wrapped : Bool) (ts : List TypeExpr) :
    memberTexts wrapped ts = ts.map fun t => parenthesize (wrapped && t.isUnion) t.text := by
  induction ts with
  | nil => rfl
  | cons t rest ih => rw [memberTexts, ih, List.map_cons]

theorem propertyTexts_eq_map (ms : List (Member TypeExpr)) :
    propertyTexts ms = ms.map propertyText := by
  induction ms with
  | nil => rfl
  | cons m rest ih => rw [propertyTexts, ih, List.map_cons]

theorem memberTokens_eq_map (wrapped : Bool) (ts : List TypeExpr) :
    memberTokens wrapped ts = ts.map fun t => enclosed (wrapped && t.isUnion) t.tokens := by
  induction ts with
  | nil => rfl
  | cons t rest ih => rw [memberTokens, ih, List.map_cons]

theorem propertyTokens_eq_map (ms : List (Member TypeExpr)) :
    propertyTokens ms = ms.map onePropertyTokens := by
  induction ms with
  | nil => rfl
  | cons m rest ih => rw [propertyTokens, ih, List.map_cons]

theorem trees_eq_map (ts : List TypeExpr) : trees ts = ts.map tree := by
  induction ts with
  | nil => rfl
  | cons t rest ih => rw [trees, ih, List.map_cons]

theorem memberTrees_eq_map (ms : List (Member TypeExpr)) : memberTrees ms = ms.map memberTree := by
  induction ms with
  | nil => rfl
  | cons m rest ih => rw [memberTrees, ih, List.map_cons]

theorem partsOf_eq_flatMap (link : Link) (ts : List TypeExpr) :
    partsOf link ts = ts.flatMap (parts link) := by
  induction ts with
  | nil => rfl
  | cons t rest ih => rw [partsOf, ih, List.flatMap_cons]

/-- Unions and intersections have members, declared names are identifiers that are no keywords, and
    numbers are finite. -/
inductive Writable (letters : Letters) : TypeExpr → Prop
  | primitive (p : Primitive) : Writable letters (primitive p)
  | array {t : TypeExpr} (element : Writable letters t) : Writable letters (array t)
  | union {ts : List TypeExpr} (filled : ts ≠ []) (members : ∀ t ∈ ts, Writable letters t) :
      Writable letters (union ts)
  | intersection {ts : List TypeExpr} (filled : ts ≠ []) (members : ∀ t ∈ ts, Writable letters t) :
      Writable letters (intersection ts)
  | object {ms : List (Member TypeExpr)} (members : ∀ m ∈ ms, Writable letters m.type) :
      Writable letters (object ms)
  | record {k v : TypeExpr} (key : Writable letters k) (value : Writable letters v) :
      Writable letters (record k v)
  | literal {v : Scalar} (finite : ∀ d, v = .double d → d.isFinite) : Writable letters (literal v)
  | named {name : String} (identifier : letters.IsIdentifier name) (free : name ∉ keywords) :
      Writable letters (named name)

end TypeExpr

section Texts

variable {letters : Letters}

open Token Letters

theorem spells_enclosed (isNeeded : Bool) {text : String} {ts : List Token}
    (spells : letters.Spells text ts) :
    letters.Spells (parenthesize isNeeded text) (enclosed isNeeded ts) := by
  cases isNeeded
  · exact spells
  · have opened : letters.Spells ("(" ++ text) _ := .behind rfl spells
    exact .before rfl opened

theorem isIdentifier_of_isPlainKey {name : String} (plain : isPlainKey name.toList) :
    letters.IsIdentifier name := by
  rw [isPlainKey, Bool.and_eq_true, Option.any_eq_true, List.all_eq_true] at plain
  obtain ⟨⟨c, first, start⟩, parts⟩ := plain
  constructor
  · have ascii := ascii_of_isIdentifierChar (isIdentifierChar_of_isStart start)
    exact ⟨c, first, by rw [letters.start_ascii c ascii, start]⟩
  · intro c inside
    rw [letters.part_ascii c (ascii_of_isIdentifierChar (parts c inside)), parts c inside]

theorem spells_key (name : String) : letters.Spells (keyText name) [keyToken name] := by
  unfold keyText propertyKey keyToken
  split_ifs with plain
  · rw [String.ofList_toList]
    exact .word (isIdentifier_of_isPlainKey plain)
  · exact .literal name

theorem key?_keyToken (name : String) : (keyToken name).key? = some name := by
  unfold keyToken
  split_ifs <;> rfl

theorem spells_word {name : String} (plain : isPlainKey name.toList) :
    letters.Spells name [.word name] := .word (isIdentifier_of_isPlainKey plain)

theorem numberTokens_positive {ds : List Char} (numeral : IsNumeral ds) :
    numberTokens (String.ofList ds) = [.numeral (String.ofList ds)] := by
  obtain ⟨c, cs, rfl, digit⟩ := numeral.head
  rw [numberTokens, String.toList_ofList]
  split
  · rename_i same
    cases same
    cases digit
  · rfl

theorem numberTokens_negative (ds : List Char) :
    numberTokens ("-" ++ String.ofList ds) = [.mark '-', .numeral (String.ofList ds)] := by
  have chars : ("-" ++ String.ofList ds).toList = '-' :: ds := by simp
  rw [numberTokens, chars]
  rfl

theorem spells_number {text : String} (number : IsNumber text) :
    letters.Spells text (numberTokens text) := by
  cases number with
  | positive numeral =>
    rw [numberTokens_positive numeral]
    exact .numeral numeral
  | negative numeral =>
    rw [numberTokens_negative]
    exact .behind rfl (.numeral numeral)

theorem spells_literal {v : Scalar} (finite : ∀ d, v = .double d → d.isFinite) :
    letters.Spells (literalText v) (literalTokens v) := by
  cases v with
  | null => exact spells_word rfl
  | bool b => cases b <;> exact spells_word rfl
  | int n => exact spells_number (isNumber_int n)
  | double d => exact spells_number (Double.isNumber_text rfl rfl (finite d rfl))
  | string s => exact .literal s

theorem spells_property {m : Member TypeExpr} (spells : letters.Spells m.type.text m.type.tokens) :
    letters.Spells (TypeExpr.propertyText m) (TypeExpr.onePropertyTokens m) := by
  rcases m with ⟨name, type, isOptional, description⟩
  rw [TypeExpr.propertyText, TypeExpr.onePropertyTokens, String.append_assoc]
  cases isOptional
  · exact .between rfl (spells_key name) spells
  · exact .between rfl (spells_key name) spells

theorem spells_record {k v : TypeExpr} (keySpells : letters.Spells k.text k.tokens)
    (valueSpells : letters.Spells v.text v.tokens) :
    letters.Spells (TypeExpr.record k v).text (TypeExpr.record k v).tokens := by
  have arguments : letters.Spells (k.text ++ (", " ++ v.text)) _ :=
    .between rfl keySpells valueSpells
  have named : letters.Spells ("Record" ++ ("<" ++ _)) _ := .between rfl (spells_word rfl) arguments
  have whole : letters.Spells (_ ++ ">") _ := .before rfl named
  have text : (TypeExpr.record k v).text =
      "Record" ++ ("<" ++ (k.text ++ (", " ++ v.text))) ++ ">" := by
    rw [TypeExpr.text]
    simp only [← String.append_assoc]
    rfl
  have tokens : (TypeExpr.record k v).tokens =
      [.word "Record"] ++ (marksOf "<" ++ (k.tokens ++ (marksOf ", " ++ v.tokens))) ++
        marksOf ">" := by
    have marks : marksOf "<" = [.mark '<'] ∧ marksOf ", " = [.mark ','] ∧ marksOf ">" = [.mark '>'] :=
      ⟨rfl, rfl, rfl⟩
    rw [TypeExpr.tokens, marks.1, marks.2.1, marks.2.2]
    simp
  rw [text, tokens]
  exact whole

theorem spells_text {t : TypeExpr} (writable : t.Writable letters) :
    letters.Spells t.text t.tokens := by
  induction writable with
  | primitive p => cases p <;> exact spells_word rfl
  | array element ih =>
    rw [TypeExpr.text, TypeExpr.tokens]
    exact .before rfl (spells_enclosed _ ih)
  | union filled members ih =>
    rw [TypeExpr.text, TypeExpr.tokens, TypeExpr.memberTexts_eq_map, TypeExpr.memberTokens_eq_map]
    exact .intercalate rfl filled fun t inside => spells_enclosed _ (ih t inside)
  | intersection filled members ih =>
    rw [TypeExpr.text, TypeExpr.tokens, TypeExpr.memberTexts_eq_map, TypeExpr.memberTokens_eq_map]
    exact .intercalate rfl filled fun t inside => spells_enclosed _ (ih t inside)
  | @object ms members ih =>
    cases ms with
    | nil =>
      have braces : letters.Spells "\x7b\x7d" _ := .ofGlue rfl
      exact braces
    | cons m ms =>
      have separated : isGlue "; " := rfl
      have inside := Spells.intercalate separated (List.cons_ne_nil m ms) fun m within =>
        spells_property (ih m within)
      have opened : letters.Spells ("\x7b " ++ _) _ := .behind rfl inside
      rw [TypeExpr.text, TypeExpr.tokens, TypeExpr.propertyTexts_eq_map,
        TypeExpr.propertyTokens_eq_map]
      exact .before rfl opened
  | record key value keySpells valueSpells => exact spells_record keySpells valueSpells
  | literal finite => exact spells_literal finite
  | named identifier free => exact .word identifier

end Texts

end SchemaSplit.TypeScript
