import SchemaSplit.Artifact
import SchemaSplit.Proofs.TypeScript.Conversion
import SchemaSplit.Proofs.TypeScript.Name
import SchemaSplit.Proofs.TypeScript.Shape

namespace SchemaSplit.TypeScript

open Piece

namespace Body

def isObject : Body → Bool
  | interfaceType .. | classType .. => true
  | _ => false

def isClass : Body → Bool
  | classType .. => true
  | _ => false

end Body

def objectBody (settings : Settings) (bases : List String) (members : List (Member TypeExpr)) :
    Body :=
  match settings.typeStyle with
  | .interfaceType => .interfaceType bases members
  | .classType =>
    .classType bases.head? members settings.constructorInterface settings.cloneMethod

theorem hasInterface_objectBody (settings : Settings) (bases : List String)
    (members : List (Member TypeExpr)) :
    (objectBody settings bases members).hasInterface = settings.hasInterfaces := by
  unfold objectBody Settings.hasInterfaces
  split <;> rename_i style <;> simp [style, Body.hasInterface]

theorem members_objectBody (settings : Settings) (bases : List String)
    (members : List (Member TypeExpr)) :
    (objectBody settings bases members).members = members := by
  unfold objectBody
  split <;> rfl

theorem isObject_objectBody (settings : Settings) (bases : List String)
    (members : List (Member TypeExpr)) : (objectBody settings bases members).isObject := by
  unfold objectBody
  split <;> rfl

theorem alias_objectBody (settings : Settings) (bases : List String)
    (members : List (Member TypeExpr)) : (objectBody settings bases members).alias? = none := by
  unfold objectBody
  split <;> rfl

inductive BodyOf (c : Context) (definition : String) (s : Schema) : Body → Prop
  | constants (values : s.enumValues ≠ []) (constants : List (String × Scalar)) :
      BodyOf c definition s (.constants constants)
  | aliasType (noValues : s.enumValues = [])
      (shapeless : shape? c.scope c.settings.typeStyle [definition] s = none) {t : TypeExpr}
      (made : typeOf c s = .ok t) : BodyOf c definition s (.aliasType t)
  | object (noValues : s.enumValues = []) {shape : Shape}
      (shaped : shape? c.scope c.settings.typeStyle [definition] s = some shape)
      {bases : List String}
      (extended : List.Forall₂ (fun reference base => c.resolve reference = .ok base)
        shape.bases bases)
      {members : List (List (Member TypeExpr))}
      (declared : List.Forall₂ (fun part ms => membersOf c part.required part.properties = .ok ms)
        shape.parts members) :
      BodyOf c definition s (objectBody c.settings bases members.flatten)

theorem bodyOf_cases {c : Context} {definition : String} {s : Schema} {body : Body}
    (made : bodyOf c definition s = .ok body) : BodyOf c definition s body := by
  unfold bodyOf at made
  split at made
  · rename_i values
    cases made
    exact .constants (by simpa using values) _
  · rename_i values
    have noValues : s.enumValues = [] := by simpa using values
    cases shaped : shape? c.scope c.settings.typeStyle [definition] s with
    | none =>
      rw [shaped] at made
      dsimp only at made
      obtain ⟨t, typed, result⟩ := Except.bind_eq_ok.mp made
      cases result
      exact .aliasType noValues shaped typed
    | some shape =>
      rw [shaped] at made
      dsimp only at made
      obtain ⟨bases, extended, made⟩ := Except.bind_eq_ok.mp made
      obtain ⟨members, declared, result⟩ := Except.bind_eq_ok.mp made
      have same : body = objectBody c.settings bases members.flatten := by
        cases style : c.settings.typeStyle <;> rw [style] at result <;> cases result <;>
          simp only [objectBody, style]
      rw [same]
      exact .object noValues shaped (List.mapM_eq_ok.mp extended) (List.mapM_eq_ok.mp declared)

theorem isObject_of_shape {c : Context} {definition : String} {s : Schema} {body : Body}
    {shape : Shape} (made : bodyOf c definition s = .ok body) (noValues : s.enumValues = [])
    (shaped : shape? c.scope c.settings.typeStyle [definition] s = some shape) :
    body.isObject ∧ body.hasInterface = c.settings.hasInterfaces := by
  cases bodyOf_cases made with
  | constants values => exact absurd noValues values
  | aliasType _ shapeless =>
    rw [shaped] at shapeless
    cases shapeless
  | object => exact ⟨isObject_objectBody _ _ _, hasInterface_objectBody _ _ _⟩

theorem isClass_of_isObject {c : Context} (classes : c.settings.typeStyle = .classType)
    {definition : String} {s : Schema} {body : Body} (made : bodyOf c definition s = .ok body)
    (isObject : body.isObject) : body.isClass := by
  cases bodyOf_cases made with
  | constants => cases isObject
  | aliasType => cases isObject
  | object =>
    rw [objectBody, classes]
    rfl

theorem hasInterface_of_bodyOf {c : Context} {definition : String} {s : Schema} {body : Body}
    (made : bodyOf c definition s = .ok body) :
    body.hasInterface = (body.isClass && c.settings.constructorInterface) ∧
      (body.hasInterface → c.settings.hasInterfaces) := by
  cases bodyOf_cases made with
  | constants => exact ⟨rfl, fun h => by cases h⟩
  | aliasType => exact ⟨rfl, fun h => by cases h⟩
  | object =>
    constructor
    · unfold objectBody
      split <;> rfl
    · rw [hasInterface_objectBody]
      exact id

theorem bases_of_bodyOf {c : Context} {definition : String} {s : Schema} {body : Body}
    (made : bodyOf c definition s = .ok body) (isObject : body.isObject) :
    List.Forall₂ (fun reference base => c.resolve reference = .ok base)
      (s.allOf.filterMap (·.ref)) body.bases := by
  cases bodyOf_cases made with
  | constants => cases isObject
  | aliasType => cases isObject
  | object noValues shaped extended declared =>
    rename_i bases members
    obtain ⟨references, fits⟩ := bases_of_shape shaped
    rw [← references]
    have same : (objectBody c.settings bases members.flatten).bases = bases := by
      unfold objectBody
      split
      · rfl
      · rename_i isClass
        have short := extended.length_eq ▸ fits isClass
        rcases bases with _ | ⟨base, _ | ⟨second, rest⟩⟩
        · rfl
        · rfl
        · simp at short
    rw [same]
    exact extended

/-- The target of a base is declared as an interface or a class itself. -/
theorem target_of_base {c : Context} {definition base : String} {s : Schema} {body : Body}
    (made : bodyOf c definition s = .ok body) (member : base ∈ body.bases) :
    ∃ target schema shape, s.Mentions c.scope.root target ∧
      c.identifiers.lookup target = some base ∧
      c.scope.definitions.lookup target = some schema ∧ schema.enumValues = [] ∧
      shape? c.scope c.settings.typeStyle [target] schema = some shape := by
  have isObject : body.isObject := by
    cases body with
    | interfaceType => rfl
    | classType => rfl
    | aliasType => cases member
    | constants => cases member
  have resolved := bases_of_bodyOf made isObject
  cases bodyOf_cases made with
  | constants => cases member
  | aliasType => cases member
  | object noValues shaped =>
    obtain ⟨reference, extended, resolved⟩ := resolved.exists_left member
    obtain ⟨m, inside, refers⟩ := List.mem_filterMap.mp extended
    rw [← (bases_of_shape shaped).1] at extended
    obtain ⟨name, target, shape, found, noValues, shaped⟩ := shape_of_base shaped extended
    obtain ⟨named, found⟩ := Scope.target?_eq_some.mp found
    obtain ⟨definition, named', identified⟩ := Context.resolve_eq_ok.mp resolved
    rw [named] at named'
    cases named'
    refine ⟨name, target, shape, ?_, identified, found, noValues, shaped⟩
    apply Schema.mentions_iff.mpr
    refine .inr ⟨m, s.allOf_subset_children inside, Schema.mentions_iff.mpr (.inl ?_)⟩
    rw [refers, Option.bind_some, named]

/-- A body uses the names that its definition may be written with, and the interfaces of bases. -/
theorem usedNames_of_bodyOf {c : Context} {definition name : String} {s : Schema} {body : Body}
    (made : bodyOf c definition s = .ok body) (member : name ∈ body.usedNames) :
    c.MayWrite s name ∨ body.hasInterface ∧ ∃ base ∈ body.bases, name = "I" ++ base := by
  rw [Body.usedNames, List.mem_append, List.mem_append] at member
  rcases member with (ofBase | ofMember) | ofAlias
  · obtain ⟨base, inside, claimed⟩ := List.mem_flatMap.mp ofBase
    rcases mem_claims.mp claimed with rfl | ⟨hasInterface, rfl⟩
    · obtain ⟨target, _, _, mentions, identified, -⟩ := target_of_base made inside
      exact .inl (.inr ⟨target, mentions, identified⟩)
    · exact .inr ⟨hasInterface, base, inside, rfl⟩
  · left
    obtain ⟨m, inside, written⟩ := List.mem_flatMap.mp ofMember
    cases bodyOf_cases made with
    | constants => cases inside
    | aliasType => cases inside
    | object noValues shaped extended declared =>
      rw [members_objectBody] at inside
      obtain ⟨ms, among, inside⟩ := List.mem_flatten.mp inside
      obtain ⟨part, isPart, declared⟩ := declared.exists_left among
      have covered : c.MayWrite part name := by
        have below : ∀ child ∈ part.children, ∀ t, typeOf c child = .ok t → c.Covers child t :=
          fun _ _ _ typed => Context.covers_typeOf typed
        have formed := Context.formed_membersOf part.properties_subset_children declared m inside
        exact Context.covers_of_formed below formed name written
      rcases part_of_shape shaped isPart with rfl | ⟨below, -⟩
      · exact covered
      · exact covered.of_child (s.allOf_subset_children below)
  · left
    obtain ⟨t, isAlias, written⟩ := List.mem_flatMap.mp ofAlias
    cases bodyOf_cases made with
    | constants => cases isAlias
    | aliasType noValues shapeless typed =>
      rw [Body.alias?, Option.toList_some, List.mem_singleton] at isAlias
      subst isAlias
      exact Context.covers_typeOf typed name written
    | object =>
      rw [alias_objectBody] at isAlias
      cases isAlias

def Module.identifierOf? (m : Module) (d : IsolatedDocument) (definition : String) :
    Option String :=
  (d.names.zip (m.declarations.map (·.name))).lookup definition

def Module.Resolves (m : Module) (d : IsolatedDocument) (reference identifier : String) : Prop :=
  ∃ definition, definition ≠ "" ∧ reference = d.dialect.referenceRoot ++ definition ∧
    m.identifierOf? d definition = some identifier

structure Declares (settings : Settings) (d : IsolatedDocument) (m : Module)
    (definition : String × Schema) (declaration : Declaration) : Prop where
  description : declaration.description = definition.2.description
  made : bodyOf (.ofDocument settings d) definition.1 definition.2 = .ok declaration.body
  /-- It takes up its identifier, and a class that of its interface if there are interfaces. -/
  declared : declaredNames declaration.pieces =
    if declaration.body.isClass && settings.constructorInterface then
      [declaration.name, "I" ++ declaration.name]
    else [declaration.name]
  /-- What it extends is what the definition refers to among its members, in the same order. -/
  bases : declaration.body.isObject →
    List.Forall₂ (m.Resolves d) (definition.2.allOf.filterMap (·.ref)) declaration.body.bases
  /-- It mentions itself, global types and what the definition refers to, and no other names. -/
  mentioned : ∀ name ∈ mentionedNames declaration.pieces,
    name ∈ declaredNames declaration.pieces ∨ name ∈ writtenGlobals ∨
      ∃ target identifier, definition.2.Mentions d.dialect.referenceRoot target ∧
        m.identifierOf? d target = some identifier ∧
        (name = identifier ∨ declaration.body.hasInterface ∧ name = "I" ++ identifier)

/-- A module declares exactly the definitions of a document, and what it mentions can be told from
    it alone. -/
structure Module.SelfContained (settings : Settings) (d : IsolatedDocument) (m : Module) : Prop where
  /-- There is one declaration for each definition, in the same order. -/
  declares : List.Forall₂ (Declares settings d m) d.definitions m.declarations
  distinct : (declaredNames m.pieces).Nodup
  /-- No declaration hides a global type. -/
  apart : (declaredNames m.pieces).Disjoint globalTypes
  closed : ∀ name ∈ mentionedNames m.pieces,
    name ∈ declaredNames m.pieces ∨ name ∈ writtenGlobals
  /-- A reference is written as the identifier that is declared for its target. -/
  references : ∀ {node : Schema} {reference : String} {t : TypeExpr},
    typeOf (.ofDocument settings d) node = .ok t → node.ref = some reference →
      ∃ identifier, m.Resolves d reference identifier ∧
        t = (Context.ofDocument settings d).admitNull node.isNullable (.named identifier)

theorem declarationOf_eq_ok {c : Context} {document definition identifier : String} {s : Schema}
    {declaration : Declaration} :
    declarationOf c document definition identifier s = .ok declaration ↔
      ∃ body, bodyOf c definition s = .ok body ∧ declaration = ⟨identifier, s.description, body⟩ := by
  rw [declarationOf]
  cases bodyOf c definition s with
  | error fault => cases fault <;> simp
  | ok body => simp [eq_comm]

section Module

variable {settings : Settings} {d : IsolatedDocument} {m : Module} {fileName : String}

theorem declarations_of_moduleOf (made : moduleOf settings d fileName = .ok m) :
    m.declarations.map (·.name) = assignIdentifiers settings.hasInterfaces globalTypes d.names ∧
      List.Forall₂ (fun definition declaration =>
          bodyOf (.ofDocument settings d) definition.1 definition.2 = .ok declaration.body ∧
            declaration.description = definition.2.description)
        d.definitions m.declarations := by
  obtain ⟨declarations, mapped, result⟩ := Except.bind_eq_ok.mp made
  cases result
  rw [List.mapM_eq_ok] at mapped
  have ids : (Context.ofDocument settings d).identifiers.map (·.2) =
      assignIdentifiers settings.hasInterfaces globalTypes d.names := Identifiers.map_snd _ _
  rw [ids] at mapped
  have lengths : d.definitions.length =
      (assignIdentifiers settings.hasInterfaces globalTypes d.names).length := by
    rw [length_assignIdentifiers, IsolatedDocument.names, List.length_map]
  have each := mapped.imp fun _ _ step => declarationOf_eq_ok.mp step
  constructor
  · have names : List.Forall₂ (fun entry declaration => entry.2 = declaration.name)
        (d.definitions.zip (assignIdentifiers settings.hasInterfaces globalTypes d.names))
        declarations := by
      refine each.imp ?_
      rintro entry declaration ⟨body, -, rfl⟩
      rfl
    rw [← List.map_snd_zip (Nat.le_of_eq lengths.symm)]
    exact (List.forall₂_eq_eq_eq ▸ List.forall₂_map_left_iff.mpr
      (List.forall₂_map_right_iff.mpr names)).symm
  · rw [← List.map_fst_zip (Nat.le_of_eq lengths)]
    apply List.forall₂_map_left_iff.mpr
    refine each.imp ?_
    rintro entry declaration ⟨body, made, rfl⟩
    exact ⟨made, rfl⟩

theorem flatMap_sublist {α β : Type} {f g : α → List β} {items : List α}
    (each : ∀ a ∈ items, (f a).Sublist (g a)) : (items.flatMap f).Sublist (items.flatMap g) := by
  induction items with
  | nil => exact List.Sublist.refl _
  | cons a rest ih =>
    rw [List.flatMap_cons, List.flatMap_cons]
    exact (each a List.mem_cons_self).append (ih fun b later => each b (List.mem_cons_of_mem _ later))

theorem nodup_of_moduleOf (made : moduleOf settings d fileName = .ok m) :
    (m.declarations.map (·.name)).Nodup := by
  rw [(declarations_of_moduleOf made).1, ← List.flatMap_singleton' (assignIdentifiers _ _ _)]
  refine (assignIdentifiers_distinct settings.hasInterfaces globalTypes d.names).1.sublist ?_
  exact flatMap_sublist fun name _ => List.singleton_sublist.mpr (mem_claims.mpr (.inl rfl))

theorem identifierOf?_eq (made : moduleOf settings d fileName = .ok m) (definition : String) :
    m.identifierOf? d definition =
      (Context.ofDocument settings d).identifiers.lookup definition := by
  rw [Module.identifierOf?, (declarations_of_moduleOf made).1]
  rfl

theorem resolves_iff (made : moduleOf settings d fileName = .ok m) {reference identifier : String} :
    (Context.ofDocument settings d).resolve reference = .ok identifier ↔
      m.Resolves d reference identifier := by
  rw [Context.resolve_eq_ok]
  refine exists_congr fun definition => ?_
  rw [identifierOf?_eq made, referenceName?_eq_some, and_comm (a := reference = _), and_assoc]
  rfl

theorem declaration_of_identifier {R : String × Schema → Declaration → Prop}
    {definitions : Definitions} {declarations : List Declaration}
    (aligned : List.Forall₂ R definitions declarations) {definition identifier : String}
    (found : ((definitions.map (·.1)).zip (declarations.map (·.name))).lookup definition =
      some identifier) :
    ∃ s declaration, definitions.lookup definition = some s ∧ declaration ∈ declarations ∧
      declaration.name = identifier ∧ R (definition, s) declaration := by
  induction aligned with
  | nil => cases found
  | @cons entry declaration entries declarations here _ ih =>
    rcases entry with ⟨name, s⟩
    rw [List.map_cons, List.map_cons, List.zip_cons_cons, List.lookup_cons] at found
    rw [List.lookup_cons]
    cases same : definition == name with
    | true =>
      rw [same] at found
      cases found
      rw [beq_iff_eq] at same
      subst same
      exact ⟨s, declaration, rfl, List.mem_cons_self, rfl, here⟩
    | false =>
      rw [same] at found
      obtain ⟨t, later, looked, member, named, related⟩ := ih found
      exact ⟨t, later, looked, List.mem_cons_of_mem _ member, named, related⟩

theorem declaration_of_definition {R : String × Schema → Declaration → Prop}
    {definitions : Definitions} {declarations : List Declaration}
    (aligned : List.Forall₂ R definitions declarations) {definition : String} {s : Schema}
    (looked : definitions.lookup definition = some s) :
    ∃ declaration ∈ declarations, R (definition, s) declaration ∧
      ((definitions.map (·.1)).zip (declarations.map (·.name))).lookup definition =
        some declaration.name := by
  induction aligned with
  | nil => cases looked
  | @cons entry declaration entries declarations here _ ih =>
    rcases entry with ⟨name, t⟩
    rw [List.lookup_cons] at looked
    rw [List.map_cons, List.map_cons, List.zip_cons_cons, List.lookup_cons]
    cases same : definition == name with
    | true =>
      rw [same] at looked
      cases looked
      rw [beq_iff_eq] at same
      subst same
      exact ⟨declaration, List.mem_cons_self, here, rfl⟩
    | false =>
      rw [same] at looked
      obtain ⟨later, member, related, found⟩ := ih looked
      exact ⟨later, List.mem_cons_of_mem _ member, related, found⟩

theorem mem_declaredNames {name : String} {declaration : Declaration}
    (member : declaration ∈ m.declarations)
    (claimed : name ∈ claims declaration.body.hasInterface declaration.name) :
    name ∈ declaredNames m.pieces := by
  rw [Module.declaredNames_pieces]
  exact List.mem_flatMap.mpr ⟨declaration, member, claimed⟩

/-- What is looked up for a definition is declared, and so is its interface if the definition has a
    shape that others may extend. -/
theorem declared_of_identifier (made : moduleOf settings d fileName = .ok m)
    {definition identifier : String}
    (found : (Context.ofDocument settings d).identifiers.lookup definition = some identifier) :
    identifier ∈ declaredNames m.pieces ∧
      ∀ {s : Schema} {shape : Shape}, d.definitions.lookup definition = some s →
        s.enumValues = [] →
        shape? (.ofDocument d) settings.typeStyle [definition] s = some shape →
        settings.hasInterfaces → "I" ++ identifier ∈ declaredNames m.pieces := by
  rw [← identifierOf?_eq made] at found
  obtain ⟨t, declaration, looked, member, rfl, madeBody, -⟩ :=
    declaration_of_identifier (declarations_of_moduleOf made).2 found
  refine ⟨mem_declaredNames member (mem_claims.mpr (.inl rfl)), ?_⟩
  intro s shape looked' noValues shaped interfaces
  rw [looked] at looked'
  cases looked'
  apply mem_declaredNames member
  rw [(isObject_of_shape madeBody noValues shaped).2]
  exact mem_claims.mpr (.inr ⟨interfaces, rfl⟩)

theorem declaredNames_sublist (made : moduleOf settings d fileName = .ok m) :
    (declaredNames m.pieces).Sublist
      ((assignIdentifiers settings.hasInterfaces globalTypes d.names).flatMap
        (claims settings.hasInterfaces)) := by
  obtain ⟨names, aligned⟩ := declarations_of_moduleOf made
  rw [Module.declaredNames_pieces, ← names, List.flatMap_map]
  apply flatMap_sublist
  intro declaration member
  obtain ⟨definition, -, madeBody, -⟩ := aligned.exists_left member
  cases hasInterface : declaration.body.hasInterface with
  | false => exact List.singleton_sublist.mpr (mem_claims.mpr (.inl rfl))
  | true =>
    have interfaces : settings.hasInterfaces := (hasInterface_of_bodyOf madeBody).2 hasInterface
    rw [interfaces]

theorem mentioned_of_declaration (made : moduleOf settings d fileName = .ok m)
    {definition : String × Schema} {declaration : Declaration}
    (madeBody : bodyOf (.ofDocument settings d) definition.1 definition.2 = .ok declaration.body)
    {name : String} (mentioned : name ∈ mentionedNames declaration.pieces) :
    name ∈ declaredNames declaration.pieces ∨ name ∈ writtenGlobals ∨
      ∃ target identifier, definition.2.Mentions d.dialect.referenceRoot target ∧
        m.identifierOf? d target = some identifier ∧
        (name = identifier ∨ declaration.body.hasInterface ∧ name = "I" ++ identifier) := by
  rw [Declaration.declaredNames_pieces]
  rcases Declaration.mem_mentionedNames_pieces mentioned with own | used
  · exact .inl own
  · right
    rcases usedNames_of_bodyOf madeBody used with (isGlobal | written) | ⟨interfaces, base, member, rfl⟩
    · exact .inl isGlobal
    · obtain ⟨target, mentions, found⟩ := written
      rw [← identifierOf?_eq made] at found
      exact .inr ⟨target, name, mentions, found, .inl rfl⟩
    · obtain ⟨target, _, _, mentions, found, -⟩ := target_of_base madeBody member
      rw [← identifierOf?_eq made] at found
      exact .inr ⟨target, base, mentions, found, .inr ⟨interfaces, rfl⟩⟩

theorem closed_of_moduleOf (made : moduleOf settings d fileName = .ok m) {name : String}
    (mentioned : name ∈ mentionedNames m.pieces) :
    name ∈ declaredNames m.pieces ∨ name ∈ writtenGlobals := by
  obtain ⟨declaration, member, mentioned⟩ := Module.mem_mentionedNames_pieces.mp mentioned
  obtain ⟨definition, -, madeBody, -⟩ :=
    (declarations_of_moduleOf made).2.exists_left member
  rcases Declaration.mem_mentionedNames_pieces mentioned with own | used
  · exact .inl (mem_declaredNames member own)
  · rcases usedNames_of_bodyOf madeBody used with (isGlobal | written) | ⟨interfaces, base, member, rfl⟩
    · exact .inr isGlobal
    · obtain ⟨target, -, found⟩ := written
      exact .inl (declared_of_identifier made found).1
    · left
      obtain ⟨target, s, shape, -, found, looked, noValues, shaped⟩ := target_of_base madeBody member
      exact (declared_of_identifier made found).2 looked noValues shaped
        ((hasInterface_of_bodyOf madeBody).2 interfaces)

theorem references_of_typeOf (made : moduleOf settings d fileName = .ok m) {node : Schema}
    {reference : String} {t : TypeExpr} (typed : typeOf (.ofDocument settings d) node = .ok t)
    (refers : node.ref = some reference) :
    ∃ identifier, m.Resolves d reference identifier ∧
      t = (Context.ofDocument settings d).admitNull node.isNullable (.named identifier) := by
  rw [typeOf_eq, Except.map_eq_ok] at typed
  obtain ⟨bare, typed, rfl⟩ := typed
  unfold bareTypeOf at typed
  rw [refers] at typed
  obtain ⟨identifier, resolved, rfl⟩ := Except.map_eq_ok.mp typed
  exact ⟨identifier, (resolves_iff made).mp resolved, rfl⟩

end Module

end SchemaSplit.TypeScript

namespace SchemaSplit.Generator

open TypeScript

/-- The text of every module that is made comes from a module that is self-contained. -/
theorem typeScript_selfContained {settings : Settings} {d : IsolatedDocument}
    {fileName text : String} (made : (typeScript settings).generate d fileName = .ok text) :
    ∃ m : Module, text = Piece.render m.pieces ∧ m.SelfContained settings d := by
  obtain ⟨m, converted, rfl⟩ := Except.map_eq_ok.mp made
  refine ⟨m, m.render_pieces.symm, ?_⟩
  obtain ⟨distinct, apart⟩ :=
    assignIdentifiers_distinct settings.hasInterfaces globalTypes d.names
  have sublist := declaredNames_sublist converted
  constructor
  case declares =>
    refine (declarations_of_moduleOf converted).2.imp ?_
    rintro definition declaration ⟨madeBody, description⟩
    constructor
    case description => exact description
    case made => exact madeBody
    case declared =>
      rw [Declaration.declaredNames_pieces, (hasInterface_of_bodyOf madeBody).1]
      rfl
    case bases =>
      intro isObject
      refine (bases_of_bodyOf madeBody isObject).imp ?_
      intro reference base resolved
      exact (resolves_iff converted).mp resolved
    case mentioned => exact fun name => mentioned_of_declaration converted madeBody
  case distinct => exact distinct.sublist sublist
  case apart => exact fun name inside => apart (sublist.subset inside)
  case closed => exact fun name => closed_of_moduleOf converted
  case references => exact references_of_typeOf converted

/-- A line that refers to its order, a definition named like the interface of lines, and an order that
    extends lines and refers to that definition. -/
def shop : IsolatedDocument where
  key := "Shop"
  info := {}
  dialect := .swagger2
  specVersion := Dialect.swagger2.defaultSpecVersion
  definitions :=
    [("Shop.Line", { Schema.ofType "object" with
        properties := [("order", .reference "#/definitions/Shop.Order"),
          ("placed", { keywords := { type := some (.single "string"), format := some "date" } })] }),
     ("Shop.ILine", .ofType "object"),
     ("Shop.Order", { allOf := [.reference "#/definitions/Shop.Line",
        { properties := [("lines", { Schema.ofType "array" with
            items := some (.reference "#/definitions/Shop.ILine") })] }] })]

def shopClasses : Settings where
  typeStyle := .classType
  constructorInterface := true
  cloneMethod := true

theorem typeScript_selfContained_shop :
    ∃ (text : String) (m : Module),
      (typeScript shopClasses).generate shop "Shop" = .ok text ∧
      text = Piece.render m.pieces ∧ m.SelfContained shopClasses shop := by
  have isMade : ((typeScript shopClasses).generate shop "Shop").toOption.isSome := by
    decide +kernel
  cases made : (typeScript shopClasses).generate shop "Shop" with
  | error e =>
    rw [made] at isMade
    cases isMade
  | ok text =>
    obtain ⟨m, written, contained⟩ := typeScript_selfContained made
    exact ⟨text, m, rfl, written, contained⟩

end SchemaSplit.Generator
