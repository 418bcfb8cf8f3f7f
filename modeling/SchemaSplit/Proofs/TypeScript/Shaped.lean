import SchemaSplit.Proofs.TypeScript.Fault
import SchemaSplit.Proofs.TypeScript.Search
import Mathlib.Order.FixedPoints
import Mathlib.Order.CompletePartialOrder
import Mathlib.Logic.Relation

/-!
Which definitions are declared as interfaces and classes. They are the least set that is closed under
one rule, which says nothing about the way to a definition. So a definition that can be extended has
its own shape, and nothing extends itself, not even through others.
-/

namespace List

theorem Forall₂.exists_of_forall {α β : Type} {R : α → β → Prop} {as : List α}
    (each : ∀ a ∈ as, ∃ b, R a b) : ∃ bs, Forall₂ R as bs := by
  induction as with
  | nil => exact ⟨[], .nil⟩
  | cons a rest ih =>
    obtain ⟨b, here⟩ := each a mem_cons_self
    obtain ⟨bs, later⟩ := ih fun other inside => each other (mem_cons_of_mem _ inside)
    exact ⟨b :: bs, .cons here later⟩

end List

theorem Relation.not_transGen_of_acc {α : Type} {r : α → α → Prop} {a : α}
    (ends : Acc (fun b a => r a b) a) : ¬ TransGen r a a := by
  have longer : Acc (TransGen fun b a => r a b) a := ends.transGen
  induction longer with
  | intro a _ ih =>
    intro cycle
    exact ih a (transGen_swap.mpr cycle) ends cycle

namespace SchemaSplit.TypeScript

inductive ShapedMember (scope : Scope) (set : Set String) (m : Schema) : Prop
  | inline (noReference : m.ref = none) (plain : isPlainObject m false)
  | extended {reference name : String} {target : Schema} (refers : m.ref = some reference)
      (found : scope.target? reference = some (name, target)) (noValues : target.enumValues = [])
      (inside : name ∈ set)

structure ShapedOver (scope : Scope) (style : TypeStyle) (set : Set String) (s : Schema) :
    Prop where
  plain : isPlainObject s true
  stated : s.allOf ≠ [] ∨ s.properties ≠ [] ∨ s.type.isSome
  members : ∀ m ∈ s.allOf, ShapedMember scope set m
  single : style = .classType → (s.allOf.filter (·.ref.isSome)).length ≤ 1

theorem ShapedMember.mono {scope : Scope} {set larger : Set String} {m : Schema}
    (subset : set ⊆ larger) (shaped : ShapedMember scope set m) : ShapedMember scope larger m := by
  cases shaped with
  | inline noReference plain => exact .inline noReference plain
  | extended refers found noValues inside => exact .extended refers found noValues (subset inside)

def shapedStep (scope : Scope) (style : TypeStyle) : Set String →o Set String where
  toFun set := {name | ∃ s, scope.definitions.lookup name = some s ∧ ShapedOver scope style set s}
  monotone' := by
    intro set larger subset name shaped
    obtain ⟨s, found, plain, stated, members, single⟩ := shaped
    exact ⟨s, found, plain, stated, fun m inside => (members m inside).mono subset, single⟩

/-- The least set of definitions that holds all that are shaped if its own are. -/
def shapedNames (scope : Scope) (style : TypeStyle) : Set String := (shapedStep scope style).lfp

def Scope.Base (scope : Scope) (name base : String) : Prop :=
  ∃ s m reference target, scope.definitions.lookup name = some s ∧ m ∈ s.allOf ∧
    m.ref = some reference ∧ scope.target? reference = some (base, target)

section Shaped

variable {scope : Scope} {style : TypeStyle}

theorem mem_shapedNames {name : String} :
    name ∈ shapedNames scope style ↔ ∃ s, scope.definitions.lookup name = some s ∧
      ShapedOver scope style (shapedNames scope style) s := by
  have fixed : shapedStep scope style (shapedNames scope style) = shapedNames scope style :=
    (shapedStep scope style).map_lfp
  constructor
  · intro inside
    rw [← fixed] at inside
    exact inside
  · intro shaped
    rw [← fixed]
    exact shaped

theorem filter_ref_length (members : List Schema) :
    (members.filter (·.ref.isSome)).length = (members.filterMap (·.ref)).length := by
  induction members with
  | nil => rfl
  | cons m rest ih => cases refers : m.ref <;> simp [refers, ih]

theorem isShapeable_iff {s : Schema} :
    isShapeable s ↔ isPlainObject s true ∧ (s.allOf ≠ [] ∨ s.properties ≠ [] ∨ s.type.isSome) := by
  simp [isShapeable, or_assoc, Option.isSome_iff_ne_none]

/-- Whatever is on the way, a shape is found only where a definition is shaped. -/
theorem shapedOver_of_shape {onTheWay : List String} {s : Schema} {shape : Shape}
    (found : shape? scope style onTheWay s = some shape) :
    ShapedOver scope style (shapedNames scope style) s := by
  obtain ⟨shapeable, members, added, assembled⟩ := shape?_eq_some.mp found
  obtain ⟨plain, stated⟩ := isShapeable_iff.mp shapeable
  constructor
  case plain => exact plain
  case stated => exact stated
  case members =>
    intro m inside
    obtain ⟨result, -, adds⟩ := added.exists_right inside
    cases adds with
    | part inline plain => exact .inline inline plain
    | @base target _ _ _ refers known fresh noValues shaped =>
      have shrinks := Scope.remaining_lt known fresh
      have looked := (Scope.target?_eq_some.mp known).2
      have holds := shapedOver_of_shape shaped
      exact .extended refers known noValues (mem_shapedNames.mpr ⟨target, looked, holds⟩)
  case single =>
    intro isClass
    obtain ⟨bases, fits⟩ := bases_of_shape found
    have short := fits isClass
    rw [bases] at short
    rw [filter_ref_length]
    exact short
termination_by scope.remaining onTheWay

/-- What keeps a search for a definition from meeting anything twice: nothing on its way can be
    reached from the definition. -/
def Scope.Free (scope : Scope) (onTheWay : List String) (name : String) : Prop :=
  ∀ base, Relation.TransGen scope.Base name base → base ∉ onTheWay

structure Grounded (scope : Scope) (style : TypeStyle) (name : String) : Prop where
  ends : Acc (fun base name => scope.Base name base) name
  shape : ∃ s, scope.definitions.lookup name = some s ∧
    ∀ onTheWay, scope.Free onTheWay name → (shape? scope style onTheWay s).isSome

theorem grounded_of_shapedOver {name : String} {s : Schema}
    (looked : scope.definitions.lookup name = some s)
    (holds : ShapedOver scope style {n | Grounded scope style n} s) : Grounded scope style name := by
  constructor
  case ends =>
    constructor
    intro base isBase
    obtain ⟨t, m, reference, target, looked', inside, refers, found⟩ := isBase
    rw [looked] at looked'
    cases looked'
    cases holds.members m inside with
    | inline noReference =>
      rw [refers] at noReference
      cases noReference
    | extended refers' found' _ grounded =>
      rw [refers] at refers'
      cases refers'
      rw [found] at found'
      cases found'
      exact grounded.ends
  case shape =>
    refine ⟨s, looked, ?_⟩
    intro onTheWay free
    have each : ∀ m ∈ s.allOf, ∃ added, Adds scope style onTheWay m added := by
      intro m inside
      cases holds.members m inside with
      | inline noReference plain => exact ⟨_, .part noReference plain⟩
      | @extended reference base target refers found noValues grounded =>
        have isBase : scope.Base name base := ⟨s, m, reference, target, looked, inside, refers, found⟩
        have fresh : base ∉ onTheWay := free base (.single isBase)
        obtain ⟨t, lookedBase, shaped⟩ := grounded.shape
        have same := (Scope.target?_eq_some.mp found).2
        rw [lookedBase] at same
        cases same
        have freeBase : scope.Free (base :: onTheWay) base := by
          intro further reached again
          rcases List.mem_cons.mp again with rfl | earlier
          · exact Relation.not_transGen_of_acc grounded.ends reached
          · exact free further (.head isBase reached) earlier
        obtain ⟨shape, shapeFound⟩ := Option.isSome_iff_exists.mp (shaped _ freeBase)
        exact ⟨_, .base refers found fresh noValues shapeFound⟩
    obtain ⟨members, added⟩ := List.Forall₂.exists_of_forall each
    have fits : style = .classType → (members.filterMap (·.reference?)).length ≤ 1 := by
      intro isClass
      rw [references_of_adds added, ← filter_ref_length]
      exact holds.single isClass
    have assembled : Shape.ofMembers? style s members = some _ :=
      Shape.ofMembers?_eq_some.mpr ⟨rfl, fits⟩
    have shapeable := isShapeable_iff.mpr ⟨holds.plain, holds.stated⟩
    have found := shape?_eq_some.mpr ⟨shapeable, members, added, assembled⟩
    exact Option.isSome_iff_exists.mpr ⟨_, found⟩

theorem grounded_of_mem {name : String} (inside : name ∈ shapedNames scope style) :
    Grounded scope style name := by
  have closed : shapedStep scope style {n | Grounded scope style n} ≤
      {n | Grounded scope style n} := by
    intro n shaped
    obtain ⟨s, looked, holds⟩ := shaped
    exact grounded_of_shapedOver looked holds
  exact (shapedStep scope style).lfp_le closed inside

/-- A definition is shaped exactly if the search finds a shape with nothing on its way but the
    definition itself. -/
theorem mem_shapedNames_iff {name : String} {s : Schema}
    (looked : scope.definitions.lookup name = some s) :
    name ∈ shapedNames scope style ↔ (shape? scope style [name] s).isSome := by
  constructor
  · intro inside
    have grounded := grounded_of_mem inside
    obtain ⟨t, looked', shaped⟩ := grounded.shape
    rw [looked] at looked'
    cases looked'
    apply shaped
    intro base reached again
    rw [List.mem_singleton.mp again] at reached
    exact Relation.not_transGen_of_acc grounded.ends reached
  · intro shaped
    obtain ⟨shape, found⟩ := Option.isSome_iff_exists.mp shaped
    exact mem_shapedNames.mpr ⟨s, looked, shapedOver_of_shape found⟩

end Shaped

inductive Kind where
  | constants
  | interfaceType
  | classType
  | aliasType
  deriving DecidableEq, Repr

def Body.kind : Body → Kind
  | .constants _ => .constants
  | .interfaceType .. => .interfaceType
  | .classType .. => .classType
  | .aliasType _ => .aliasType

def TypeStyle.kind : TypeStyle → Kind
  | interfaceType => .interfaceType
  | classType => .classType

theorem kind_objectBody (settings : Settings) (bases : List String)
    (members : List (Member TypeExpr)) :
    (objectBody settings bases members).kind = settings.typeStyle.kind := by
  unfold objectBody
  split <;> rename_i style <;> rw [style] <;> rfl

open Classical in
noncomputable def kindOf (scope : Scope) (style : TypeStyle) (name : String) (s : Schema) : Kind :=
  if s.enumValues ≠ [] then .constants
  else if name ∈ shapedNames scope style then style.kind
  else .aliasType

theorem kind_of_bodyOf {c : Context} {name : String} {s : Schema} {body : Body}
    (looked : c.scope.definitions.lookup name = some s) (made : bodyOf c name s = .ok body) :
    body.kind = kindOf c.scope c.settings.typeStyle name s := by
  unfold kindOf
  rw [mem_shapedNames_iff looked]
  cases bodyOf_cases made with
  | constants values => rw [if_pos values]; rfl
  | aliasType noValues shapeless => rw [shapeless]; simp [noValues, Body.kind]
  | object noValues shaped => rw [shaped, kind_objectBody]; simp [noValues]

def Module.Extends (m : Module) (name base : String) : Prop :=
  ∃ declaration ∈ m.declarations, declaration.name = name ∧ base ∈ declaration.body.bases

theorem base_of_bodyOf {settings : Settings} {d : IsolatedDocument} {name base : String}
    {s : Schema} {body : Body} (looked : d.definitions.lookup name = some s)
    (made : bodyOf (.ofDocument settings d) name s = .ok body) (member : base ∈ body.bases) :
    ∃ target, (Scope.ofDocument d).Base name target ∧
      (Context.ofDocument settings d).identifiers.lookup target = some base := by
  have isObject : body.isObject := by
    cases body with
    | interfaceType => rfl
    | classType => rfl
    | aliasType => cases member
    | constants => cases member
  obtain ⟨reference, inside, resolved⟩ := (bases_of_bodyOf made isObject).exists_left member
  obtain ⟨m, among, refers⟩ := List.mem_filterMap.mp inside
  obtain ⟨target, named, identified⟩ := Context.resolve_eq_ok.mp resolved
  have known : target ∈ d.names := by
    by_contra unknown
    have missing : (Context.ofDocument settings d).identifiers.lookup target = none :=
      Identifiers.lookup_eq_none.mpr unknown
    rw [identified] at missing
    cases missing
  obtain ⟨t, defined⟩ := Definitions.mem_names.mp known
  have found := Scope.target?_eq_some.mpr ⟨named, defined⟩
  exact ⟨target, ⟨s, m, reference, t, looked, among, refers, found⟩, identified⟩

section Module

variable {settings : Settings} {d : IsolatedDocument} {m : Module} {fileName : String}

theorem bodyOf_of_identifier (made : moduleOf settings d fileName = .ok m) {name : String}
    {declaration : Declaration} (inside : declaration ∈ m.declarations)
    (identified : (Context.ofDocument settings d).identifiers.lookup name =
      some declaration.name) :
    ∃ s, d.definitions.lookup name = some s ∧
      bodyOf (.ofDocument settings d) name s = .ok declaration.body := by
  rw [← identifierOf?_eq made] at identified
  obtain ⟨s, other, looked, among, named, madeBody, -⟩ :=
    declaration_of_identifier (declarations_of_moduleOf made).2 identified
  have same : other = declaration :=
    List.inj_on_of_nodup_map (nodup_of_moduleOf made) among inside named
  exact ⟨s, looked, same ▸ madeBody⟩

theorem acc_extends (made : moduleOf settings d fileName = .ok m) {name identifier : String}
    (ends : Acc (fun base name => (Scope.ofDocument d).Base name base) name)
    (identified : (Context.ofDocument settings d).identifiers.lookup name = some identifier) :
    Acc (fun base name => m.Extends name base) identifier := by
  induction ends generalizing identifier with
  | intro name _ ih =>
    constructor
    intro base extended
    obtain ⟨declaration, inside, rfl, member⟩ := extended
    obtain ⟨s, looked, madeBody⟩ := bodyOf_of_identifier made inside identified
    obtain ⟨target, isBase, found⟩ := base_of_bodyOf looked madeBody member
    exact ih target isBase found

/-- What a declaration extends is declared as an interface or a class in the same module, and what
    it extends in turn ends somewhere. -/
theorem declared_of_base (made : moduleOf settings d fileName = .ok m)
    {declaration : Declaration} (inside : declaration ∈ m.declarations) {base : String}
    (member : base ∈ declaration.body.bases) :
    (∃ b ∈ m.declarations, b.name = base ∧ b.body.isObject) ∧
      Acc (fun base name => m.Extends name base) base := by
  have aligned := (declarations_of_moduleOf made).2
  obtain ⟨e, -, madeBody, -⟩ := aligned.exists_left inside
  obtain ⟨target, s, shape, -, found, looked, noValues, shaped⟩ := target_of_base madeBody member
  have ends := (grounded_of_mem ((mem_shapedNames_iff looked).mpr (by rw [shaped]; rfl))).ends
  refine ⟨?_, acc_extends made ends found⟩
  rw [← identifierOf?_eq made] at found
  obtain ⟨t, b, looked', among, named, madeBase, -⟩ := declaration_of_identifier aligned found
  have same : t = s := Option.some.inj (looked'.symm.trans looked)
  subst same
  exact ⟨b, among, named, (isObject_of_shape madeBase noValues shaped).1⟩

theorem not_extends_cycle (made : moduleOf settings d fileName = .ok m) (name : String) :
    ¬ Relation.TransGen m.Extends name name := by
  intro cycle
  obtain ⟨_, -, declaration, inside, -, member⟩ := Relation.TransGen.tail'_iff.mp cycle
  exact Relation.not_transGen_of_acc (declared_of_base made inside member).2 cycle

end Module

/-- How the definitions of a document are declared. The search for a shape ends wherever it starts
    and leaves the names as they were; from a definition it succeeds exactly if the definition is in
    the least set of shaped ones. These are declared as interfaces or classes, unless they list
    values, and so is everything that a declaration extends. -/
theorem declares_shapedNames (settings : Settings) (d : IsolatedDocument) :
    let scope := Scope.ofDocument d
    let style := settings.typeStyle
    let c := Context.ofDocument settings d
    IsLeast {set : Set String | ∀ name s, d.definitions.lookup name = some s →
        ShapedOver scope style set s → name ∈ set} (shapedNames scope style) ∧
      (∀ (visiting : Finset String) (s : Schema), ∃ shape, ∀ result left,
        Search scope style visiting s result left ↔ result = shape ∧ left = visiting) ∧
      (∀ name s, d.definitions.lookup name = some s →
        (name ∈ shapedNames scope style ↔ ∃ shape, Search scope style {name} s (some shape) {name}) ∧
        (s.enumValues ≠ [] → (bodyOf c name s).isOk) ∧
        ∀ body, bodyOf c name s = .ok body → body.kind = kindOf scope style name s) ∧
      ∀ fileName m, moduleOf settings d fileName = .ok m →
        (∀ name s, d.definitions.lookup name = some s →
          ∃ declaration ∈ m.declarations, m.identifierOf? d name = some declaration.name ∧
            declaration.body.kind = kindOf scope style name s) ∧
        (∀ declaration ∈ m.declarations, ∀ base ∈ declaration.body.bases,
          ∃ b ∈ m.declarations, b.name = base ∧ b.body.isObject) ∧
        ∀ name, ¬ Relation.TransGen m.Extends name name := by
  intro scope style c
  have least := (shapedStep scope style).isLeast_lfp_le
  have kinds {name : String} {s : Schema} {body : Body}
      (looked : d.definitions.lookup name = some s) (made : bodyOf c name s = .ok body) :
      body.kind = kindOf scope style name s := kind_of_bodyOf (c := c) looked made
  refine ⟨?isLeast, ?search, ?definitions, ?modules⟩
  case isLeast =>
    constructor
    · intro name s looked holds
      exact mem_shapedNames.mpr ⟨s, looked, holds⟩
    · intro set closed
      apply least.2
      intro name shaped
      obtain ⟨s, looked, holds⟩ := shaped
      exact closed name s looked holds
  case search =>
    intro visiting s
    obtain ⟨onTheWay, -, names⟩ := visiting.exists_list_nodup_eq
    refine ⟨shape? scope style onTheWay s, ?_⟩
    intro result left
    rw [← names]
    exact searchSpec scope style onTheWay s result left
  case definitions =>
    intro name s looked
    refine ⟨?_, ?_, fun body => kinds looked⟩
    · have search := searchSpec scope style [name] s
      rw [List.toFinset_cons, List.toFinset_nil, insert_empty_eq] at search
      rw [mem_shapedNames_iff looked, Option.isSome_iff_exists]
      simp only [search, and_true, eq_comm]
    · intro values
      rw [bodyOf, if_pos (by simpa using values)]
      rfl
  case modules =>
    intro fileName m made
    refine ⟨?_, fun declaration inside base member => (declared_of_base made inside member).1,
      not_extends_cycle made⟩
    intro name s looked
    obtain ⟨declaration, inside, ⟨madeBody, -⟩, found⟩ :=
      declaration_of_definition (declarations_of_moduleOf made).2 looked
    exact ⟨declaration, inside, found, kinds looked madeBody⟩

/-- Two ways to one base, a definition that extends itself, and one that extends listed values. -/
def diamond : IsolatedDocument where
  key := "A"
  info := {}
  dialect := .swagger2
  specVersion := Dialect.swagger2.defaultSpecVersion
  definitions :=
    [("A.Both", { allOf := [.reference "#/definitions/A.Left", .reference "#/definitions/A.Right"] }),
     ("A.Left", { allOf := [.reference "#/definitions/A.Base"] }),
     ("A.Right", { allOf := [.reference "#/definitions/A.Base"] }),
     ("A.Base", .ofType "object"),
     ("A.Loop", { allOf := [.reference "#/definitions/A.Loop"] }),
     ("A.Kind", { keywords := { enum := some [.int 1] } }),
     ("A.Odd", { allOf := [.reference "#/definitions/A.Kind"] })]

theorem declares_shapedNames_diamond :
    ∃ m, moduleOf {} diamond "A" = .ok m ∧
      m.declarations.map (·.body.kind) =
        [.interfaceType, .interfaceType, .interfaceType, .interfaceType, .aliasType, .constants,
          .aliasType] ∧
      kindOf (.ofDocument diamond) .interfaceType "A.Both"
        { allOf := [.reference "#/definitions/A.Left", .reference "#/definitions/A.Right"] } =
          .interfaceType ∧
      kindOf (.ofDocument diamond) .interfaceType "A.Loop"
        { allOf := [.reference "#/definitions/A.Loop"] } = .aliasType ∧
      ∀ name, ¬ Relation.TransGen m.Extends name name := by
  have declared : (moduleOf {} diamond "A").toOption.map (·.declarations.map (·.body.kind)) =
      some [.interfaceType, .interfaceType, .interfaceType, .interfaceType, .aliasType, .constants,
        .aliasType] := by decide +kernel
  cases made : moduleOf {} diamond "A" with
  | error e =>
    rw [made] at declared
    cases declared
  | ok m =>
    rw [made] at declared
    have kinds := Option.some.inj declared
    have bodies : ((bodyOf (.ofDocument {} diamond) "A.Both" { allOf :=
          [.reference "#/definitions/A.Left", .reference "#/definitions/A.Right"] }).toOption.map
            (·.kind),
        (bodyOf (.ofDocument {} diamond) "A.Loop" { allOf :=
          [.reference "#/definitions/A.Loop"] }).toOption.map (·.kind)) =
        (some .interfaceType, some .aliasType) := by decide +kernel
    obtain ⟨-, -, definitions, modules⟩ := declares_shapedNames {} diamond
    have told {name : String} {s : Schema} {kind : Kind}
        (looked : diamond.definitions.lookup name = some s)
        (body : (bodyOf (.ofDocument {} diamond) name s).toOption.map (·.kind) = some kind) :
        kindOf (.ofDocument diamond) .interfaceType name s = kind := by
      cases result : bodyOf (.ofDocument {} diamond) name s with
      | error e =>
        rw [result] at body
        cases body
      | ok b =>
        rw [result] at body
        cases body
        exact ((definitions name s looked).2.2 b result).symm
    have both := told rfl (Prod.mk.inj bodies).1
    have loop := told rfl (Prod.mk.inj bodies).2
    exact ⟨m, rfl, kinds, both, loop, (modules "A" m made).2.2⟩

end SchemaSplit.TypeScript
