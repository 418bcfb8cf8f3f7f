import SchemaSplit.Group
import SchemaSplit.Error
import SchemaSplit.Text.Alphanumeric
import SchemaSplit.Text.Blank
import SchemaSplit.Text.Digits

namespace SchemaSplit

inductive Level where
  | error
  | warn
  | info
  | debug
  | trace
  deriving DecidableEq, Repr, Inhabited

namespace Level

def all : List Level := [error, warn, info, debug, trace]

def name : Level → String
  | error => "ERROR"
  | warn => "WARN"
  | info => "INFO"
  | debug => "DEBUG"
  | trace => "TRACE"

def rank : Level → Nat
  | error => 1
  | warn => 2
  | info => 3
  | debug => 4
  | trace => 5

def ofWord? (s : String) : Option Level :=
  all.find? fun l => l.name == s.map Char.toUpper

end Level

structure Event where
  level : Level
  /-- The part of the program that reports. -/
  target : String
  text : String
  deriving DecidableEq, Repr, Inhabited

namespace Event

def make (level : Level) (target message : String) (values : List (String × String)) : Event :=
  ⟨level, target, message ++ String.join (values.map fun v => " " ++ v.1 ++ "=" ++ v.2)⟩

def reading (path : String) : Event :=
  make .debug "nsplit_core::source" "Reading API description." [("path", path)]

def fetching (url : String) (timeout : Nat) : Event :=
  make .debug "nsplit_core::source" "Fetching API description."
    [("url", url), ("timeout_secs", toString timeout)]

def fetchFailed (url cause : String) : Event :=
  make .warn "nsplit_core::source" "API description request failed."
    [("error", cause), ("url", url)]

def unreadable (source cause : String) : Event :=
  make .warn "nsplit_core::source" "Failed to parse API description."
    [("source", source), ("error", cause)]

def loaded (source : String) (d : Document) : Event :=
  make .info "nsplit_core::source" "Loaded API description."
    [("source", source), ("title", d.info.title), ("definitions", toString d.definitions.length)]

def settingsResolved : Event :=
  make .debug "nsplit_cli::generate" "Resolved generate settings." []

def partitioned (definitions groups : Nat) : Event :=
  if definitions = 0 then
    make .warn "nsplit_core::partition" "No definitions found in the source document." []
  else
    make .debug "nsplit_core::partition" "Partitioned definitions by key."
      [("definitions", toString definitions), ("groups", toString groups)]

def dangling (reference : String) : Event :=
  make .debug "nsplit_core::closure" "Skipping dangling reference." [("reference", reference)]

def closed (g : Group) (definitions : Nat) : Event :=
  make .debug "nsplit_core::closure" "Resolved group closure."
    [("group", g.key), ("members", toString g.members.length),
     ("definitions", toString definitions)]

def ofClosure (g : Group) (c : Closure) : List Event :=
  c.dangling.map dangling ++ [closed g c.found.length]

def declared (group : String) (declarations : Nat) : Event :=
  make .debug "nsplit_core::codegen::typescript" "Normalized TypeScript declarations."
    [("group", group), ("declarations", toString declarations)]

def overwriting (path previous group : String) : Event :=
  make .warn "nsplit_core::pipeline"
    "Two groups map to the same artifact; the later one overwrites it."
    [("path", path), ("previous", previous), ("group", group)]

def generated (group path : String) (definitions : Nat) : Event :=
  make .info "nsplit_core::pipeline" "Generated artifact."
    [("group", group), ("path", path), ("definitions", toString definitions)]

def groupFailed (failFast : Bool) (group : String) (e : RunError) : Event :=
  make .error "nsplit_core::pipeline"
    (if failFast then "Group failed, stopping." else "Group failed, continuing.")
    [("group", group), ("error", e.message)]

def finished (written failed : Nat) : Event :=
  make .debug "nsplit_core::pipeline" "Split run finished."
    [("written", toString written), ("failed", toString failed)]

end Event

/-- Up to which level events of some targets are shown; none at all without a level. -/
structure Directive where
  /-- What the targets start with. -/
  target : String
  level? : Option Level
  deriving DecidableEq, Repr, Inhabited

inductive DirectiveFault where
  | malformed
  | unknownLevel
  deriving DecidableEq, Repr, Inhabited

def DirectiveFault.message : DirectiveFault → String
  | malformed => "invalid filter directive"
  | unknownLevel =>
    "error parsing level filter: expected one of \"off\", \"error\", \"warn\", \"info\", " ++
      "\"debug\", \"trace\", or a number 0-5"

namespace Directive

def levelOf? (s : String) : Option (Option Level) :=
  match Level.ofWord? s with
  | some l => some (some l)
  | none =>
    if s.map Char.toLower = "off" then some none
    else do
      let digits := match s.toList with
        | '+' :: cs => cs
        | cs => cs
      match ← Text.natural? 10 digits with
      | 0 => some none
      | n => some <$> Level.all.find? (·.rank == n)

def isStart (c : Char) : Bool := Text.isAlphanumeric c || ['-', ':', '_', '['].contains c

/-- A level for all targets, or a target with its level, all levels without one. A target with a
    level may not have blanks before it. -/
def parse (s : String) : Except DirectiveFault Directive :=
  if !(Text.trim s.toList).head?.any isStart then .error .malformed
  else
    match s.toList.span (· ≠ '=') with
    | (_, []) =>
      match levelOf? s with
      | some l => .ok ⟨"", l⟩
      | none => .ok ⟨s, some .trace⟩
    | (target, _ :: level) =>
      if target.head?.any Text.isBlank then .error .unknownLevel
      else if level.isEmpty then .ok ⟨String.ofList target, some .trace⟩
      else
        match levelOf? (String.ofList level) with
        | some l => .ok ⟨String.ofList target, l⟩
        | none => .error .unknownLevel

end Directive

structure LogFilter where
  directives : List Directive
  /-- What there is to say about texts that are no directives. -/
  warnings : List String := []
  deriving DecidableEq, Repr, Inhabited

namespace LogFilter

def ownTargets : List String := ["nsplit_core", "nsplit_cli"]

def ofLevel (level : Level) : LogFilter := ⟨ownTargets.map fun t => ⟨t, some level⟩, []⟩

/-- The filter of directives with commas between them. If there are none, errors are shown. -/
def ofList (texts : String) : LogFilter :=
  let parsed := ((texts.splitOn ",").filter (!·.isEmpty)).map fun s => (s, Directive.parse s)
  let directives := parsed.filterMap (·.2.toOption)
  let warnings := parsed.filterMap fun
    | (s, .error fault) => some ("ignoring \x60" ++ s ++ "\x60: " ++ fault.message)
    | _ => none
  ⟨if directives.isEmpty then [⟨"", some .error⟩] else directives, warnings⟩

/-- The filter of a setting. A plain level is meant for the program itself, and nothing stands for
    `info`. -/
def ofSetting (setting : Option String) : LogFilter :=
  match setting with
  | none => ofLevel .info
  | some s =>
    match Level.ofWord? s with
    | some l => ofLevel l
    | none => if (Text.trim s.toList).isEmpty then ofLevel .info else ofList s

def deciding (f : LogFilter) (target : String) : Option Directive :=
  (f.directives.filter fun d => target.startsWith d.target).foldl
    (fun best d =>
      match best with
      | some b => if d.target.length < b.target.length then some b else some d
      | none => some d)
    none

def shows (f : LogFilter) (e : Event) : Bool :=
  match f.deciding e.target with
  | some ⟨_, some level⟩ => e.level.rank ≤ level.rank
  | _ => false

end LogFilter
end SchemaSplit
