import SchemaSplit.Document.Reader
import SchemaSplit.Machine
import SchemaSplit.Url

namespace SchemaSplit

inductive Locator where
  | web (url : Url)
  | file (path : String)
  deriving DecidableEq, Repr, Inhabited

namespace Locator

/-- What starts with `http://` or `https://`, in any case and behind blanks, is an address. Anything
    else is a path as it stands. -/
def parse (input : String) : Except RetrievalError Locator :=
  match Url.splitScheme? (Text.trim input.toList) with
  | none => .ok (.file input)
  | some (isSecure, rest) =>
    match Url.ofRest isSecure rest with
    | .ok address => .ok (.web address)
    | .error fault => .error (.invalidUrl input fault.message)

def text : Locator → String
  | web url => url.text
  | file path => path

end Locator

def defaultTimeout : Nat := 60

section
variable {m : Type → Type} [Monad m]

def Locator.read (machine : Machine m) (timeout : Nat) (l : Locator) :
    m (Except RetrievalError String) := do
  match l with
  | .file path =>
    machine.log (.reading path)
    match ← machine.read path with
    | .ok text => return .ok text
    | .error e => return .error (.io path e.message)
  | .web url =>
    machine.log (.fetching url.text timeout)
    match ← machine.fetch url.text timeout with
    | .ok text => return .ok text
    | .error cause =>
      machine.log (.fetchFailed url.text cause)
      return .error (.fetch url.text cause)

def Locator.load (machine : Machine m) (timeout : Nat) (l : Locator) :
    m (Except RetrievalError Document) := do
  match ← l.read machine timeout with
  | .error e => return .error e
  | .ok text =>
    match Document.parse text.toList with
    | .error e =>
      machine.log (.unreadable l.text e.message)
      return .error (.parse l.text e.message)
    | .ok d =>
      machine.log (.loaded l.text d)
      return .ok d

end
end SchemaSplit
