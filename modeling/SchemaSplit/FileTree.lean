import SchemaSplit.Machine

namespace SchemaSplit

inductive FileEntry where
  | directory
  | file (bytes : ByteArray)
  deriving Inhabited

/-- Where an entry lies: the names on the way down from the working directory. Above it there are
    only the names `..`, and the root of all files is the name `/`. -/
abbrev Place := List String

structure FileTree where
  entries : List (Place × FileEntry) := []
  deriving Inhabited

namespace FileTree

/-- The entry at a place. The working directory and those above it are always there. -/
def entry? (t : FileTree) (place : Place) : Option FileEntry :=
  if place.all (· == "..") ∨ place = ["/"] then some .directory else t.entries.lookup place

def isDirectory (t : FileTree) (place : Place) : Bool :=
  match t.entry? place with
  | some .directory => true
  | _ => false

def put (t : FileTree) (place : Place) (e : FileEntry) : FileTree :=
  ⟨t.entries.filter (·.1 ≠ place) ++ [(place, e)]⟩

def parent (place : Place) : Place :=
  if place.all (· == "..") then place ++ [".."]
  else if place = ["/"] then place
  else place.dropLast

def enter (t : FileTree) (place : Place) (name : String) : Except FileError Place :=
  match t.entry? place with
  | none => .error .notFound
  | some (.file _) => .error .notADirectory
  | some .directory =>
    if name = "." then .ok place
    else if name = ".." then .ok (parent place)
    else if 255 < name.utf8ByteSize then .error .nameTooLong
    else .ok (place ++ [name])

def locate (t : FileTree) (names : List String) : Except FileError Place :=
  match names with
  | [] => .error .notFound
  | "/" :: rest => rest.foldlM t.enter ["/"]
  | names => names.foldlM t.enter []

def read (t : FileTree) (path : String) : Except FileError String := do
  match t.entry? (← t.locate (pathNames path)) with
  | none => .error .notFound
  | some .directory => .error .isADirectory
  | some (.file bytes) =>
    match String.fromUTF8? bytes with
    | some text => .ok text
    | none => .error .notText

def write (t : FileTree) (path text : String) : Except FileError FileTree := do
  let place ← t.locate (pathNames path)
  if t.isDirectory place then .error .isADirectory
  else return t.put place (.file text.toUTF8)

def makeDir (t : FileTree) (names : List String) : Except FileError FileTree := do
  let place ← t.locate names
  match t.entry? place with
  | some _ => .error .alreadyExists
  | none => return t.put place .directory

def leadsToDirectory (t : FileTree) (names : List String) : Bool :=
  match t.locate names with
  | .ok place => t.isDirectory place
  | .error _ => false

def makeDirs (path : String) : StateM FileTree (Except FileError Unit) :=
  makeAll (fun names => do return (← get).leadsToDirectory names)
    (fun names => do
      match (← get).makeDir names with
      | .ok t => set t; return .ok ()
      | .error e => return .error e)
    (directoryNames path)

end FileTree

structure Recording where
  files : FileTree := {}
  events : List Event := []
  deriving Inhabited

def recorder : Machine (StateM Recording) where
  read path := do return (← get).files.read path
  makeDirs path := do
    let r ← get
    let (result, files) := (FileTree.makeDirs path).run r.files
    set { r with files }
    return result
  write path text := do
    let r ← get
    match r.files.write path text with
    | .ok files => set { r with files }; return .ok ()
    | .error e => return .error e
  fetch _ _ := return .error "no network"
  log e := modify fun r => { r with events := r.events ++ [e] }

end SchemaSplit
