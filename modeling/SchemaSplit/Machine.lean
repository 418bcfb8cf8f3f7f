import SchemaSplit.Log

/-!
What a run needs from outside: files, documents of the network and a place for its log. Runs are
written for any machine, so that they work on real files as well as on a tree of files in memory.
-/

namespace SchemaSplit

inductive FileError where
  | notFound
  | alreadyExists
  | notADirectory
  | isADirectory
  | nameTooLong
  /-- The bytes of the file are no text. -/
  | notText
  | other (message : String)
  deriving DecidableEq, Repr, Inhabited

namespace FileError

def message : FileError → String
  | notFound => "No such file or directory (os error 2)"
  | alreadyExists => "File exists (os error 17)"
  | notADirectory => "Not a directory (os error 20)"
  | isADirectory => "Is a directory (os error 21)"
  | nameTooLong => "File name too long (os error 36)"
  | notText => "stream did not contain valid UTF-8"
  | other message => message

end FileError

structure Machine (m : Type → Type) where
  read : (path : String) → m (Except FileError String)
  /-- Makes a directory and all that it lies in. -/
  makeDirs : (path : String) → m (Except FileError Unit)
  /-- Makes a file or replaces what is in it. -/
  write : (path text : String) → m (Except FileError Unit)
  /-- Fetches a text within a number of seconds. -/
  fetch : (url : String) → (timeout : Nat) → m (Except String String)
  log : Event → m Unit

def joinPath (directory file : String) : String :=
  if directory.isEmpty ∨ directory.toList.getLast? = some '/' then directory ++ file
  else directory ++ "/" ++ file

/-- The names on a path, of which the root of all files is one. A slash at the end is a name, too:
    that of the directory itself. -/
def pathNames (path : String) : List String :=
  let parts := path.splitOn "/"
  let inner := parts.filter (!·.isEmpty)
  (if path.startsWith "/" then ["/"] else []) ++ inner ++
    (if path.endsWith "/" ∧ !inner.isEmpty then ["."] else [])

def pathOfNames : List String → String
  | "/" :: names => "/" ++ "/".intercalate names
  | names => "/".intercalate names

/-- The names of a directory, the last one first. A slash at its end adds nothing. -/
def directoryNames (path : String) : List String :=
  let reversed := (pathNames path).reverse
  match reversed with
  | "." :: rest => if path.endsWith "/" then rest else reversed
  | _ => reversed

section
variable {m : Type → Type} [Monad m]

/-- Makes a directory whose names are given the last one first. If the directory around it is
    missing, that is made before. -/
def makeAll (isDirectory : List String → m Bool)
    (makeDir : List String → m (Except FileError Unit)) :
    (reversed : List String) → m (Except FileError Unit)
  | [] => return .ok ()
  | name :: around => do
    let names := (name :: around).reverse
    let unlessThere (e : FileError) : m (Except FileError Unit) := do
      return if ← isDirectory names then .ok () else .error e
    match ← makeDir names with
    | .ok () => return .ok ()
    | .error .notFound =>
      match ← makeAll isDirectory makeDir around with
      | .error e => return .error e
      | .ok () =>
        match ← makeDir names with
        | .ok () => return .ok ()
        | .error e => unlessThere e
    | .error e => unlessThere e

end
end SchemaSplit
