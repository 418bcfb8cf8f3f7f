import SchemaSplit.Program

namespace SchemaSplit

def hasNumber (code number : UInt32) : Bool := code == number || code == 0 - number

def FileError.ofError (e : IO.Error) : FileError :=
  match e with
  | .noFileOrDirectory .. | .noSuchThing .. => .notFound
  | .alreadyExists _ code _ => if hasNumber code 17 then .alreadyExists else .other (toString e)
  | .inappropriateType _ code _ =>
    if hasNumber code 20 then .notADirectory
    else if hasNumber code 21 then .isADirectory
    else .other (toString e)
  | .invalidArgument _ code _ => if hasNumber code 36 then .nameTooLong else .other (toString e)
  | e => .other (toString e)

def systemMachine (filter : LogFilter) : Machine IO where
  read path := do
    match ← (IO.FS.readBinFile path).toBaseIO with
    | .error e => return .error (.ofError e)
    | .ok bytes =>
      match String.fromUTF8? bytes with
      | some text => return .ok text
      | none => return .error .notText
  makeDirs path :=
    let isDirectory (names : List String) : IO Bool := do
      match ← (IO.FS.realPath (pathOfNames names)).toBaseIO with
      | .ok path => path.isDir
      | .error _ => return false
    let makeDir (names : List String) : IO (Except FileError Unit) := do
      return (← (IO.FS.createDir (pathOfNames names)).toBaseIO).mapError .ofError
    makeAll isDirectory makeDir (directoryNames path)
  write path text := do
    return (← (IO.FS.writeFile path text).toBaseIO).mapError .ofError
  fetch _ _ := return .error "no connection to the network"
  log e := do
    if filter.shows e then
      IO.eprintln (e.level.name ++ " " ++ e.target ++ ": " ++ e.text)

end SchemaSplit

open SchemaSplit in
def main (words : List String) : IO UInt32 := do
  let filter := LogFilter.ofSetting (← IO.getEnv "NSPLIT_LOG")
  filter.warnings.forM IO.eprintln
  let outcome ← Program.run (systemMachine filter) words
  IO.print outcome.stdout
  IO.eprint outcome.stderr
  return outcome.code.toUInt32
