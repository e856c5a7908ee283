import IdlTypings.CommandLine.Outcome

/-!
# The program

The command line on the files of the machine.
-/

namespace IdlTypings

/-- The kind of a failed access to the file system. -/
def FileError.ofSystem : IO.Error → FileError
  | .noFileOrDirectory .. => .notFound
  | .alreadyExists .. => .alreadyExists
  | .inappropriateType _ code _ => if code == 21 then .isADirectory else .notADirectory
  | e => .other (toString e)

/-- The result of an access to the file system. -/
def attempt {α : Type} (action : IO α) : IO (Except FileError α) := do
  match ← action.toBaseIO with
  | .ok result => return .ok result
  | .error e => return .error (.ofSystem e)

instance : FileAccess IO where
  readBytes path := attempt (IO.FS.readBinFile path.text)
  isPresent path := do
    match ← attempt (IO.FS.readBinFile path.text) with
    | .error .notFound | .error .notADirectory => return false
    | _ => return true
  makeDirectories path := attempt (IO.FS.createDirAll path.text)
  writeBytes path bytes := attempt (IO.FS.writeBinFile path.text bytes)

end IdlTypings

/-- Calls the program with its arguments. -/
def main (args : List String) : IO UInt32 := do
  let outcome ← IdlTypings.CommandLine.call (m := IO) args
  IO.print outcome.output
  if outcome.status != 0 then
    IO.eprintln outcome.headline
  return outcome.status.toUInt32
