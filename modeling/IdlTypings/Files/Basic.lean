import IdlTypings.Files.Path

/-!
# Access to files

What a run needs of a file system, and the ways in which it can fail.
-/

namespace IdlTypings

/-- Why a file or directory cannot be read, written or made. -/
inductive FileError where
  | notFound
  | isADirectory
  | notADirectory
  | alreadyExists
  /-- The bytes of the file are not text. -/
  | invalidData
  | other (description : String)
  deriving Repr, BEq, DecidableEq, Inhabited

def FileError.name : FileError → String
  | .notFound => "NotFound"
  | .isADirectory => "IsADirectory"
  | .notADirectory => "NotADirectory"
  | .alreadyExists => "AlreadyExists"
  | .invalidData => "InvalidData"
  | .other description => description

/-- Reading and writing files from inside a monad. -/
class FileAccess (m : Type → Type) where
  /-- The bytes of a file. -/
  readBytes : Path → m (Except FileError ByteArray)
  /-- Whether there is a file or a directory at a path. -/
  isPresent : Path → m Bool
  /-- Makes a directory and all that are missing above it. -/
  makeDirectories : Path → m (Except FileError Unit)
  /-- Writes a file, which may be new. -/
  writeBytes : Path → ByteArray → m (Except FileError Unit)

namespace FileAccess

variable {m : Type → Type} [Monad m] [FileAccess m]

def readText (path : Path) : m (Except FileError String) := do
  match ← readBytes path with
  | .error e => return .error e
  | .ok bytes =>
    match String.fromUTF8? bytes with
    | some text => return .ok text
    | none => return .error .invalidData

end FileAccess

end IdlTypings
