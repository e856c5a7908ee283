import IdlTypings.Files.Basic

/-!
# File trees

A `FileTree` is a working directory with everything below it, kept by location: the names that lead
to a file or directory.  A path is followed piece by piece from the working directory; every piece
but the last must lead to a directory.

The operations give the tree afterwards; `FileAccess` is implemented by them for computations whose
state is a tree.
-/

namespace IdlTypings

/-- A file with its bytes, or a directory. -/
inductive FileNode where
  | file (bytes : ByteArray)
  | directory
  deriving Inhabited

/-- The names that lead to a file or directory; none for the working directory. -/
abbrev Location : Type :=
  List Path.Name

/-- A working directory and everything below it. -/
structure FileTree where
  nodes : List (Location × FileNode) := []
  deriving Inhabited

namespace FileTree

/-! ## Locations -/

def get? (tree : FileTree) : Location → Option FileNode
  | [] => some .directory
  | name :: names => tree.nodes.lookup (name :: names)

def set (tree : FileTree) (location : Location) (node : FileNode) : FileTree :=
  ⟨(location, node) :: tree.nodes.filter (·.1 != location)⟩

/-- Follows one piece of a path from a location, which must be that of a directory. -/
def follow (tree : FileTree) (location : Location) (piece : Path.Name) :
    Except FileError Location :=
  match tree.get? location with
  | none => .error .notFound
  | some (.file _) => .error .notADirectory
  | some .directory =>
    if piece == [] || piece == ['.'] then .ok location
    else if piece == ['.', '.'] then .ok location.dropLast
    else .ok (location ++ [piece])

/-- The location that a path leads to, whether or not something stands there. -/
def locate (tree : FileTree) (path : Path) : Except FileError Location :=
  if path.chars.isEmpty || path.isAbsolute then .error .notFound
  else path.pieces.foldlM tree.follow []

def find (tree : FileTree) (path : Path) : Except FileError FileNode := do
  match tree.get? (← tree.locate path) with
  | some node => return node
  | none => throw .notFound

/-! ## Reading -/

def readBytes (tree : FileTree) (path : Path) : Except FileError ByteArray := do
  match ← tree.find path with
  | .file bytes => return bytes
  | .directory => throw .isADirectory

/-- Whether there is a file or a directory at a path. -/
def isPresent (tree : FileTree) (path : Path) : Bool :=
  (tree.find path).isOk

def isDirectory (tree : FileTree) (path : Path) : Bool :=
  match tree.find path with
  | .ok .directory => true
  | _ => false

/-! ## Writing -/

/-- Writes a file, which may be new.  Its directory must be there. -/
def writeBytes (tree : FileTree) (path : Path) (bytes : ByteArray) :
    Except FileError FileTree := do
  let location ← tree.locate path.trimSlashes
  if path.endsInSlash then throw .isADirectory
  match tree.get? location with
  | some .directory => throw .isADirectory
  | _ => return tree.set location (.file bytes)

/-- Makes a single directory, where nothing stands yet. -/
def makeDirectory (tree : FileTree) (path : Path) : Except FileError FileTree := do
  let location ← tree.locate path.trimSlashes
  match tree.get? location with
  | some _ => throw .alreadyExists
  | none => return tree.set location .directory

/-- Makes a directory that may be there already. -/
def ensureDirectory (tree : FileTree) (path : Path) : Except FileError FileTree :=
  match tree.makeDirectory path with
  | .ok tree => .ok tree
  | .error e => if tree.isDirectory path then .ok tree else .error e

/-- Makes the first of some paths, each the parent of the one before it.  Where its parent is
    missing that is made first; directories once made stay, whatever comes after. -/
def makeAll (tree : FileTree) : List Path → Except FileError Unit × FileTree
  | [] => (.ok (), tree)
  | path :: parents =>
    match tree.ensureDirectory path with
    | .ok tree => (.ok (), tree)
    | .error .notFound =>
      match tree.makeAll parents with
      | (.error e, tree) => (.error e, tree)
      | (.ok (), tree) =>
        match tree.ensureDirectory path with
        | .ok tree => (.ok (), tree)
        | .error e => (.error e, tree)
    | .error e => (.error e, tree)

/-- Makes a directory and all that are missing above it. -/
def makeDirectories (tree : FileTree) (path : Path) : Except FileError Unit × FileTree :=
  tree.makeAll path.ancestors

/-! ## Everything in a tree -/

/-- The text of a location; a directory ends in a slash. -/
def locationText (location : Location) : FileNode → String
  | .file _ => String.ofList (Path.joinSlashes location)
  | .directory => String.ofList (Path.joinSlashes location ++ ['/'])

/-- All files and directories, in the order of their texts. -/
def list (tree : FileTree) : List String :=
  (tree.nodes.map fun (location, node) => locationText location node).mergeSort

/-! ## Computations on a tree -/

instance : FileAccess (StateM FileTree) where
  readBytes path := do
    return (← get).readBytes path
  isPresent path := do
    return (← get).isPresent path
  makeDirectories path := fun tree => tree.makeDirectories path
  writeBytes path bytes := fun tree =>
    match tree.writeBytes path bytes with
    | .ok tree => (.ok (), tree)
    | .error e => (.error e, tree)

end FileTree

end IdlTypings
