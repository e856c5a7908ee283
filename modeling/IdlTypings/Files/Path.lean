/-!
# Paths

A path is kept as it is written.  Its pieces stand between slashes; an empty piece and a piece `.`
lead nowhere, except that a path may begin with one.

* `parent?` is a path without its last piece that leads somewhere;
* `join` puts a name after a directory;
* `withExtension` replaces what follows the last point of the last piece that leads somewhere.
-/

namespace IdlTypings

/-- The path of a file or a directory. -/
structure Path where
  chars : List Char
  deriving Repr, BEq, DecidableEq, Inhabited

namespace Path

/-- One piece of a path. -/
abbrev Name : Type :=
  List Char

def ofString (s : String) : Path :=
  ⟨s.toList⟩

def text (p : Path) : String :=
  String.ofList p.chars

/-! ## Pieces -/

def splitSlashes : List Char → List Name
  | [] => [[]]
  | c :: rest =>
    if c == '/' then [] :: splitSlashes rest
    else
      match splitSlashes rest with
      | [] => [[c]]
      | name :: names => (c :: name) :: names

def joinSlashes : List Name → List Char
  | [] => []
  | [name] => name
  | name :: names => name ++ '/' :: joinSlashes names

def pieces (p : Path) : List Name :=
  splitSlashes p.chars

/-- Pieces from the last to the first, without those at the end that lead nowhere. -/
def dropIdle : List Name → List Name
  | [] => []
  | [first] => [first]
  | name :: names => if name == [] || name == ['.'] then dropIdle names else name :: names

/-- The path that some pieces, from the last to the first, spell. -/
def ofReversed : List Name → Path
  | [[]] => ⟨['/']⟩
  | names => ⟨joinSlashes names.reverse⟩

/-- The directory that a path lies in, as it is written.  It is empty for a single name; the empty
    path and the root have none. -/
def parent? (p : Path) : Option Path :=
  match dropIdle p.pieces.reverse with
  | [] => none
  | [first] => if first == [] then none else some ⟨[]⟩
  | _ :: names => some (ofReversed (dropIdle names))

/-- A path and its parents, the nearest first, up to a number of them and without the empty
    path. -/
def ancestorsUpTo : Nat → Path → List Path
  | 0, _ => []
  | n + 1, p =>
    if p.chars.isEmpty then []
    else
      match p.parent? with
      | none => [p]
      | some q => p :: ancestorsUpTo n q

/-- A path and all its parents, the nearest first, without the empty path. -/
def ancestors (p : Path) : List Path :=
  ancestorsUpTo (p.chars.length + 1) p

/-- Whether a path begins at the root. -/
def isAbsolute (p : Path) : Bool :=
  p.chars.head? == some '/'

def endsInSlash (p : Path) : Bool :=
  p.chars.getLast? == some '/'

def trimSlashes (p : Path) : Path :=
  ⟨(p.chars.reverse.dropWhile (· == '/')).reverse⟩

/-! ## Names -/

def join (directory : Path) (name : String) : Path :=
  if directory.chars.isEmpty || directory.endsInSlash then ⟨directory.chars ++ name.toList⟩
  else ⟨directory.chars ++ '/' :: name.toList⟩

/-- What stands before the last point of a name, if the name has a point after its first
    character. -/
def stem? (name : Name) : Option Name :=
  match (name.reverse.dropWhile (· != '.')).reverse.dropLast with
  | [] => none
  | stem => some stem

/-- A name with another extension.  At the end of a path, a name of two points and an extension is
    left with the points alone, which have none. -/
def nameWithExtension (atEnd : Bool) (name : Name) (extension : String) : Name :=
  match stem? name with
  | none => name ++ '.' :: extension.toList
  | some stem =>
    if atEnd && stem == ['.'] then ['.', '.'] else stem ++ '.' :: extension.toList

/-- A name of its own, which leads neither to the directory that it stands in nor out of it. -/
def Ordinary (name : Name) : Prop :=
  name ≠ [] ∧ name ≠ ['.'] ∧ name ≠ ['.', '.']

instance (name : Name) : Decidable (Ordinary name) :=
  inferInstanceAs (Decidable (_ ∧ _ ∧ _))

/-- A path whose last name has another extension.  Pieces that lead nowhere are left out behind it;
    a path that does not end in a name is left as it is. -/
def withExtension (p : Path) (extension : String) : Path :=
  match dropIdle p.pieces.reverse with
  | [] => p
  | name :: names =>
    if Ordinary name then
      let atEnd := p.pieces.getLast? == some name
      ⟨joinSlashes (names.reverse ++ [nameWithExtension atEnd name extension])⟩
    else p

end Path

end IdlTypings
