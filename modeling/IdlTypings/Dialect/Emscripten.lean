import IdlTypings.Text.Scan
import IdlTypings.Text.Word

/-!
# The dialect of Emscripten's binder

Two things are written differently than in WebIDL:

* inheritance, as a statement `Child implements Parent;` beside the interfaces.
  `inheritImplemented` puts the parent into the head of the child and makes the statement a
  comment;
* arrays, as `Type[]`.  `freezeArrays` writes them as `FrozenArray<Type>`.

Words are compared without regard to case.
-/

namespace IdlTypings.Dialect.Emscripten

open IdlTypings.Parser IdlTypings.Text

/-! ## Letters without case -/

/-- The small letter of a letter.  Two letters outside ASCII fold into it: the long s and the
    Kelvin sign. -/
def foldCase (c : Char) : Char :=
  if c.toNat == 0x17F then 's'
  else if c.toNat == 0x212A then 'k'
  else c.toLower

/-- Exactly the given word, in any case. -/
def exactlyFolded : List Char → Parser Unit
  | [], s => some ((), s)
  | _ :: _, [] => none
  | c :: cs, d :: rest => if c == foldCase d then exactlyFolded cs rest else none

/-- A letter or digit of ASCII, or a letter that folds into one. -/
def isNamePart (c : Char) : Bool :=
  (foldCase c).isAlphanum

/-! ## Inheritance -/

/-- That one interface implements another. -/
structure Implementation where
  child : List Char
  parent : List Char

/-- A statement that one interface implements another. -/
def implementation : Parser Implementation := do
  let child ← takeWhile1 isNamePart
  exactlyFolded " implements ".toList
  let parent ← takeWhile1 isNamePart
  exactly [';']
  return ⟨child, parent⟩

/-- The statements of a text, each with its own text, between the other characters. -/
def implementations (s : List Char) : List (Char ⊕ (List Char × Implementation)) :=
  scan (fun _ => withText implementation) s

/-- Puts a parent into the first head of its child that has none. -/
def addParent (s : List Char) (i : Implementation) : List Char :=
  replaceFirst ("interface ".toList ++ i.child ++ " \x7b".toList)
    ("interface ".toList ++ i.child ++ ": ".toList ++ i.parent ++ " \x7b".toList) s

/-- Turns statements of implementation into comments, and gives each child its parent. -/
def inheritImplemented (s : List Char) : List Char :=
  let pieces := implementations s
  let commented := pieces.flatMap (Sum.elim (fun c => [c]) fun found => "// ".toList ++ found.1)
  let found := pieces.filterMap fun piece => piece.getRight?.map Prod.snd
  found.foldl addParent commented

/-! ## Arrays -/

def frozen (type : List Char) : List Char :=
  "FrozenArray<".toList ++ type ++ ['>']

/-- An attribute whose type is an array of one word. -/
def arrayAttribute : Parser (List Char) := do
  exactlyFolded "attribute ".toList
  let type ← takeWhile1 isWord
  exactly "[]".toList
  return "attribute ".toList ++ frozen type

/-- An array of a type of the given name. -/
def arrayOf (type : List Char) : Parser (List Char) := do
  exactlyFolded (type ++ "[]".toList)
  return frozen type

/-- Writes arrays as frozen arrays: those of attributes first, then those of `float` and
    `long`. -/
def freezeArrays (s : List Char) : List Char :=
  let attributes := replaceAll (fun _ => arrayAttribute) s
  let floats := replaceAll (fun _ => arrayOf "float".toList) attributes
  replaceAll (fun _ => arrayOf "long".toList) floats

end IdlTypings.Dialect.Emscripten
