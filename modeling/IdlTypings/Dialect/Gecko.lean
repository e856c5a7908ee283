import IdlTypings.Text.Scan
import IdlTypings.Text.Space
import IdlTypings.Text.Word

/-!
# Gecko's dialect

Gecko describes its components in a dialect with preprocessor lines, blocks of C++, forward
declarations, directions of parameters and attributes that WebIDL does not have.  One function
mends each of them; `mend` applies them all and adds the `prelude`, which defines what every
component may refer to.
-/

namespace IdlTypings.Dialect.Gecko

open IdlTypings.Parser IdlTypings.Text

/-! ## Preprocessor lines and code -/

/-- From a number sign to the end of its line, the line feed included. -/
def directive : Parser (List Char) := do
  exactly ['#']
  let _ ← takeWhile (· != '\n')
  exactly ['\n']
  return []

/-- A block of C++ between its marks. -/
def codeBlock : Parser (List Char) := do
  exactly "%\x7bC++\n".toList
  through "%\x7d".toList
  return []

/-- Leaves out preprocessor lines, then blocks of C++. -/
def dropDirectives (s : List Char) : List Char :=
  replaceAll (fun _ => codeBlock) (replaceAll (fun _ => directive) s)

/-! ## Forward declarations -/

/-- An interface without a body. -/
def forwardDeclaration : Parser (List Char) := do
  exactly "interface ".toList
  let name ← takeWhile isWord
  exactly [';']
  return "typedef any ".toList ++ name ++ [';']

/-- Makes an interface without a body a name for any type. -/
def nameForwardDeclarations (s : List Char) : List Char :=
  replaceAll (fun _ => forwardDeclaration) s

/-! ## Attributes with an argument -/

/-- A comma, blanks, and a word with letters, digits and hyphens between parentheses. -/
def uuidAttribute : Parser (List Char) := do
  exactly [',']
  let _ ← takeWhile isSpace
  let _ ← takeWhile isWord
  exactly ['(']
  let _ ← takeWhile fun c => isWord c || c == '-'
  exactly [')']
  return []

/-- Leaves out attributes such as `, uuid(…)`. -/
def dropUuids (s : List Char) : List Char :=
  replaceAll (fun _ => uuidAttribute) s

/-! ## Directions of parameters -/

def isWordOrParen (c : Char) : Bool :=
  isWord c || c == '(' || c == ')'

/-- One part of a list of attributes: words and parentheses, or a comma with the blanks after
    it. -/
def attributePart : Parser Unit :=
  (do let _ ← takeWhile1 isWordOrParen) <|> (do exactly [',']; let _ ← takeWhile isSpace)

/-- A list of attributes between square brackets, with the blank after it if there is one. -/
def attributeList : Parser Unit := do
  exactly ['[']
  let _ ← many attributePart
  exactly [']']
  let _ ← present (exactly [' '])

/-- Where a parameter begins: after the opening parenthesis, or after a comma and blanks. -/
def parameterStart : Parser Unit :=
  exactly ['('] <|> (do exactly [',']; let _ ← takeWhile isSpace)

/-- The start of a parameter up to its direction, which is not kept. -/
def direction : Parser (List Char) := do
  let (start, _) ← withText (do parameterStart; let _ ← present attributeList)
  exactly "in ".toList <|> exactly "out ".toList
  return start

/-- Leaves out the directions of parameters. -/
def dropDirections (s : List Char) : List Char :=
  replaceAll (fun _ => direction) s

/-! ## Lists of attributes -/

/-- The attribute of an optional parameter. -/
def optionalAttribute : Parser (List Char) := do
  exactly "[optional]".toList
  return "optional".toList

/-- A list of attributes and a blank, before a word and a blank. -/
def leadingAttributes : Parser (List Char) := do
  exactly ['[']
  let _ ← takeWhile fun c => isWordOrParen c || c == ',' || isSpace c
  exactly "] ".toList
  lookAhead (do let _ ← takeWhile isWord; exactly [' '])
  return []

def bareAttribute : Parser (List Char) := do
  exactly ['[']
  let _ ← takeWhile isWordOrParen
  exactly [']']
  return []

/-- Writes `[optional]` as a keyword, then leaves out the other lists of attributes: those before
    a word first, then those of one attribute. -/
def dropAttributes (s : List Char) : List Char :=
  let optionals := replaceAll (fun _ => optionalAttribute) s
  let leading := replaceAll (fun _ => leadingAttributes) optionals
  replaceAll (fun _ => bareAttribute) leading

/-! ## Arrays -/

/-- An array of one word, where no word continues into it. -/
def array (before : Option Char) : Parser (List Char) := do
  if before.any isWord then failure
  exactly "Array<".toList
  let type ← takeWhile isWord
  exactly ['>']
  return "sequence<".toList ++ type ++ ['>']

/-- Writes arrays as sequences. -/
def sequenceArrays (s : List Char) : List Char :=
  replaceAll array s

/-! ## All together -/

/-- What every component may refer to. -/
def prelude : String :=
  "typedef string AString;\n" ++
  "typedef string ACString;\n" ++
  "typedef string AUTF8String;\n" ++
  "typedef object nsIIDRef;\n" ++
  "typedef object nsQIResult;\n" ++
  "typedef number MozExternalRefCountType;\n" ++
  "\n" ++
  "[scriptable]\n" ++
  "interface nsISupports \x7b\n" ++
  "  void QueryInterface(nsIIDRef aIID, [retval] nsQIResult aInstancePtr);\n" ++
  "  [noscript, notxpcom] MozExternalRefCountType AddRef();\n" ++
  "  [noscript, notxpcom] MozExternalRefCountType Release();\n" ++
  "\x7d;\n"

/-- Mends everything in its order, and adds the prelude on a new line. -/
def mend (s : List Char) : List Char :=
  let plain := dropUuids (nameForwardDeclarations (dropDirectives s))
  sequenceArrays (dropAttributes (dropDirections plain)) ++ '\n' :: prelude.toList

end IdlTypings.Dialect.Gecko
