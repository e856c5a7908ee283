import IdlTypings.Settings.Basic
import IdlTypings.Text.Parser

/-!
# Settings files

A settings file is a TOML document whose keys are `emscripten`, `gecko`, `module` and
`default_export`.  Each is set at most once, the module to a string and the others to `true` or
`false`; nothing else is accepted, so tables, dotted keys, numbers and dates never are.

* `document` reads the rows of a file;
* `Config.ofToml?` gives the settings of a file, or nothing where the file is not one.
-/

namespace IdlTypings.Toml

open IdlTypings.Parser

/-- The value of a key. -/
inductive Value where
  | bool (value : Bool)
  | string (value : String)
  deriving Repr, BEq, DecidableEq, Inhabited

/-- A key and its value. -/
structure Entry where
  key : String
  value : Value
  deriving Repr, BEq, DecidableEq, Inhabited

/-! ## Characters -/

/-- A text in which a carriage return before a line feed is left out. -/
def foldNewlines : List Char → List Char
  | [] => []
  | c :: rest =>
    if c == '\r' && rest.head? == some '\n' then foldNewlines rest else c :: foldNewlines rest

/-- A blank inside a line. -/
def isBlank (c : Char) : Bool :=
  c == ' ' || c == '\t'

/-- Any blanks inside a line. -/
def blanks : Parser Unit := do
  let _ ← takeWhile isBlank

/-- A character that a comment may hold. -/
def isCommentChar (c : Char) : Bool :=
  c == '\t' || 0x20 ≤ c.toNat

/-- A character that a string may hold as it is. -/
def isStringChar (c : Char) : Bool :=
  c == '\t' || 0x20 ≤ c.toNat && c.toNat != 0x7F

/-! ## Strings -/

def hexDigit : Parser Nat := do
  let c ← satisfy fun c => c.isDigit || 'a' ≤ c && c ≤ 'f' || 'A' ≤ c && c ≤ 'F'
  return if c.isDigit then c.toNat - '0'.toNat else c.toLower.toNat - 'a'.toNat + 10

/-- A number of the given count of hexadecimal digits, after one that was read before. -/
def hexNumber : (count : Nat) → (start : Nat) → Parser Nat
  | 0, start => return start
  | count + 1, start => do
    let digit ← hexDigit
    hexNumber count (16 * start + digit)

def numbered (count : Nat) : Parser (List Char) := do
  let n ← hexNumber count 0
  if n.isValidChar then return [Char.ofNat n] else failure

/-- What follows the backslash of an escape. -/
def escaped : Parser (List Char) := do
  let c ← satisfy fun _ => true
  match c with
  | '\"' => return ['\"']
  | '\\' => return ['\\']
  | 'b' => return [Char.ofNat 0x08]
  | 'f' => return [Char.ofNat 0x0C]
  | 'n' => return ['\n']
  | 'r' => return ['\r']
  | 't' => return ['\t']
  | 'u' => numbered 4
  | 'U' => numbered 8
  | _ => failure

/-- The end of a line after a backslash, and all blanks and line ends that follow. -/
def lineEnding : Parser (List Char) := do
  blanks
  exactly ['\n']
  let _ ← takeWhile fun c => isBlank c || c == '\n'
  return []

/-- A kind of string. -/
structure Quotation where
  /-- The quotation mark. -/
  mark : Char
  /-- Whether a backslash begins an escape. -/
  escapes : Bool

/-- Strings between double quotes, with escapes. -/
def basic : Quotation := ⟨'\"', true⟩

/-- Strings between apostrophes, without escapes. -/
def literal : Quotation := ⟨'\'', false⟩

/-- A part of a string that is no quotation mark and no line feed. -/
def part (q : Quotation) : Parser (List Char) := do
  let c ← satisfy fun c => isStringChar c && c != q.mark
  if c == '\\' && q.escapes then escaped else return [c]

/-- One or two quotation marks inside a string of several lines. -/
def innerMarks (q : Quotation) : Parser (List Char) := do
  let marks ← takeWhile1 (· == q.mark)
  if marks.length ≤ 2 then return marks else failure

def linePart (q : Quotation) : Parser (List Char) :=
  (do exactly ['\n']; return ['\n']) <|>
  innerMarks q <|>
  part q <|>
  (do
    if !q.escapes then failure
    exactly ['\\']
    lineEnding)

/-- The quotation marks that end a string of several lines.  Up to two marks before the last three
    belong to the string. -/
def closingMarks (q : Quotation) : Parser (List Char) := do
  exactly [q.mark, q.mark, q.mark]
  let fourth ← present (exactly [q.mark])
  let fifth ← present (exactly [q.mark])
  return List.replicate (fourth.toNat + fifth.toNat) q.mark

/-- A string of several lines.  A line feed right after the opening is not part of it. -/
def lines (q : Quotation) : Parser String := do
  exactly [q.mark, q.mark, q.mark]
  let _ ← present (exactly ['\n'])
  let parts ← many (linePart q)
  let last ← closingMarks q
  return String.ofList (parts.flatten ++ last)

def line (q : Quotation) : Parser String := do
  exactly [q.mark]
  let parts ← many (part q)
  exactly [q.mark]
  return String.ofList parts.flatten

def lineString : Parser String :=
  line basic <|> line literal

/-- A string.  Three quotation marks open a string of several lines. -/
def string : Parser String :=
  lines basic <|> lines literal <|> lineString

/-! ## Rows -/

def isWordChar (c : Char) : Bool :=
  c.isAlphanum || c == '_' || c == '-'

def word : Parser String := do
  let cs ← takeWhile1 isWordChar
  return String.ofList cs

/-- A key: a word or a string on one line. -/
def key : Parser String :=
  word <|> lineString

def truth : Parser Bool := do
  let w ← word
  if w == "true" then return true
  else if w == "false" then return false
  else failure

def value : Parser Value :=
  (.bool <$> truth) <|> (.string <$> string)

def entry : Parser Entry := do
  let k ← key
  blanks
  exactly ['=']
  blanks
  let v ← value
  return ⟨k, v⟩

/-- A comment up to the end of its line. -/
def comment : Parser Unit := do
  exactly ['#']
  let _ ← takeWhile isCommentChar

/-- A row of a document, without its end: perhaps an entry, perhaps a comment. -/
def row : Parser (Option Entry) := do
  blanks
  let e ← (some <$> entry) <|> pure none
  blanks
  let _ ← present comment
  return e

def document : Parser (List Entry) := do
  let _ ← present (exactly [Char.ofNat 0xFEFF])
  let rows ← sepBy1 row (exactly ['\n'])
  atEnd
  return rows.filterMap id

end IdlTypings.Toml

namespace IdlTypings.Config

open Toml (Entry)

/-- Settings with one more entry; nothing if the entry is unknown, of the wrong type, or a
    repetition. -/
def add (config : Config) (entry : Entry) : Option Config :=
  match entry.key, entry.value with
  | "emscripten", .bool value =>
    if config.emscripten.isSome then none else some { config with emscripten := some value }
  | "gecko", .bool value =>
    if config.gecko.isSome then none else some { config with gecko := some value }
  | "default_export", .bool value =>
    if config.defaultExport.isSome then none else some { config with defaultExport := some value }
  | "module", .string value =>
    if config.moduleName.isSome then none else some { config with moduleName := some value }
  | _, _ => none

/-- The settings of a file, from its text. -/
def ofToml? (text : List Char) : Option Config := do
  let (entries, _) ← Toml.document (Toml.foldNewlines text)
  entries.foldlM add {}

end IdlTypings.Config
