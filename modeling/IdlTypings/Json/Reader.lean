import IdlTypings.Json.Fault
import IdlTypings.Json.Number

/-!
# Reading JSON text

A `Reader` reads from the start of a text and leaves the rest, or stops at the first fault.

* `string` and `scalar` read values without parts;
* `array` and `object` read the parts of a value one after the other, with a step of the caller's
  choice for each of them;
* `value` reads any value whose arrays and objects nest no deeper than a limit.
-/

namespace IdlTypings.Json

/-- A reader of the start of a text. -/
abbrev Reader (α : Type) : Type :=
  StateT (List Char) (Except Fault) α

namespace Reader

variable {α σ : Type}

/-! ## Characters -/

/-- A parser, where failure means that the text is not JSON. -/
def ofParser (p : Parser α) : Reader α := fun s =>
  match p s with
  | some found => .ok found
  | none => .error .malformed

/-- A result that takes nothing from the text. -/
def ofExcept (result : Except Fault α) : Reader α := fun s =>
  result.map fun value => (value, s)

def isBlank (c : Char) : Bool :=
  c == ' ' || c == '\n' || c == '\t' || c == '\r'

def blanks : Reader Unit := fun s =>
  .ok ((), s.dropWhile isBlank)

/-- The next character, which is left in the text. -/
def peek : Reader (Option Char) := fun s =>
  .ok (s.head?, s)

def next : Reader (Option Char) := fun s =>
  .ok (s.head?, s.tail)

/-! ## Values without parts -/

def hexValue? (c : Char) : Option Nat :=
  if c.isDigit then some (c.toNat - '0'.toNat)
  else if 'a' ≤ c && c ≤ 'f' then some (c.toNat - 'a'.toNat + 10)
  else if 'A' ≤ c && c ≤ 'F' then some (c.toNat - 'A'.toNat + 10)
  else none

/-- Four hexadecimal digits. -/
def hexUnit : Parser Nat := fun
  | a :: b :: c :: d :: rest => do
    let a ← hexValue? a
    let b ← hexValue? b
    let c ← hexValue? c
    let d ← hexValue? d
    return (((a * 16 + b) * 16 + c) * 16 + d, rest)
  | _ => none

/-- The character of a `\u` escape: one unit, or a high and a low surrogate. -/
def unicodeEscape : Parser Char := do
  let unit ← hexUnit
  if 0xD800 ≤ unit && unit < 0xDC00 then
    Parser.exactly ['\\', 'u']
    let low ← hexUnit
    if 0xDC00 ≤ low && low < 0xE000 then
      return Char.ofNat (0x10000 + (unit - 0xD800) * 0x400 + (low - 0xDC00))
    else failure
  else if 0xDC00 ≤ unit && unit < 0xE000 then failure
  else return Char.ofNat unit

/-- What follows the backslash of an escape. -/
def escaped : Parser Char := do
  let c ← Parser.satisfy fun _ => true
  match c with
  | '\"' => return '\"'
  | '\\' => return '\\'
  | '/' => return '/'
  | 'b' => return Char.ofNat 0x08
  | 'f' => return Char.ofNat 0x0C
  | 'n' => return '\n'
  | 'r' => return '\r'
  | 't' => return '\t'
  | 'u' => unicodeEscape
  | _ => failure

/-- One character of a string, perhaps escaped. -/
def stringChar : Parser Char :=
  (do Parser.exactly ['\\']; escaped) <|>
    Parser.satisfy fun c => c != '\"' && c != '\\' && 0x20 ≤ c.toNat

def stringText : Parser String := do
  Parser.exactly ['\"']
  let s ← Parser.many stringChar
  Parser.exactly ['\"']
  return String.ofList s

def string : Reader String :=
  ofParser stringText

/-- A value that is neither an array nor an object. -/
def scalar : Reader Json :=
  ofParser <|
    (do Parser.exactly "null".toList; return .null) <|>
    (do Parser.exactly "true".toList; return .bool true) <|>
    (do Parser.exactly "false".toList; return .bool false) <|>
    (.string <$> stringText) <|>
    (.number <$> numberText)

/-! ## Values with parts -/

/-- The items of an array after its bracket, when there is at least one.  There are at most as many
    rounds as the bound has characters. -/
def items (step : σ → Reader σ) : (bound : List Char) → σ → Reader σ
  | [], _ => throw .malformed
  | _ :: bound, state => do
    blanks
    let state ← step state
    blanks
    match ← next with
    | some ',' => items step bound state
    | some ']' => return state
    | _ => throw .malformed

/-- An array, of which `step` reads the items one by one. -/
def array (step : σ → Reader σ) (start : σ) : Reader σ := do
  ofParser (Parser.exactly ['['])
  blanks
  if (← peek) == some ']' then
    let _ ← next
    return start
  else
    items step (← get) start

/-- The colon after a key, and what comes after it. -/
def afterColon (reader : Reader α) : Reader α := do
  blanks
  ofParser (Parser.exactly [':'])
  blanks
  reader

/-- The entries of an object after its brace, when there is at least one.  There are at most as many
    rounds as the bound has characters. -/
def entries (step : σ → String → Reader σ) : (bound : List Char) → σ → Reader σ
  | [], _ => throw .malformed
  | _ :: bound, state => do
    blanks
    let key ← string
    let state ← step state key
    blanks
    match ← next with
    | some ',' => entries step bound state
    | some '\x7d' => return state
    | _ => throw .malformed

/-- An object, of which `step` reads the entries one by one, each from the colon after its key. -/
def object (step : σ → String → Reader σ) (start : σ) : Reader σ := do
  ofParser (Parser.exactly ['\x7b'])
  blanks
  if (← peek) == some '\x7d' then
    let _ ← next
    return start
  else
    entries step (← get) start

/-- A value whose arrays and objects nest at most the given number of levels. -/
def value : (levels : Nat) → Reader Json
  | 0 => scalar
  | levels + 1 => do
    match ← peek with
    | some '[' =>
      let items ← array (fun items => return (← value levels) :: items) []
      return .array items.reverse
    | some '\x7b' =>
      let entries ← object (fun entries key => do
        let item ← afterColon (value levels)
        return (key, item) :: entries) []
      return .object entries.reverse
    | _ => scalar

/-- How deep arrays and objects may nest in a text. -/
def maxDepth : Nat := 127

/-- Reads a whole text, with nothing but blanks after what the reader takes. -/
def whole (reader : Reader α) (s : List Char) : Except Fault α := do
  let (result, rest) ← reader s
  if (rest.dropWhile isBlank).isEmpty then return result
  else throw .malformed

end Reader

end IdlTypings.Json
