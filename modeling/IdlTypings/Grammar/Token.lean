import IdlTypings.Grammar.Form
import IdlTypings.Text.Parser

/-!
# Tokens of WebIDL

* `skipBlanks` passes over blank characters and comments, which may stand before and after every
  token;
* `symbol`, `keyword`, `identifier` and `stringLiteral` are the tokens;
* `floatLiteral` and `integerLiteral` are the numbers, kept as written;
* `parenthesized`, `bracketed`, `braced` and `angled` put a parser between brackets.

A comment that is not closed is no blank: a line comment needs its line feed, a block comment its
closing mark.  Words are not reserved, so an identifier may be spelled like a keyword.
-/

namespace IdlTypings.Grammar

open IdlTypings.Parser

variable {α : Type}

/-! ## Blanks -/

/-- The four blank characters. -/
def isBlank (c : Char) : Bool :=
  c == ' ' || c == '\t' || c == '\r' || c == '\n'

/-- The text after the first line feed. -/
def afterLine? : List Char → Option (List Char)
  | [] => none
  | c :: rest => if c == '\n' then some rest else afterLine? rest

/-- The text after the first mark that closes a block comment. -/
def afterBlock? : List Char → Option (List Char)
  | '*' :: '/' :: rest => some rest
  | _ :: rest => afterBlock? rest
  | [] => none

/-- The text after one blank character or one comment at its start. -/
def blank? : List Char → Option (List Char)
  | '/' :: '/' :: rest => afterLine? rest
  | '/' :: '*' :: rest => afterBlock? rest
  | c :: rest => if isBlank c then some rest else none
  | [] => none

/-- Passes over at most as many blanks as the bound has characters. -/
def skipBlanksWithin : (bound : List Char) → List Char → List Char
  | [], s => s
  | _ :: bound, s =>
    match blank? s with
    | some rest => skipBlanksWithin bound rest
    | none => s

/-- Passes over all the blanks at the start of a text. -/
def skipBlanks (s : List Char) : List Char :=
  skipBlanksWithin s s

/-- Blanks, as a parser that always succeeds. -/
def blanks : Parser Unit := fun s =>
  some ((), skipBlanks s)

/-- A parser between blanks. -/
def token (p : Parser α) : Parser α := do
  blanks
  let x ← p
  blanks
  return x

/-! ## Words and symbols -/

/-- A character that continues a word, so that no keyword ends before it. -/
def isNameChar (c : Char) : Bool :=
  c.isAlphanum || c == '_' || c == '-'

def symbol (mark : String) : Parser Unit :=
  token (exactly mark.toList)

def keyword (word : String) : Parser Unit :=
  token (do exactly word.toList; notFollowedBy isNameChar)

/-- A name.  A low line in front is an escape and no part of the name. -/
def identifier : Parser String :=
  token (do
    let _ ← present (exactly ['_'])
    let head ← takeWhile1 Char.isAlpha
    let tail ← takeWhile isNameChar
    return String.ofList (head ++ tail))

/-- A text between double quotes; there are no escapes. -/
def stringLiteral : Parser String :=
  token (do
    exactly ['\"']
    let body ← takeWhile (· != '\"')
    exactly ['\"']
    return String.ofList body)

/-! ## Numbers -/

/-- An optional character out of a few, as it was written. -/
def oneOf? (choices : List Char) : Parser (List Char) :=
  (do let c ← satisfy choices.contains; return [c]) <|> pure []

/-- `e` or `E`, an optional sign and digits. -/
def exponent : Parser (List Char) := do
  let mark ← satisfy ['e', 'E'].contains
  let sign ← oneOf? ['+', '-']
  let digits ← takeWhile1 Char.isDigit
  return mark :: sign ++ digits

/-- Digits around a point, at least one on one side of it. -/
def pointed : Parser (List Char) :=
  (do
    let whole ← takeWhile1 Char.isDigit
    exactly ['.']
    let fraction ← takeWhile Char.isDigit
    return whole ++ '.' :: fraction) <|>
  (do
    let whole ← takeWhile Char.isDigit
    exactly ['.']
    let fraction ← takeWhile1 Char.isDigit
    return whole ++ '.' :: fraction)

/-- A number with a point or an exponent. -/
def floatDigits : Parser (List Char) :=
  (do
    let sign ← oneOf? ['-']
    let body ← pointed
    let power ← exponent <|> pure []
    return sign ++ body ++ power) <|>
  (do
    let sign ← oneOf? ['-']
    let body ← takeWhile1 Char.isDigit
    let power ← exponent
    return sign ++ body ++ power)

def floatLiteral : Parser FloatLiteral :=
  (do return .value (String.ofList (← token floatDigits))) <|>
  (do keyword "-Infinity"; return .negInfinity) <|>
  (do keyword "Infinity"; return .infinity) <|>
  (do keyword "NaN"; return .nan)

def isHexDigit (c : Char) : Bool :=
  c.isDigit || ('a' ≤ c && c ≤ 'f') || ('A' ≤ c && c ≤ 'F')

/-- A decimal integer, which does not begin with zero. -/
def decDigits : Parser (List Char) := do
  let sign ← oneOf? ['-']
  let head ← satisfy fun c => '1' ≤ c && c ≤ '9'
  let tail ← takeWhile Char.isDigit
  return sign ++ head :: tail

/-- A hexadecimal integer; the digits after the mark may be missing. -/
def hexDigits : Parser (List Char) := do
  let sign ← oneOf? ['-']
  exactly ['0']
  let mark ← satisfy ['x', 'X'].contains
  let digits ← takeWhile isHexDigit
  return sign ++ '0' :: mark :: digits

/-- An octal integer, which begins with zero. -/
def octDigits : Parser (List Char) := do
  let sign ← oneOf? ['-']
  exactly ['0']
  let digits ← takeWhile fun c => '0' ≤ c && c ≤ '7'
  return sign ++ '0' :: digits

def integerLiteral : Parser IntegerLiteral :=
  (do return .dec (String.ofList (← token decDigits))) <|>
  (do return .hex (String.ofList (← token hexDigits))) <|>
  (do return .oct (String.ofList (← token octDigits)))

/-- `true` or `false`. -/
def booleanLiteral : Parser Bool :=
  (do keyword "true"; return true) <|> (do keyword "false"; return false)

def constValue : Parser ConstValue :=
  (do return .boolean (← booleanLiteral)) <|>
  (do return .float (← floatLiteral)) <|>
  (do return .integer (← integerLiteral)) <|>
  (do keyword "null"; return .null)

/-- The default of an argument or of a dictionary field. -/
def defaultValue : Parser DefaultValue :=
  (do return .boolean (← booleanLiteral)) <|>
  (do symbol "["; symbol "]"; return .emptyArray) <|>
  (do symbol "\x7b"; symbol "\x7d"; return .emptyDictionary) <|>
  (do return .float (← floatLiteral)) <|>
  (do return .integer (← integerLiteral)) <|>
  (do keyword "null"; return .null) <|>
  (do return .string (← stringLiteral))

/-! ## Brackets -/

/-- `( … )` -/
def parenthesized (p : Parser α) : Parser α := do
  symbol "("
  let x ← p
  symbol ")"
  return x

/-- `[ … ]` -/
def bracketed (p : Parser α) : Parser α := do
  symbol "["
  let x ← p
  symbol "]"
  return x

/-- A parser between curly brackets. -/
def braced (p : Parser α) : Parser α := do
  symbol "\x7b"
  let x ← p
  symbol "\x7d"
  return x

/-- `< … >` -/
def angled (p : Parser α) : Parser α := do
  symbol "<"
  let x ← p
  symbol ">"
  return x

end IdlTypings.Grammar
