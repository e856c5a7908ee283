/-!
# JSON values and their pretty text

An object is a list of entries in the order of the text; a key may occur more than once.

* `escape` and `quote` write strings;
* `Json.pretty` writes a value over several lines, two blanks to a level;
* `Json.depth` counts how deep arrays and objects lie inside one another.
-/

namespace IdlTypings

/-- A number: an integer of up to 64 bits, or the shortest decimal text of a floating-point
    value. -/
inductive Json.Number where
  | integer (value : Int)
  | floating (text : String)
  deriving Repr, BEq, DecidableEq, Inhabited

/-- A JSON value. -/
inductive Json where
  | null
  | bool (value : Bool)
  | number (value : Json.Number)
  | string (value : String)
  | array (items : List Json)
  | object (entries : List (String × Json))
  deriving Repr, BEq, Inhabited

namespace Json

/-! ## Strings -/

/-- A digit of the hexadecimal system, in lower case. -/
def hexDigit (n : Nat) : Char :=
  Nat.digitChar n

/-- One character of a string.  Quotes, backslashes and the characters below the blank are
    escaped; all others stand for themselves. -/
def escape (c : Char) : List Char :=
  if c == '\"' then ['\\', '\"']
  else if c == '\\' then ['\\', '\\']
  else if c.toNat == 0x08 then ['\\', 'b']
  else if c.toNat == 0x09 then ['\\', 't']
  else if c.toNat == 0x0A then ['\\', 'n']
  else if c.toNat == 0x0C then ['\\', 'f']
  else if c.toNat == 0x0D then ['\\', 'r']
  else if c.toNat < 0x20 then
    ['\\', 'u', '0', '0', hexDigit (c.toNat / 16), hexDigit (c.toNat % 16)]
  else [c]

def quote (s : String) : String :=
  String.ofList ('\"' :: s.toList.flatMap escape ++ ['\"'])

/-! ## Values -/

def Number.text : Number → String
  | .integer value => toString value
  | .floating text => text

def newLine (level : Nat) : String :=
  "\n" ++ String.ofList (List.replicate (2 * level) ' ')

mutual

/-- The pretty text of a value that stands at a level. -/
def write (level : Nat) : Json → String
  | .null => "null"
  | .bool value => if value then "true" else "false"
  | .number value => value.text
  | .string value => quote value
  | .array [] => "[]"
  | .array (item :: items) =>
    "[" ++ newLine (level + 1) ++ write (level + 1) item ++ writeItems (level + 1) items
      ++ newLine level ++ "]"
  | .object [] => "\x7b\x7d"
  | .object ((key, value) :: entries) =>
    "\x7b" ++ newLine (level + 1) ++ quote key ++ ": " ++ write (level + 1) value
      ++ writeEntries (level + 1) entries ++ newLine level ++ "\x7d"

/-- The items of an array after the first. -/
def writeItems (level : Nat) : List Json → String
  | [] => ""
  | item :: items => "," ++ newLine level ++ write level item ++ writeItems level items

/-- The entries of an object after the first. -/
def writeEntries (level : Nat) : List (String × Json) → String
  | [] => ""
  | (key, value) :: entries =>
    "," ++ newLine level ++ quote key ++ ": " ++ write level value ++ writeEntries level entries

end

def pretty (value : Json) : String :=
  value.write 0

mutual

/-- How deep arrays and objects lie inside one another. -/
def depth : Json → Nat
  | .array items => depthItems items + 1
  | .object entries => depthEntries entries + 1
  | _ => 0

/-- The greatest depth among some values. -/
def depthItems : List Json → Nat
  | [] => 0
  | item :: items => max item.depth (depthItems items)

/-- The greatest depth among the values of some entries. -/
def depthEntries : List (String × Json) → Nat
  | [] => 0
  | (_, value) :: entries => max value.depth (depthEntries entries)

end

end Json

end IdlTypings
