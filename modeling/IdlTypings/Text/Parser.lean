/-!
# Parsers of text

A `Parser` looks at the start of a text; it either fails or gives a value and the text that is
left.  A choice is ordered: its second branch is tried, from the same place, only where the first
one fails, and a branch that has succeeded is never reconsidered.

* `satisfy`, `exactly` and `takeWhile` read characters;
* `firstOf` is a choice among several parsers;
* `many`, `sepBy` and `sepBy1` repeat a parser as often as it succeeds;
* `atEnd` succeeds on the empty text alone.

A repetition makes at most as many rounds as the text has characters.  A parser that always
consumes something never reaches that bound.
-/

namespace IdlTypings

/-- A reader of the start of a text. -/
abbrev Parser (α : Type) : Type :=
  StateT (List Char) Option α

namespace Parser

variable {α : Type}

def satisfy (test : Char → Bool) : Parser Char := fun
  | [] => none
  | c :: rest => if test c then some (c, rest) else none

def exactly : List Char → Parser Unit
  | [], s => some ((), s)
  | _ :: _, [] => none
  | c :: cs, d :: rest => if c == d then exactly cs rest else none

/-- The longest run of characters that satisfy a test. -/
def takeWhile (test : Char → Bool) : Parser (List Char) := fun s =>
  some (s.takeWhile test, s.dropWhile test)

/-- The longest run of characters that satisfy a test, when there is at least one. -/
def takeWhile1 (test : Char → Bool) : Parser (List Char) := do
  let c ← satisfy test
  let cs ← takeWhile test
  return c :: cs

/-- Succeeds, and consumes nothing, unless the next character satisfies a test. -/
def notFollowedBy (test : Char → Bool) : Parser Unit := fun
  | [] => some ((), [])
  | c :: rest => if test c then none else some ((), c :: rest)

def atEnd : Parser Unit := fun
  | [] => some ((), [])
  | _ :: _ => none

def firstOf : List (Parser α) → Parser α
  | [], _ => none
  | p :: ps, s =>
    match p s with
    | some found => some found
    | none => firstOf ps s

/-- Whether an optional part is there; the part is consumed if it is. -/
def present (p : Parser α) : Parser Bool :=
  (do let _ ← p; return true) <|> pure false

/-- At most as many rounds of a parser as the bound has characters. -/
def manyWithin (p : Parser α) : (bound : List Char) → Parser (List α)
  | [] => return []
  | _ :: bound =>
    (do
      let x ← p
      let xs ← manyWithin p bound
      return x :: xs) <|> pure []

/-- As many rounds of a parser as succeed. -/
def many (p : Parser α) : Parser (List α) := fun s =>
  manyWithin p s s

/-- One or more items with a separator between neighbours.  A separator that no item follows is
    left in the text. -/
def sepBy1 (p : Parser α) (sep : Parser Unit) : Parser (List α) := do
  let x ← p
  let xs ← many (do sep; p)
  return x :: xs

/-- Any number of items with a separator between neighbours. -/
def sepBy (p : Parser α) (sep : Parser Unit) : Parser (List α) :=
  sepBy1 p sep <|> pure []

end Parser

end IdlTypings
