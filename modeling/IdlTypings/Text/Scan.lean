import IdlTypings.Text.Parser

/-!
# Finding and replacing

* `scan` goes through a text from left to right and tries a parser at every place.  Where the parser
  succeeds its value is kept and the search goes on after what it has read; everywhere else one
  character is kept.  The parser also sees the character before its place.
* `replaceAll` writes something else for everything that was found.
* `replaceFirst` replaces the first occurrence of a fixed text.

A find is worth keeping only if it has read something; one that reads nothing is taken to have
read one character.
-/

namespace IdlTypings.Text

variable {α : Type}

/-- Goes through a text.  `before` is the character before it, and the first `skip` characters
    belong to a find already kept. -/
def scanFrom (find : Option Char → Parser α) :
    (before : Option Char) → (skip : Nat) → List Char → List (Char ⊕ α)
  | _, _, [] => []
  | _, skip + 1, c :: rest => scanFrom find (some c) skip rest
  | before, 0, c :: rest =>
    match find before (c :: rest) with
    | some (found, after) => .inr found :: scanFrom find (some c) (rest.length - after.length) rest
    | none => .inl c :: scanFrom find (some c) 0 rest

/-- The characters of a text, with the finds of a parser in place of what it reads. -/
def scan (find : Option Char → Parser α) (s : List Char) : List (Char ⊕ α) :=
  scanFrom find none 0 s

/-- A text with something else for every find. -/
def replaceAll (find : Option Char → Parser (List Char)) (s : List Char) : List Char :=
  (scan find s).flatMap (Sum.elim (fun c => [c]) id)

/-- A text with something else for the first occurrence of a fixed text. -/
def replaceFirst (old new : List Char) : List Char → List Char
  | [] => []
  | c :: rest =>
    if old.isPrefixOf (c :: rest) then new ++ (c :: rest).drop old.length
    else c :: replaceFirst old new rest

end IdlTypings.Text

namespace IdlTypings.Parser

variable {α : Type}

/-- A parser together with the text that it has read. -/
def withText (p : Parser α) : Parser (List Char × α) := fun s =>
  (p s).map fun (x, rest) => ((s.take (s.length - rest.length), x), rest)

/-- A parser that reads nothing, and succeeds where another one would. -/
def lookAhead (p : Parser α) : Parser Unit := fun s =>
  (p s).map fun _ => ((), s)

/-- Everything up to and including the first occurrence of a fixed text. -/
def through (mark : List Char) : Parser Unit := fun
  | [] => none
  | c :: rest =>
    if mark.isPrefixOf (c :: rest) then some ((), (c :: rest).drop mark.length)
    else through mark rest

end IdlTypings.Parser
