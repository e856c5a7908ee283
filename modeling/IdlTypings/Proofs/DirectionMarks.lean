import Mathlib
import IdlTypings.Proofs.ComponentText

/-! # Directions in the text of a method

In the dialect every parameter of a method has a direction, which may stand behind a list of
attributes.  A `MethodText` is such a text, part by part, and `MethodText.write` writes it with a mark
of one's choice for each direction.  Mending takes the text with the marks `in ` and `out ` to the
text with none, and changes nothing else: `dropDirections_method`.

A find begins at the parenthesis or at the comma before a parameter, and it takes the whole list of
attributes with it, `attributeList_inner`.  So the parentheses and commas inside a list begin no find of
their own, and behind the mark there are only words up to the next comma.
-/

namespace IdlTypings.Dialect.Gecko

open IdlTypings.Parser IdlTypings.Text

variable {α : Type}

/-! ## Methods by their text -/

/-- A word of letters, digits and low lines. -/
structure Word where
  text : List Char
  nonempty : text ≠ []
  ascii : ∀ c ∈ text, isAsciiWord c = true

/-- White space, in any amount. -/
structure Gap where
  text : List Char
  blank : ∀ c ∈ text, isSpace c = true

/-- One or more items.  Between neighbours there are a comma and a gap. -/
structure Row (α : Type) where
  first : α
  others : List (Gap × α)

/-- An attribute, which may have an argument. -/
structure Entry where
  name : Word
  argument : Option Word

/-- A list of attributes, which may be empty. -/
structure Attributes where
  entries : Option (Row Entry)

/-- A parameter: attributes, a direction, and the words of its type and name. -/
structure ParameterText where
  attributes : Option Attributes
  direction : Direction
  first : Word
  others : List Word

/-- A method with at least one parameter. -/
structure MethodText where
  name : Word
  parameters : Row ParameterText

/-- The text of a row, over the text of an item. -/
def Row.write (item : α → List Char) (row : Row α) : List Char :=
  item row.first ++ row.others.flatMap fun next => ',' :: next.1.text ++ item next.2

def Entry.write (entry : Entry) : List Char :=
  entry.name.text ++ entry.argument.elim [] fun argument => '(' :: argument.text ++ [')']

/-- The text of a list of attributes between its brackets. -/
def Attributes.inner (attributes : Attributes) : List Char :=
  attributes.entries.elim [] (Row.write Entry.write)

/-- The text of a list of attributes, if there is one, with the blank after it. -/
def attributesText (attributes : Option Attributes) : List Char :=
  attributes.elim [] fun list => '[' :: (list.inner ++ "] ".toList)

/-- The text of a parameter, with a mark for its direction. -/
def ParameterText.write (mark : Direction → List Char) (parameter : ParameterText) : List Char :=
  attributesText parameter.attributes ++ mark parameter.direction ++ parameter.first.text ++
    parameter.others.flatMap fun word => ' ' :: word.text

/-- The text of a method, with a mark for the direction of each parameter. -/
def MethodText.write (mark : Direction → List Char) (method : MethodText) : List Char :=
  method.name.text ++ '(' :: (method.parameters.write (ParameterText.write mark) ++ ");".toList)

/-- The mark of a direction in the dialect. -/
def Direction.mark : Direction → List Char
  | .incoming => "in ".toList
  | .outgoing => "out ".toList

/-! ## Lists of attributes -/

theorem isSpace_of_isAsciiWord {c : Char} (word : isAsciiWord c = true) : isSpace c = false := by
  have solid : Grammar.isSolid c = true :=
    Grammar.isSolid_of_nameChar (by simp_all [isAsciiWord, Grammar.isNameChar])
  simp_all [Grammar.isSolid]

theorem Word.head (word : Word) : ∃ c rest, word.text = c :: rest ∧ isAsciiWord c = true := by
  obtain ⟨c, rest, text⟩ := List.exists_cons_of_ne_nil word.nonempty
  exact ⟨c, rest, text, word.ascii c (by simp [text])⟩

/-- The text of an attribute is one run of word characters and parentheses. -/
theorem Entry.all_write (entry : Entry) : ∀ c ∈ entry.write, isWordOrParen c = true := by
  have letters (word : Word) : ∀ c ∈ word.text, isWordOrParen c = true := fun c member => by
    simp [isWordOrParen, isWord_of_isAsciiWord (word.ascii c member)]
  obtain ⟨name, argument⟩ := entry
  cases argument with
  | none => simpa [Entry.write] using letters name
  | some argument =>
    have parentheses : isWordOrParen '(' = true ∧ isWordOrParen ')' = true := by decide
    simpa [Entry.write, or_imp, forall_and, parentheses] using ⟨letters name, letters argument⟩

theorem attributePart_entry (entry : Entry) {s : List Char}
    (ends : ∀ c ∈ s.head?, isWordOrParen c = false) :
    attributePart (entry.write ++ s) = some ((), s) := by
  have nonempty : entry.write ≠ [] := by simp [Entry.write, entry.name.nonempty]
  rw [attributePart, orElse_apply, bind_apply, takeWhile1_run nonempty entry.all_write ends]
  rfl

theorem attributePart_comma (gap : Gap) {s : List Char} (ends : ∀ c ∈ s.head?, isSpace c = false) :
    attributePart (',' :: gap.text ++ s) = some ((), s) := by
  have comma : isWordOrParen ',' = false := by decide
  simp [attributePart, takeWhile1, comma, takeWhile_run gap.blank ends]

theorem Entry.solid (entry : Entry) (s : List Char) :
    ∀ c ∈ (entry.write ++ s).head?, isSpace c = false := by
  obtain ⟨c, rest, text, word⟩ := entry.name.head
  simp [Entry.write, text, isSpace_of_isAsciiWord word]

/-- The attributes of a row are read part by part, up to the bracket. -/
theorem rounds_entries (entries : Row Entry) (rest : List Char) :
    ∃ parts, Rounds attributePart (entries.write Entry.write ++ ']' :: rest) parts (']' :: rest) := by
  have bracket : isWordOrParen ']' = false := by decide
  have comma : isWordOrParen ',' = false := by decide
  obtain ⟨first, others⟩ := entries
  induction others generalizing first with
  | nil =>
    refine ⟨[()], .one ?_ ?_⟩
    · simpa [Row.write] using attributePart_entry first (s := ']' :: rest) (by simp [bracket])
    · have some := List.length_pos_of_ne_nil first.name.nonempty
      simp only [Row.write, Entry.write, List.flatMap_nil, List.append_nil, List.length_append,
        List.length_cons]
      omega
  | cons next others ih =>
    -- Two rounds for an attribute and the comma behind it, then those of the others.
    obtain ⟨parts, rounds⟩ := ih next.2
    have split : (Row.mk first (next :: others)).write Entry.write ++ ']' :: rest =
        first.write ++ (',' :: next.1.text ++ ((Row.mk next.2 others).write Entry.write ++
          ']' :: rest)) := by
      simp [Row.write]
    have solid : ∀ c ∈ ((Row.mk next.2 others).write Entry.write ++ ']' :: rest).head?,
        isSpace c = false := by
      rw [Row.write, List.append_assoc]
      exact next.2.solid _
    have some := List.length_pos_of_ne_nil first.name.nonempty
    rw [split]
    refine ⟨() :: () :: parts, .round (attributePart_entry first (by simp [comma])) ?_
      (.round (attributePart_comma next.1 solid) ?_ rounds)⟩
    · simp only [Entry.write, List.length_append]
      omega
    · simp only [List.cons_append, List.length_cons, List.length_append]
      omega

/-- A list of attributes is read to its end, with the blank behind it. -/
theorem attributeList_inner (attributes : Attributes) (rest : List Char) :
    attributeList ('[' :: (attributes.inner ++ "] ".toList) ++ rest) = some ((), rest) := by
  obtain ⟨parts, rounds⟩ : ∃ parts, Rounds attributePart
      (attributes.inner ++ ']' :: ' ' :: rest) parts (']' :: ' ' :: rest) := by
    obtain ⟨_ | entries⟩ := attributes
    · exact ⟨[], .done⟩
    · exact rounds_entries entries (' ' :: rest)
  have bracket : isWordOrParen ']' = false := by decide
  have ended : attributePart (']' :: ' ' :: rest) = none := by
    simp [attributePart, takeWhile1, bracket]
  have text : '[' :: (attributes.inner ++ "] ".toList) ++ rest =
      '[' :: (attributes.inner ++ ']' :: ' ' :: rest) := by
    simp
  rw [text, attributeList]
  simp [many_of_rounds rounds ended]

/-! ## Directions -/

theorem Direction.mark_head (direction : Direction) (rest : List Char) :
    ∃ c s, direction.mark ++ rest = c :: s ∧ isSpace c = false ∧ c ≠ '[' := by
  cases direction with
  | incoming => exact ⟨'i', _, rfl, by decide, by decide⟩
  | outgoing => exact ⟨'o', _, rfl, by decide, by decide⟩

/-- Attributes are passed over before a direction, whether there are any or not. -/
theorem present_attributes (attributes : Option Attributes) (direction : Direction)
    (rest : List Char) :
    ∃ found, present attributeList (attributesText attributes ++ (direction.mark ++ rest)) =
      some (found, direction.mark ++ rest) := by
  cases attributes with
  | none =>
    obtain ⟨c, s, text, -, other⟩ := direction.mark_head rest
    have missing : attributeList (c :: s) = none := by simp [attributeList, other.symm]
    exact ⟨false, by simp [attributesText, text, missing]⟩
  | some list =>
    refine ⟨true, ?_⟩
    rw [attributesText, Option.elim_some, present_apply, attributeList_inner]
    rfl

/-- The start of a parameter with its direction is one find, which keeps all but the direction. -/
theorem direction_reads {start : List Char} (attributes : Option Attributes) (way : Direction)
    (opens : ∀ s, (∀ c ∈ s.head?, isSpace c = false) →
      parameterStart (start ++ s) = some ((), s)) (rest : List Char) :
    direction (start ++ attributesText attributes ++ way.mark ++ rest) =
      some (start ++ attributesText attributes, rest) := by
  obtain ⟨found, listed⟩ := present_attributes attributes way rest
  have solid : ∀ c ∈ (attributesText attributes ++ (way.mark ++ rest)).head?,
      isSpace c = false := by
    cases attributes with
    | none =>
      obtain ⟨c, s, text, blank, -⟩ := way.mark_head rest
      simp [attributesText, text, blank]
    | some list => simp [attributesText]
  -- What is kept of a find is the text up to the direction.
  have before : (do parameterStart; let _ ← present attributeList : Parser Unit)
      ((start ++ attributesText attributes) ++ (way.mark ++ rest)) =
        some ((), way.mark ++ rest) := by
    rw [List.append_assoc, bind_apply, opens _ solid, Option.bind_some, bind_apply, listed]
    rfl
  rw [List.append_assoc _ way.mark, direction, bind_apply, withText_append before]
  cases way <;> simp [Direction.mark]

theorem Word.turns (word : Word) : Turns (fun _ => direction) word.text word.text := by
  refine spares_direction.turns (List.all_eq_true.mpr fun c member => ?_)
  have letter := word.ascii c member
  simp [ne_of_isAsciiWord letter (show isAsciiWord '(' = false by decide),
    ne_of_isAsciiWord letter (show isAsciiWord ',' = false by decide)]

/-- A parameter, with what stands before it, loses its direction. -/
theorem turns_parameter (parameter : ParameterText) {start : List Char} (nonempty : start ≠ [])
    (opens : ∀ s, (∀ c ∈ s.head?, isSpace c = false) →
      parameterStart (start ++ s) = some ((), s)) :
    Turns (fun _ => direction) (start ++ parameter.write Direction.mark)
      (start ++ parameter.write fun _ => []) := by
  have found : Turns (fun _ => direction)
      (start ++ attributesText parameter.attributes ++ parameter.direction.mark)
      (start ++ attributesText parameter.attributes) :=
    turns_found (by simp [nonempty]) fun _ rest =>
      direction_reads parameter.attributes parameter.direction opens rest
  have blank : Turns (fun _ => direction) [' '] [' '] := spares_direction.turns (by decide)
  have words := Turns.flatMap fun word (_ : word ∈ parameter.others) => blank.append word.turns
  simpa [ParameterText.write] using (found.append parameter.first.turns).append words

/-- The directions of a method are left out, with the blank behind each of them, and everything else
    stays as it is. -/
theorem dropDirections_method (method : MethodText) :
    dropDirections (method.write Direction.mark) = method.write fun _ => [] := by
  obtain ⟨name, first, others⟩ := method
  have opened : Turns (fun _ => direction) (['('] ++ first.write Direction.mark)
      (['('] ++ first.write fun _ => []) :=
    turns_parameter first (by simp) fun s _ => by simp [parameterStart]
  have more : ∀ next ∈ others, Turns (fun _ => direction)
      (',' :: next.1.text ++ next.2.write Direction.mark)
      (',' :: next.1.text ++ next.2.write fun _ => []) := by
    intro next _
    refine turns_parameter next.2 (by simp) fun s solid => ?_
    simp [parameterStart, takeWhile_run next.1.blank solid]
  have closes : Turns (fun _ => direction) ");".toList ");".toList :=
    spares_direction.turns (by decide)
  have whole := ((name.turns.append opened).append (Turns.flatMap more)).append closes
  simpa [dropDirections, MethodText.write, Row.write] using whole.replaceAll

def Word.ofString (text : String)
    (letters : text.toList ≠ [] ∧ text.toList.all isAsciiWord = true) : Word :=
  ⟨text.toList, letters.1, by simpa using letters.2⟩

/-- A method whose second parameter has attributes, one of them with an argument. -/
def attributedMethod : MethodText where
  name := .ofString "get" (by decide)
  parameters :=
    { first := ⟨none, .incoming, .ofString "in" (by decide), [.ofString "aKey" (by decide)]⟩
      others :=
        [(⟨['\n', ' '], by simp [isSpace]⟩,
          { attributes := some ⟨some
              { first := ⟨.ofString "iid_is" (by decide), some (.ofString "in" (by decide))⟩
                others := [(⟨[], by simp⟩, ⟨.ofString "retval" (by decide), none⟩)] }⟩
            direction := .outgoing
            first := .ofString "nsQIResult" (by decide)
            others := [.ofString "out" (by decide)] })] }

example : attributedMethod.write Direction.mark =
    "get(in in aKey,\n [iid_is(in),retval] out nsQIResult out);".toList := by
  decide

example : dropDirections (attributedMethod.write Direction.mark) =
    "get(in aKey,\n [iid_is(in),retval] nsQIResult out);".toList := by
  decide +kernel

end IdlTypings.Dialect.Gecko
