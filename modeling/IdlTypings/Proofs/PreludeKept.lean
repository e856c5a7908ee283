import Mathlib
import IdlTypings.Proofs.BorderGrammar
import IdlTypings.Proofs.ComponentReading

/-! # The prelude after any text

A text in the component dialect is read with the prelude on a new line behind it.  Whatever the text
is, and wherever in a statement, a comment or a string it ends, the document either fails or ends
with the definitions of the prelude: `readDocument_keepsPrelude`.

* `definition_border`: a statement that begins before the border ends before it too, or it is an
  attribute list before the border and the first statement of the prelude, which drops its
  attributes.
* `rounds_border`: so the rounds of statements come to the border, and behind it they are those of
  the prelude alone.
-/

namespace IdlTypings.Grammar

open IdlTypings.Parser

variable {tail : Tail} {s t : List Char} {n : Nat}

/-! ## Statements at the border -/

theorem definition_border {x : Annotated DefinitionForm} (stands : tail.At 0 s)
    (reads : definition (nested n) s = some (x, t)) :
    (∃ j ≤ 1, tail.At j t) ∨ definitionForm (nested n) (tail.left 0) = some (x.form, t) := by
  have borders := tail.borders_nested n
  rw [definition, annotated, bind_apply, Option.bind_eq_some_iff] at reads
  obtain ⟨⟨attributes, u⟩, readsAttributes, readsForm⟩ := reads
  rw [bind_apply, Option.bind_eq_some_iff] at readsForm
  obtain ⟨⟨form, t'⟩, readsForm, same⟩ := readsForm
  cases same
  obtain ⟨j, stands', -, few⟩ := Tail.takes_optional borders.attributes (Nat.le_refl 1)
    (Nat.zero_le 1) stands readsAttributes
  -- Where the attributes take all before the border, the form is the first one of the tail.
  cases stands' with
  | before stands' =>
    exact .inl (Tail.seals_definitionForm borders (Nat.le_refl 0) (.before stands') readsForm).2
  | @within _ k _ stands' =>
    obtain rfl : k = 0 := by omega
    rw [← ignoresBlanks_definitionForm, stands'] at readsForm
    exact .inr readsForm

theorem definition_left (tail : Tail) (n : Nat) :
    definition (nested (n + 1)) (tail.left 0) =
      (definitionForm (nested (n + 1)) (tail.left 0)).map fun found => (⟨none, found.1⟩, found.2) := by
  rw [Tail.left]
  exact definition_word (nested n) (by decide) _

/-- The rounds of a parser that fails at the end are the only ones. -/
theorem rounds_unique {α : Type} {p : Parser α} (fails : p [] = none) {xs ys : List α}
    (first : Rounds p s xs []) (second : Rounds p s ys []) : xs = ys := by
  have same := (many_of_rounds first fails).symm.trans (many_of_rounds second fails)
  simpa using same

/-- A name for a type drops its attributes. -/
theorem lower_typedef {x y : Annotated DefinitionForm} (sameForm : x.form = y.form)
    {name : String} {type : Idl.IdlType} (names : DefinitionForm.lower y = .typedef name type) :
    DefinitionForm.lower x = DefinitionForm.lower y := by
  obtain ⟨attributes, form⟩ := x
  obtain ⟨attributes', form'⟩ := y
  subst sameForm
  cases form with
  | typedef _ _ => rfl
  | _ => simp [DefinitionForm.lower] at names

theorem Tail.At.length_le {i : Nat} (few : i ≤ 1) (stands : tail.At i s) :
    (tail.left 0).length ≤ s.length := by
  have shorter := length_skipBlanks s
  cases stands with
  | before stands =>
    rw [stands] at shorter
    simp only [List.cons_append, List.length_cons, List.length_append] at shorter
    omega
  | @within _ k _ stands =>
    obtain rfl : k = 0 := by omega
    rwa [stands] at shorter

/-- Behind the border the rounds of statements are those of the tail alone. -/
theorem rounds_border {kept forms : List (Annotated DefinitionForm)} {d : Annotated DefinitionForm}
    {name : String} {type : Idl.IdlType} (names : DefinitionForm.lower d = .typedef name type)
    (alone : Rounds (definition (nested (n + 1))) (tail.left 0) (d :: kept) [])
    (rounds : Rounds (definition (nested (n + 1))) s forms []) {i : Nat} (few : i ≤ 1)
    (stands : tail.At i s) :
    ∃ own, forms.map DefinitionForm.lower = own ++ (d :: kept).map DefinitionForm.lower := by
  cases alone with
  | @round _ after _ _ _ readsFirst _ others =>
  generalize ends : ([] : List Char) = u at rounds
  -- Every round starts before the border or in the blanks at it, until one reads the first statement
  -- of the tail; from there on the rounds are the same.
  induction rounds generalizing i with
  | @done s =>
    subst ends
    have short := stands.length_le few
    obtain ⟨c, -, rest, text⟩ := tail.left_cons 0
    simp [text] at short
  | @round s t u x xs reads _ rest ih =>
    subst ends
    cases stands with
    | before stands =>
      rcases definition_border (.before stands) reads with ⟨j, le, stands'⟩ | form
      · obtain ⟨own, lowered⟩ := ih le stands' rfl
        exact ⟨DefinitionForm.lower x :: own, by rw [List.map_cons, lowered, List.cons_append]⟩
      · -- The attributes before the border are those of the first statement behind it.
        rw [definition_left, form] at readsFirst
        obtain ⟨rfl, rfl⟩ : ⟨none, x.form⟩ = d ∧ t = after := by simpa using readsFirst
        have sameMeaning : DefinitionForm.lower x = DefinitionForm.lower ⟨none, x.form⟩ :=
          lower_typedef rfl names
        refine ⟨[], ?_⟩
        rw [rounds_unique (definition_nil n) rest others, List.map_cons, sameMeaning]
        rfl
    | @within _ k _ stands =>
      obtain rfl : k = 0 := by omega
      have same : definition (nested (n + 1)) (skipBlanks s) = some (x, t) :=
        (ignoresBlanks_definition (nested n) s).trans reads
      rw [stands, readsFirst] at same
      cases same
      refine ⟨[], ?_⟩
      rw [rounds_unique (definition_nil n) rest others, List.nil_append]

/-! ## Documents at the border -/

section

variable (ends : ∀ c ∈ (tail.left 0).getLast?, Text.isSpace c = false)

include ends

theorem trim_left : Text.trim (tail.left 0 ++ ['\n']) = tail.left 0 := by
  have solid : ['t', 's', 'A', ';'].all (!Text.isSpace ·) = true := by decide
  obtain ⟨c, first, rest, text⟩ := tail.left_cons 0
  rw [← List.nil_append (tail.left 0 ++ _)]
  refine trim_around (List.forall_mem_nil _) (by simp [isSpace_newLine]) ?_ ends
  rw [text]
  simpa using List.all_eq_true.mp solid c first

theorem trim_before_left {before own : List Char} (leading : ∀ c ∈ before, Text.isSpace c = true)
    (first : ∀ c ∈ own.head?, Text.isSpace c = false) (nonempty : own ≠ []) :
    Text.trim (before ++ (own ++ '\n' :: (tail.left 0 ++ ['\n']))) = own ++ '\n' :: tail.left 0 := by
  obtain ⟨c, -, rest, text⟩ := tail.left_cons 0
  have regroup : own ++ '\n' :: (tail.left 0 ++ ['\n']) = (own ++ '\n' :: tail.left 0) ++ ['\n'] := by
    simp
  rw [regroup]
  refine trim_around leading (by simp [isSpace_newLine]) ?_ ?_
  · rwa [List.head?_append_of_ne_nil _ nonempty]
  · rw [List.getLast?_append_of_ne_nil _ (by simp), text, List.getLast?_cons_cons, ← text]
    exact ends

theorem trim_border (own : List Char) :
    ∃ i ≤ 1, tail.At i (Text.trim (own ++ '\n' :: (tail.left 0 ++ ['\n']))) := by
  by_cases empty : Text.trim own = []
  · rw [trim_after_spaces empty, trim_left ends]
    exact ⟨1, Nat.le_refl 1, .within (Nat.zero_le 3) (tail.skipBlanks_left 0)⟩
  · obtain ⟨before, after, parts, leading, -, first, -⟩ := trim_parts own
    have regroup : own ++ '\n' :: (tail.left 0 ++ ['\n']) =
        before ++ ((Text.trim own ++ after) ++ '\n' :: (tail.left 0 ++ ['\n'])) := by
      conv_lhs => rw [parts]
      simp
    rw [regroup, trim_before_left ends leading (by rwa [List.head?_append_of_ne_nil _ empty])
      (by simp [empty])]
    exact tail.at_border _

/-- The rounds of a tail that is read are its rounds at every deeper level. -/
theorem rounds_left {forms : List (Annotated DefinitionForm)}
    (parsed : parse (tail.left 0 ++ ['\n']) = .ok forms) (deep : (tail.left 0).length ≤ n) :
    Rounds (definition (nested (n + 1))) (tail.left 0) forms [] := by
  rw [parse_eq_ok_iff, trim_left ends] at parsed
  have nonempty : tail.left 0 ≠ [] := by simp [tail.left_zero]
  have rounds := rounds_before (Nat.succ_le_succ deep) (Nat.lt_succ_self _) parsed nonempty []
  rwa [List.append_nil] at rounds

/-- A document that a tail ends is read with the definitions of the tail at its end. -/
theorem read_border {kept ds : List Idl.Definition} {name : String} {type : Idl.IdlType}
    (alone : read (tail.left 0 ++ ['\n']) = .ok (.typedef name type :: kept)) (own : List Char)
    (reads : read (own ++ '\n' :: (tail.left 0 ++ ['\n'])) = .ok ds) :
    ∃ mine, ds = mine ++ .typedef name type :: kept := by
  obtain ⟨forms, parsed, rfl⟩ := read_eq_ok_iff.mp reads
  obtain ⟨keptForms, parsedAlone, lowered⟩ := read_eq_ok_iff.mp alone
  obtain ⟨d, others, rfl⟩ : ∃ d others, keptForms = d :: others := by
    cases keptForms with
    | nil => simp at lowered
    | cons d others => exact ⟨d, others, rfl⟩
  obtain ⟨i, few, stands⟩ := trim_border ends own
  rw [parse_eq_ok_iff] at parsed
  -- The document is longer than its tail, and its levels read the tail as fewer do.
  have keeps := rounds_left ends parsedAlone (stands.length_le few)
  have names : DefinitionForm.lower d = .typedef name type := (List.cons.inj lowered).1
  obtain ⟨mine, same⟩ := rounds_border names keeps parsed few stands
  exact ⟨mine, by rw [same, lowered]⟩

end

end IdlTypings.Grammar

namespace IdlTypings.Dialect.Gecko

open Grammar IdlTypings.Parser

/-! ## The prelude -/

/-- The prelude behind its first statement, without the line feed at its end. -/
def preludeTail : Tail where
  rest := (prelude.toList.drop 23).dropLast
  plain := by
    have chars : ((prelude.toList.drop 23).dropLast.all fun c => c != '\"' && c != '*') = true := by
      unfold prelude
      simp only [String.toList_append]
      repeat rw [String.toList_ofList]
      decide +kernel
    intro c member
    simpa using List.all_eq_true.mp chars c member

theorem prelude_tail : prelude.toList = preludeTail.left 0 ++ ['\n'] := by
  unfold preludeTail prelude
  simp only [String.toList_append, Tail.left]
  repeat rw [String.toList_ofList]
  decide +kernel

theorem read_prelude : read prelude.toList = .ok (preludeTypes ++ [.interface preludeInterface]) := by
  obtain ⟨-, forms, parsed, lowered⟩ := parse_prelude
  exact read_eq_ok_iff.mpr ⟨forms, parsed, lowered⟩

theorem isSpace_prelude_end : ∀ c ∈ (preludeTail.left 0).getLast?, Text.isSpace c = false := by
  have last : (preludeTail.left 0).getLast? = some ';' := by
    unfold preludeTail prelude
    simp only [String.toList_append, Tail.left]
    repeat rw [String.toList_ofList]
    decide +kernel
  rw [last]
  rintro _ ⟨⟩
  decide

/-- Behind its first statement the prelude is read as the rest of its definitions. -/
theorem rounds_preludeRest {n : Nat} (deep : (preludeTail.left 0).length ≤ n) :
    ∃ kept, Rounds (definition (nested (n + 1))) (skipBlanks preludeTail.rest) kept [] ∧
      renamed "AString" "string" :: kept.map DefinitionForm.lower =
        preludeTypes ++ [.interface preludeInterface] := by
  have first : read "typedef string AString;".toList = .ok [renamed "AString" "string"] := by cbv
  obtain ⟨-, forms, parsed, lowered⟩ := parse_prelude
  rw [prelude_tail] at parsed
  have rounds := rounds_left isSpace_prelude_end parsed deep
  have short : "typedef string AString;".toList.length < n + 1 := by
    rw [preludeTail.left_zero, List.length_append] at deep
    omega
  obtain ⟨form, reads, isMeaning⟩ := definition_of_read first (by decide) short preludeTail.rest
  rw [← preludeTail.left_zero] at reads
  -- The first definition of the prelude is the one of its first statement.
  cases forms with
  | nil => simp [preludeTypes] at lowered
  | cons d kept =>
    cases rounds with
    | round reads' _ others =>
      rw [reads] at reads'
      cases reads'
      exact ⟨kept, others, by rw [← lowered, List.map_cons, isMeaning]⟩

/-- What the edits of all the dialects make of a text, before the prelude is added. -/
def edited (options : Options) (text : List Char) : List Char :=
  let text := if options.emscripten then
    Emscripten.freezeArrays (Emscripten.inheritImplemented text) else text
  sequenceArrays (dropAttributes (dropDirections
    (dropUuids (nameForwardDeclarations (dropDirectives text)))))

theorem mend_edited {options : Options} (gecko : options.gecko = true) (text : List Char) :
    Dialect.mend options text = edited options text ++ '\n' :: prelude.toList := by
  rw [Dialect.mend, if_pos gecko]
  rfl

theorem edited_nil (options : Options) : edited options [] = [] := by
  rw [edited]
  cases options.emscripten <;> decide

end IdlTypings.Dialect.Gecko

namespace IdlTypings

open Dialect.Gecko

/-- Nothing that stands before the prelude swallows it or changes it: a document that is read at all
    ends with the seven definitions of the prelude, which are all that an empty text gives. -/
theorem readDocument_keepsPrelude {options : Options} (gecko : options.gecko = true) :
    readDocument options [] = .ok (preludeTypes ++ [.interface preludeInterface]) ∧
      ∀ {text : List Char} {ds : List Idl.Definition}, readDocument options text = .ok ds →
        ∃ own, ds = own ++ (preludeTypes ++ [.interface preludeInterface]) := by
  constructor
  · have trimmed : Text.trim ([] ++ '\n' :: prelude.toList) = Text.trim prelude.toList :=
      Grammar.trim_after_spaces rfl
    rw [readDocument, mend_edited gecko, edited_nil, ← read_prelude, Grammar.read, Grammar.read,
      Grammar.parse, trimmed, Grammar.parse]
  · intro text ds reads
    rw [readDocument, mend_edited gecko, prelude_tail] at reads
    refine Grammar.read_border isSpace_prelude_end ?_ (edited options text) reads
    rw [← prelude_tail]
    exact read_prelude

/-- A list of attributes without its statement, and a comment that is not closed. -/
def openText : List Char :=
  "[A, B] //".toList

/-- The list belongs to the first statement of the prelude, and the comment ends before it. -/
theorem readDocument_openText : readDocument { gecko := true } openText =
    .ok (preludeTypes ++ [.interface preludeInterface]) := by
  have edits : edited { gecko := true } openText = openText := by decide +kernel
  have first : Grammar.read (openText ++ '\n' :: "typedef string AString;".toList) =
      .ok [renamed "AString" "string"] := by
    cbv
  have starts : ∀ c ∈ openText.head?, Text.isSpace c = false := by
    rintro _ ⟨⟩
    decide
  have trimmed : Text.trim ([] ++ (openText ++ '\n' :: (preludeTail.left 0 ++ ['\n']))) =
      openText ++ '\n' :: preludeTail.left 0 :=
    Grammar.trim_before_left isSpace_prelude_end (List.forall_mem_nil _) starts (by decide)
  have parts : openText ++ '\n' :: preludeTail.left 0 =
      (openText ++ '\n' :: "typedef string AString;".toList) ++ preludeTail.rest := by
    rw [preludeTail.left_zero, List.append_assoc, List.cons_append]
  rw [List.nil_append] at trimmed
  rw [readDocument, mend_edited rfl, edits, prelude_tail, Grammar.read_eq_ok_iff]
  generalize size : (openText ++ '\n' :: preludeTail.left 0).length = n
  have deep : (preludeTail.left 0).length ≤ n := by
    rw [← size, List.length_append, List.length_cons]
    omega
  have short : (openText ++ '\n' :: "typedef string AString;".toList).length < n + 1 := by
    simp only [← size, parts, List.length_append]
    omega
  obtain ⟨kept, others, isMeaning⟩ := rounds_preludeRest deep
  obtain ⟨form, reads, isFirst⟩ :=
    Grammar.definition_of_read first (by decide) short preludeTail.rest
  refine ⟨form :: kept, ?_, by rw [List.map_cons, isFirst, isMeaning]⟩
  rw [Grammar.parse_eq_ok_iff, trimmed, size, parts]
  refine .round reads ?_ others
  exact Grammar.definition_shortens (by rw [← parts, size]; omega) reads

theorem readDocument_keepsPrelude_openText :
    readDocument { gecko := true } openText =
        .ok (preludeTypes ++ [.interface preludeInterface]) ∧
      ∃ own, preludeTypes ++ [.interface preludeInterface] =
        own ++ (preludeTypes ++ [.interface preludeInterface]) :=
  ⟨readDocument_openText,
    (readDocument_keepsPrelude (show ({ gecko := true } : Options).gecko = true from rfl)).2
      readDocument_openText⟩

end IdlTypings
