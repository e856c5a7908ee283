import Mathlib
import IdlTypings.Typings.Basic
import IdlTypings.Proofs.CommentLines
import IdlTypings.Proofs.ComponentReading

/-! # Arrays in arrays

Gecko's arrays become sequences in one pass, and an array is found only where a word alone stands
between its brackets.  So of arrays inside one another the innermost becomes a sequence and the others
stay as they are: `mend_named`.

WebIDL has no type `Array` with a bracket after it.  So a name for an array is read as one for a
sequence where the array is not inside another one, and the whole document is refused otherwise:
`readDocument_nestedArray`.
-/

namespace IdlTypings.Text

/-- Only the end is trimmed behind a text that begins and ends without white space. -/
theorem trim_append {s : List Char} (nonempty : s ≠ []) (first : ∀ c ∈ s.head?, isSpace c = false)
    (last : ∀ c ∈ s.getLast?, isSpace c = false) (t : List Char) : trim (s ++ t) = s ++ trimEnd t := by
  have start : trimStart (s ++ t) = s ++ t := by
    obtain ⟨c, s, rfl⟩ := List.exists_cons_of_ne_nil nonempty
    rw [trimStart, List.cons_append, List.dropWhile_cons_of_neg (by simp [first c rfl])]
  have kept : s.reverse.dropWhile isSpace = s.reverse := by
    rw [← List.head?_reverse] at last
    cases chars : s.reverse with
    | nil => rfl
    | cons c others => rw [List.dropWhile_cons_of_neg (by simp [last c (by rw [chars]; rfl)])]
  rw [trim, start, trimEnd, trimEnd, List.reverse_append, List.dropWhile_append]
  -- Where nothing is left of `t`, trimming stops at the last character of `s`.
  split_ifs with empty
  · rw [kept, List.isEmpty_iff.mp empty]
    simp
  · simp

end IdlTypings.Text

namespace IdlTypings.Grammar

open IdlTypings.Parser

variable {layout : Layout} {ts : List Token}

/-- Nothing is named where the type ends at a bracket. -/
theorem definition_openAngle (layout : Layout) {word : String} (isIdentifier : IsIdentifier word)
    (notImplements : word ≠ "implements") (n : Nat) (ts : List Token) :
    definition (nested (n + 1)) (spell layout (.word "typedef" :: .word word :: .mark .openAngle :: ts)) =
      none := by
  have isWord := isIdentifier.word
  obtain ⟨form, read, -⟩ := nonAnyType_word layout (nested n) isWord isIdentifier.plain
    (opens_mark .openAngle ts)
  have notAny : keyword "any" (spell layout (.word word :: .mark .openAngle :: ts)) = none :=
    keyword_other (by simp) isWord (isIdentifier.ne (by decide))
  have notIncludes : keyword "includes" (spell layout (.word word :: .mark .openAngle :: ts)) = none :=
    keyword_other (by simp) isWord (isIdentifier.ne (by decide))
  have noStatement : keyword "implements" (spell layout (.word word :: .mark .openAngle :: ts)) = none :=
    keyword_other (by decide) isWord notImplements
  have bare (ts : List Token) {first : String} (known : Grammar.isWord first = true) :
      (nested (n + 1)).attributes (spell layout (.word first :: ts)) = none :=
    attributes_none (by simp [known]) (n + 1)
  -- The word alone is read as the type, and behind it a name is missing.
  have type : (nested (n + 1)).type (spell layout (.word word :: .mark .openAngle :: ts)) =
      some (.single form, spell layout (.mark .openAngle :: ts)) := by
    simp [nested, Nested.step, typeForm, notAny, read]
  have noForm : definitionForm (nested (n + 1)) (spell layout (.word "typedef" :: .word word ::
      .mark .openAngle :: ts)) = none := by
    rw [definitionForm_bodiless _ (keyword_bodyWords (by simp) (by decide))]
    simp [firstOf_cons_apply, firstOf_nil_apply, enumerationForm, typedefForm, includesForm,
      implementsForm, closed, attributedType, keyword_word, isWord, bare, type, notIncludes,
      noStatement]
  simp [definition, annotated, bare, noForm]

end IdlTypings.Grammar

namespace IdlTypings.Dialect.Gecko

open IdlTypings.Parser IdlTypings.Text
open IdlTypings.Grammar (spell)

/-! ## The text -/

/-- A type between the angle brackets of a word, so many times. -/
def enclosed (word : String) : Nat → String → String
  | 0, type => type
  | n + 1, type => word ++ "<" ++ enclosed word n type ++ ">"

/-- A statement that gives a type a name. -/
def named (type : String) (name : Name) : String :=
  "typedef " ++ type ++ (" " ++ name.text ++ ";")

variable {kind : Char → Bool}

theorem all_enclosed {word type : String} (words : word.toList.all kind = true)
    (angles : kind '<' = true ∧ kind '>' = true) (inside : type.toList.all kind = true) (n : Nat) :
    (enclosed word n type).toList.all kind = true := by
  induction n with
  | zero => exact inside
  | succ n ih => simp [enclosed, words, angles, ih]

/-! ## Mending -/

/-- No name for a type in brackets has a forward declaration in it. -/
theorem nameForwardDeclarations_named {type : String} (noBlank : ' ' ∉ type.toList) (name : Name) :
    nameForwardDeclarations (named (type ++ ">") name).toList = (named (type ++ ">") name).toList := by
  refine replaceAll_of_missing (t := ['e', ' ']) (fun found => ?_) (Clear.absent ?_ (by simp))
  · simp only [forwardDeclaration, bind_apply, Option.bind_eq_some_iff] at found
    obtain ⟨⟨_, rest⟩, word, -⟩ := found
    rw [eq_append_of_exactly word]
    exact ⟨"interfac".toList, rest, by simp⟩
  · -- A blank stands behind `typedef` and behind the bracket, and nowhere else.
    have blank : Clear ['e', ' '] [' '] := clear_of_missing (by simp)
    have lead : Clear ['e', ' '] ("typede".toList ++ ['f']) := clear_of_stop (by simp) (by decide)
    have bracket : Clear ['e', ' '] (type.toList ++ ['>']) :=
      clear_of_stop (by simp) fun inside => noBlank (inside.subset (by simp))
    have words : Clear ['e', ' '] (name.text.toList ++ [';']) := by
      refine clear_of_stop (by simp) fun inside => ?_
      have lacks : name.text.toList.all (' ' != ·) = true := name.lacks (by decide)
      have other := List.all_eq_true.mp lacks ' ' (inside.subset (by simp))
      simp at other
    simpa [named] using (lead.append blank).append (bracket.append (blank.append words))

/-- An array of arrays is not found itself. -/
theorem array_unfound (before : Option Char) (after : List Char) :
    array before ("Array<".toList ++ ("Array".toList ++ '<' :: after)) = none := by
  have run : takeWhile isWord ("Array".toList ++ '<' :: after) =
      some ("Array".toList, '<' :: after) :=
    takeWhile_run (List.all_eq_true.mp (by decide)) (by simp [show isWord '<' = false by decide])
  rw [array]
  split_ifs
  · rfl
  · simp only [bind_apply, pure_apply, exactly_append, run, Option.bind_some, -String.reduceToList]
    rfl

/-- Only the innermost of some arrays behind a mark becomes a sequence. -/
theorem array_enclosed (element : Name) (depth : Nat) {lead : String} {d : Char}
    (last : lead.toList.getLast? = some d) (mark : isWord d = false)
    (kept : Rewrites array lead lead) :
    Rewrites array (lead ++ enclosed "Array" (depth + 1) element.text)
      (lead ++ enclosed "Array" depth (enclosed "sequence" 1 element.text)) := by
  induction depth generalizing lead d with
  | zero => exact array_found last mark kept element
  | succ depth ih =>
    -- The outer array is passed over at its first letter; the rest of the word leads to the next one.
    have opening : Rewrites array "rray<" "rray<" := .kept spares_array (by decide)
    have inner := ih (d := '<') (by decide) (by decide) opening
    have unfound (before : Option Char) (rest : List Char) : array before ('A' ::
        (("rray<" ++ enclosed "Array" (depth + 1) element.text).toList ++ rest)) = none := by
      have inside := array_unfound before
        ((enclosed "Array" depth element.text).toList ++ '>' :: rest)
      simpa [enclosed] using inside
    have closing : Rewrites array ">" ">" := .kept spares_array (by decide)
    have text (type : String) : (lead ++ ("Array" ++ "<" ++ type ++ ">")).toList =
        lead.toList ++ 'A' :: ("rray<" ++ type).toList ++ ">".toList := by
      simp
    have whole := (Turns.append kept (turns_kept unfound inner)).append closing
    rwa [← text, ← text] at whole

theorem sequenceArrays_named (element name : Name) (depth : Nat) :
    sequenceArrays (named (enclosed "Array" (depth + 1) element.text) name).toList =
      (named (enclosed "Array" depth (enclosed "sequence" 1 element.text)) name).toList := by
  have lead : Rewrites array "typedef " "typedef " := .kept spares_array (by decide)
  have last : Rewrites array (" " ++ name.text ++ ";") (" " ++ name.text ++ ";") := by
    refine .stopped array_reaches ?_ (by decide)
    have lacks : name.text.toList.all ('<' != ·) = true := name.lacks (by decide)
    simp only [String.toList_append, List.all_append, lacks]
    decide
  exact ((array_enclosed element depth (d := ' ') (by decide) (by decide) lead).append last).replaceAll

/-- A name for arrays in one another: the innermost of them becomes a sequence. -/
theorem mend_named (element name : Name) (depth : Nat) :
    mend (named (enclosed "Array" (depth + 1) element.text) name).toList =
      (named (enclosed "Array" depth (enclosed "sequence" 1 element.text)) name).toList ++
        '\n' :: prelude.toList := by
  have word (name : Name) : name.text.toList.all isInert = true := name.all isInert_of_isAsciiWord
  have inert : (named (enclosed "Array" (depth + 1) element.text) name).toList.all isInert = true := by
    have arrays := all_enclosed (show "Array".toList.all isInert = true by decide) (by decide)
      (word element)
    simp only [named, String.toList_append, List.all_append, word, arrays]
    decide
  -- None of the other edits finds anything where all characters are inert.
  have kept {find : Option Char → Parser (List Char)} {kind : Char → Bool} (spares : Spares find kind)
      (inside : ∀ c, isInert c = true → kind c = true) :
      replaceAll find (named (enclosed "Array" (depth + 1) element.text) name).toList =
        (named (enclosed "Array" (depth + 1) element.text) name).toList := by
    refine (spares.turns ?_).replaceAll
    rw [List.all_eq_true] at inert ⊢
    exact fun c member => inside c (inert c member)
  have noBlank : ' ' ∉ ("Array<" ++ enclosed "Array" depth element.text).toList := by
    intro member
    have other : ("Array<" ++ enclosed "Array" depth element.text).toList.all (' ' != ·) = true := by
      rw [String.toList_append, List.all_append, all_enclosed (by decide) (by decide)
        (element.lacks (by decide))]
      decide
    simpa using List.all_eq_true.mp other _ member
  have forward : nameForwardDeclarations (named (enclosed "Array" (depth + 1) element.text)
      name).toList = (named (enclosed "Array" (depth + 1) element.text) name).toList :=
    nameForwardDeclarations_named noBlank name
  simp only [mend, dropDirectives, dropUuids, dropDirections, dropAttributes,
    kept spares_directive (by simp +contextual [isInert]),
    kept spares_codeBlock (by simp +contextual [isInert]), forward,
    kept spares_uuidAttribute (by simp +contextual [isInert]),
    kept spares_direction (by simp +contextual [isInert]),
    kept spares_optionalAttribute (by simp +contextual [isInert]),
    kept spares_leadingAttributes (by simp +contextual [isInert]),
    kept spares_bareAttribute (by simp +contextual [isInert]), sequenceArrays_named]

/-! ## Reading -/

/-- A name for a sequence is read. -/
theorem read_namedSequence (element name : Name) :
    Grammar.read ((named (enclosed "sequence" 1 element.text) name).toList ++ '\n' :: prelude.toList) =
      .ok (.typedef name.text (.generic "sequence" [.named element.text]) ::
        (preludeTypes ++ [.interface preludeInterface])) := by
  have writable : Grammar.WritableDefinition
      (.typedef name.text (.generic "sequence" [.named element.text])) :=
    ⟨name.isIdentifier, .sequence (.identifier element.isIdentifier)⟩
  have word : Grammar.nameTokens lineLayout element.text = [.word element.text] :=
    Grammar.nameTokens_word element.isIdentifier.word element.ne_void
  have last (m : Grammar.Mark) : spell lineLayout [.mark m] = [m.char] := rfl
  have lines : (named (enclosed "sequence" 1 element.text) name).toList =
      [] ++ (spell lineLayout (Grammar.documentTokens lineLayout
        [.typedef name.text (.generic "sequence" [.named element.text])]) ++ []) := by
    simp [named, enclosed, Grammar.documentTokens, Grammar.definitionTokens, Grammar.typeTokens,
      Grammar.typesTokens, Grammar.moreTypesTokens, word, spell_mark, last, beforeMark, afterMark]
  obtain ⟨blank, forms, parsed, lowered⟩ := parse_lines lineLayout (by simp) (by simpa using writable)
    (List.forall_mem_nil _) (List.forall_mem_nil _) lines
  obtain ⟨blankPrelude, preludeForms, parsedPrelude, loweredPrelude⟩ := parse_prelude
  rw [Grammar.read_eq_ok_iff]
  refine ⟨forms ++ preludeForms, Grammar.parse_append blank blankPrelude parsed parsedPrelude, ?_⟩
  rw [List.map_append, lowered, loweredPrelude]
  rfl

/-- A name for an array is not read. -/
theorem read_namedArray (name : Name) (type : String) (after : List Char) :
    Grammar.read ((named ("Array" ++ "<" ++ type ++ ">") name).toList ++ after) =
      .error ⟨(named ("Array" ++ "<" ++ type ++ ">") name).toList ++ trimEnd after⟩ := by
  have trimmed : trim ((named ("Array" ++ "<" ++ type ++ ">") name).toList ++ after) =
      (named ("Array" ++ "<" ++ type ++ ">") name).toList ++ trimEnd after := by
    refine trim_append (by simp [named]) ?_ ?_ after
    · simp [named, show isSpace 't' = false by decide]
    · rw [named, ← String.append_assoc]
      exact last_of_ending _ (by decide)
  have alone (text : String) : spell lineLayout [.word text] = text.toList := by
    simp [spell, Grammar.Token.text, lineLayout, lineGap]
  -- What is refused stands in the first tokens, so the rest may be taken for one word.
  have text : (named ("Array" ++ "<" ++ type ++ ">") name).toList ++ trimEnd after =
      spell lineLayout (.word "typedef" :: .word "Array" :: .mark .openAngle ::
        [.word (type ++ ">" ++ (" " ++ name.text ++ ";") ++ String.ofList (trimEnd after))]) := by
    simp [named, spell_mark, beforeMark, afterMark, alone]
  apply Grammar.read_of_rest
  · rw [trimmed]
    exact .done
  · rw [trimmed, text]
    exact Grammar.definition_openAngle lineLayout ⟨by decide, by decide⟩ (by decide) _ _
  · simp [named]

/-- A name for an array is one for a sequence if the array is not one of arrays, and is refused with
    the document otherwise, where the innermost array has become a sequence and the others have not. -/
theorem readDocument_nestedArray (options : Options) (element name : Name) (depth : Nat) :
    readDocument { options with emscripten := false, gecko := true }
        (named (enclosed "Array" (depth + 1) element.text) name).toList =
      if depth = 0 then
        .ok (.typedef name.text (.generic "sequence" [.named element.text]) ::
          (preludeTypes ++ [.interface preludeInterface]))
      else
        .error ⟨(named (enclosed "Array" depth (enclosed "sequence" 1 element.text)) name).toList ++
          trimEnd ('\n' :: prelude.toList)⟩ := by
  have mended : Dialect.mend { options with emscripten := false, gecko := true }
      (named (enclosed "Array" (depth + 1) element.text) name).toList =
        (named (enclosed "Array" depth (enclosed "sequence" 1 element.text)) name).toList ++
          '\n' :: prelude.toList := by
    rw [← mend_named]
    rfl
  rw [readDocument, mended]
  cases depth with
  | zero => exact read_namedSequence element name
  | succ depth => exact read_namedArray name _ _

end IdlTypings.Dialect.Gecko
