import Mathlib
import IdlTypings.Proofs.DocumentAppend

/-! # A comment line before or behind a document

A line comment is closed by its line feed.  Before a document the line feed is there, and the comment
is passed over as a blank.  Behind a document it is trimmed off together with the other white space
at the end of the text, so the comment is never closed and is what the document fails at.

`read_commentLines` says both for every document that is read.  A document of white space alone is no
exception to the second one, and there the first comment line is the last one too.
-/

namespace IdlTypings.Grammar

open IdlTypings.Parser

variable {text comment rest : List Char} {n : Nat}

/-! ## Comments -/

/-- A line comment without its line feed. -/
def lineComment (comment : List Char) : List Char :=
  '/' :: '/' :: comment

theorem blank?_commentLine (oneLine : '\n' ∉ comment) (rest : List Char) :
    blank? (lineComment comment ++ '\n' :: rest) = some rest :=
  afterLine?_line oneLine rest

theorem blank?_lineComment (oneLine : '\n' ∉ comment) : blank? (lineComment comment) = none := by
  have never := afterLine?_skip oneLine []
  rwa [List.append_nil] at never

/-- No statement begins with a comment that is not closed. -/
theorem definition_lineComment (oneLine : '\n' ∉ comment) (short : (lineComment comment).length < n) :
    definition (nested n) (lineComment comment) = none := by
  cases reads : definition (nested n) (lineComment comment) with
  | none => rfl
  | some found =>
    -- A comment inside a statement is closed, and this one has no line feed.
    obtain ⟨_, ends, -⟩ := Region.inside_comment.mp (bounded_of_definition short reads)
    have never := blank?_lineComment oneLine
    rw [lineComment, ends] at never
    cases never

/-- Trimming takes white space off the end of a comment only. -/
theorem trim_lineComment (comment : List Char) :
    Text.trim (lineComment comment) = lineComment (Text.trimEnd comment) := by
  have slash : Text.isSpace '/' = false := by decide
  have starts : Text.trimStart (lineComment comment) = lineComment comment := by
    simp [Text.trimStart, lineComment, slash]
  rw [Text.trim, starts, Text.trimEnd, lineComment, List.reverse_cons, List.reverse_cons,
    List.append_assoc, List.dropWhile_append]
  split
  next empty => simp_all [lineComment, Text.trimEnd]
  next => simp [lineComment, Text.trimEnd]

theorem not_mem_trimEnd (oneLine : '\n' ∉ comment) : '\n' ∉ Text.trimEnd comment := by
  intro member
  refine oneLine (List.mem_reverse.mp ?_)
  exact (List.dropWhile_suffix Text.isSpace).subset (List.mem_reverse.mp member)

/-- A comment is what is left of it when it is trimmed, and white space. -/
theorem lineComment_parts (comment : List Char) :
    ∃ after, lineComment comment = lineComment (Text.trimEnd comment) ++ after ∧
      (∀ c ∈ after, Text.isSpace c = true) ∧
      ∀ c ∈ (lineComment (Text.trimEnd comment)).getLast?, Text.isSpace c = false := by
  obtain ⟨before, after, parts, leading, trailing, -, last⟩ := trim_parts (lineComment comment)
  rw [trim_lineComment] at parts last
  cases before with
  | nil => exact ⟨after, parts, trailing, last⟩
  | cons c before =>
    rw [lineComment, List.cons_append] at parts
    obtain ⟨rfl, -⟩ := List.cons.inj parts
    exact absurd (leading '/' List.mem_cons_self) (by decide)

/-! ## Documents -/

/-- A document fails at the text that its statements leave over. -/
theorem read_of_rest {forms : List (Annotated DefinitionForm)}
    (rounds : Rounds (definition (nested ((Text.trim text).length + 1))) (Text.trim text) forms rest)
    (fails : definition (nested ((Text.trim text).length + 1)) rest = none) (nonempty : rest ≠ []) :
    read text = .error ⟨rest⟩ := by
  obtain ⟨c, rest, rfl⟩ := List.exists_cons_of_ne_nil nonempty
  rw [read, parse, definitions, many_of_rounds rounds fails]
  rfl

theorem read_openComment (oneLine : '\n' ∉ comment)
    (trimmed : Text.trim text = lineComment (Text.trimEnd comment)) :
    read text = .error ⟨lineComment (Text.trimEnd comment)⟩ := by
  have none : Rounds (definition (nested ((Text.trim text).length + 1))) (Text.trim text) []
      (lineComment (Text.trimEnd comment)) := by
    rw [trimmed]
    exact .done
  refine read_of_rest none ?_ (by simp [lineComment])
  · rw [trimmed]
    exact definition_lineComment (not_mem_trimEnd oneLine) (Nat.lt_succ_self _)

/-- Trimming a document with a comment line before it. -/
theorem trim_commentBefore (blankEnds : hasBlankEnds text = true) (nonempty : Text.trim text ≠ [])
    (comment : List Char) :
    ∃ gap, (∀ c ∈ gap, isBlank c = true) ∧ Text.trim (lineComment comment ++ '\n' :: text) =
      lineComment comment ++ '\n' :: (gap ++ Text.trim text) := by
  obtain ⟨before, after, parts, leading, trailing, -, last⟩ := blank_parts blankEnds nonempty
  have regroup : lineComment comment ++ '\n' :: text =
      [] ++ ((lineComment comment ++ '\n' :: (before ++ Text.trim text)) ++ after) := by
    conv_lhs => rw [parts]
    simp
  refine ⟨before, leading, ?_⟩
  rw [regroup]
  refine trim_around (List.forall_mem_nil _)
    (fun c member => isSpace_of_blank (trailing c member)) ?_ ?_
  · simp [lineComment, show Text.isSpace '/' = false by decide]
  · rw [List.getLast?_append_of_ne_nil _ (by simp),
      List.getLast?_cons_of_ne_nil (by simp [nonempty]), List.getLast?_append_of_ne_nil _ nonempty]
    exact last

/-- Trimming a document with a comment line behind it, which loses its line feed. -/
theorem trim_commentBehind (blankEnds : hasBlankEnds text = true) (nonempty : Text.trim text ≠ [])
    (comment : List Char) :
    ∃ gap, (∀ c ∈ gap, isBlank c = true) ∧
      Text.trim (text ++ '\n' :: (lineComment comment ++ ['\n'])) =
        Text.trim text ++ (gap ++ '\n' :: lineComment (Text.trimEnd comment)) := by
  obtain ⟨before, after, parts, leading, trailing, first, -⟩ := blank_parts blankEnds nonempty
  obtain ⟨spaces, split, blank, last⟩ := lineComment_parts comment
  have regroup : text ++ '\n' :: (lineComment comment ++ ['\n']) =
      before ++ ((Text.trim text ++ (after ++ '\n' :: lineComment (Text.trimEnd comment))) ++
        (spaces ++ ['\n'])) := by
    conv_lhs => rw [parts, split]
    simp
  refine ⟨after, trailing, ?_⟩
  rw [regroup]
  refine trim_around (fun c member => isSpace_of_blank (leading c member)) ?_ ?_ ?_
  · exact List.forall_mem_append.mpr ⟨blank, by simp [isSpace_newLine]⟩
  · rwa [List.head?_append_of_ne_nil _ nonempty]
  · rw [List.getLast?_append_of_ne_nil _ (by simp), List.getLast?_append_of_ne_nil _ (by simp),
      List.getLast?_cons_of_ne_nil (by simp [lineComment])]
    exact last

/-- A comment line before a document is passed over. -/
theorem read_commentBefore {ds : List Idl.Definition} (blankEnds : hasBlankEnds text = true)
    (reads : read text = .ok ds) (oneLine : '\n' ∉ comment) (nonempty : Text.trim text ≠ []) :
    read (lineComment comment ++ '\n' :: text) = .ok ds := by
  obtain ⟨forms, parsed, lowered⟩ := read_eq_ok_iff.mp reads
  rw [parse_eq_ok_iff] at parsed
  obtain ⟨gap, blank, trimmed⟩ := trim_commentBefore blankEnds nonempty comment
  have passed : skipBlanks (lineComment comment ++ '\n' :: (gap ++ Text.trim text)) =
      skipBlanks (Text.trim text) := by
    rw [skipBlanks_of_some (blank?_commentLine oneLine _), skipBlanks_gap_append blank]
  refine read_eq_ok_iff.mpr ⟨forms, ?_, lowered⟩
  rw [parse_eq_ok_iff, trimmed]
  generalize size : (lineComment comment ++ '\n' :: (gap ++ Text.trim text)).length = n
  have short : (Text.trim text).length < n := by
    simp only [← size, List.length_append, List.length_cons]
    omega
  -- Reading goes deeper in a longer text, which changes nothing where it succeeded before.
  have deeper := rounds_before (m := n + 1) (by omega) (Nat.lt_succ_self _) parsed nonempty []
  rw [List.append_nil] at deeper
  refine rounds_of_skipBlanks ?_ ?_
  · -- There is a statement, since the document is not empty.
    rintro rfl
    generalize Text.trim text = s at parsed nonempty
    cases parsed
    exact nonempty rfl
  · rw [passed]
    exact rounds_skipBlanks (by omega) deeper

/-- A comment line behind a document is never closed. -/
theorem read_commentBehind {ds : List Idl.Definition} (blankEnds : hasBlankEnds text = true)
    (reads : read text = .ok ds) (oneLine : '\n' ∉ comment) (nonempty : Text.trim text ≠ []) :
    read (text ++ '\n' :: (lineComment comment ++ ['\n'])) =
      .error ⟨lineComment (Text.trimEnd comment)⟩ := by
  obtain ⟨forms, parsed, -⟩ := read_eq_ok_iff.mp reads
  rw [parse_eq_ok_iff] at parsed
  obtain ⟨gap, blank, trimmed⟩ := trim_commentBehind blankEnds nonempty comment
  -- A comment that is not closed is no blank, so skipping stops in front of it.
  have left : skipBlanks (gap ++ '\n' :: lineComment (Text.trimEnd comment)) =
      lineComment (Text.trimEnd comment) := by
    rw [skipBlanks_gap_append blank, skipBlanks_of_some (blank?_blank (by decide) _),
      skipBlanks_of_none (blank?_lineComment (not_mem_trimEnd oneLine))]
  have rounds (n : Nat) (deeper : (Text.trim text).length + 1 ≤ n) :=
    rounds_before deeper (Nat.lt_succ_self _) parsed nonempty
      (gap ++ '\n' :: lineComment (Text.trimEnd comment))
  simp only [left] at rounds
  refine @read_of_rest _ _ forms ?_ ?_ (by simp [lineComment])
  · rw [trimmed]
    exact rounds _ (by simp)
  · refine definition_lineComment (not_mem_trimEnd oneLine) ?_
    rw [trimmed]
    simp only [List.length_append, List.length_cons]
    omega

/-- A comment line before a document that is read changes nothing, unless the document is white space
    alone; a comment line behind it makes the document fail at the comment. -/
theorem read_commentLines {ds : List Idl.Definition} (blankEnds : hasBlankEnds text = true)
    (reads : read text = .ok ds) (oneLine : '\n' ∉ comment) :
    (Text.trim text ≠ [] → read (lineComment comment ++ '\n' :: text) = .ok ds) ∧
      (Text.trim text = [] → read (lineComment comment ++ '\n' :: text) =
        .error ⟨lineComment (Text.trimEnd comment)⟩) ∧
      read (text ++ '\n' :: (lineComment comment ++ ['\n'])) =
        .error ⟨lineComment (Text.trimEnd comment)⟩ := by
  refine ⟨read_commentBefore blankEnds reads oneLine, fun empty => ?_, ?_⟩
  · refine read_openComment oneLine ?_
    rw [trim_before_spaces empty, trim_lineComment]
  · by_cases empty : Text.trim text = []
    · refine read_openComment oneLine ?_
      rw [trim_after_spaces empty, trim_before_spaces rfl, trim_lineComment]
    · exact read_commentBehind blankEnds reads oneLine empty

def soleInterface : List Char :=
  "interface A \x7b\x7d;".toList

theorem read_commentLines_interface :
    hasBlankEnds soleInterface = true ∧
      read soleInterface = .ok [.interface ⟨"A", none, [], []⟩] ∧
      read (lineComment " first".toList ++ '\n' :: soleInterface) =
        .ok [.interface ⟨"A", none, [], []⟩] ∧
      read (soleInterface ++ '\n' :: (lineComment " last".toList ++ ['\n'])) =
        .error ⟨lineComment " last".toList⟩ := by
  have blankEnds : hasBlankEnds soleInterface = true := by decide +kernel
  have reads : read soleInterface = .ok [.interface ⟨"A", none, [], []⟩] := by cbv
  have first := read_commentLines blankEnds reads (show '\n' ∉ " first".toList by decide)
  have last := read_commentLines blankEnds reads (show '\n' ∉ " last".toList by decide)
  exact ⟨blankEnds, reads, first.1 (by decide +kernel), last.2.2⟩

end IdlTypings.Grammar
