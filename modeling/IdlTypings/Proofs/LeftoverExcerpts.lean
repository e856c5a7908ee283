import Mathlib
import IdlTypings.Grammar.Lowering
import IdlTypings.Proofs.DocumentAppend
import IdlTypings.Proofs.Remainders

/-! # What is shown of a text that does not parse

A document is trimmed before it is read, and what its definitions leave over is an end of it.  So a
leftover ends in a character that is no white space, and the first line that is shown of it is never
empty.

* `Shows` says what a reader of a message can rely on.
* `shows_excerpt` holds of every leftover with a character that is no white space.
* `read_error_shows` holds of every document that does not parse.
-/

namespace IdlTypings.Grammar

variable {text leftover line : List Char}

/-- The first line of a text, without the white space at its end. -/
structure IsFirstLine (line text : List Char) : Prop where
  oneLine : '\n' ∉ line
  ends : ∀ c ∈ line.getLast?, Text.isSpace c = false
  /-- White space follows it, up to a line feed or the end of the text. -/
  whole : ∃ blanks after, text = line ++ (blanks ++ after) ∧
    (∀ c ∈ blanks, Text.isSpace c = true) ∧ ∀ c ∈ after.head?, c = '\n'

/-- What a message shows of a leftover: its first line, or the start of one that is too long. -/
structure Shows (leftover shown : List Char) : Prop where
  nonempty : shown ≠ []
  oneLine : '\n' ∉ shown
  short : shown.length ≤ 63
  begins : ∀ c ∈ shown.head?, Text.isSpace c = false
  source :
    (shown <+: Text.trimStart leftover ∧ ∀ c ∈ shown.getLast?, Text.isSpace c = false) ∨
      60 < (Text.trimStart leftover).length ∧
        shown = (Text.trimStart leftover).take 60 ++ "...".toList
  /-- A line is shown whole up to its sixtieth character. -/
  line : ∃ line, IsFirstLine line (Text.trimStart leftover) ∧
    (line.length ≤ 60 ∧ shown = line ∨ 60 < line.length ∧ shown = line.take 60 ++ "...".toList)

/-! ## First lines -/

theorem IsFirstLine.starts (isLine : IsFirstLine line text) : line <+: text := by
  obtain ⟨blanks, after, parts, -⟩ := isLine.whole
  exact ⟨blanks ++ after, parts.symm⟩

theorem isFirstLine_trimEnd (s : List Char) : IsFirstLine (Text.trimEnd (Text.firstLine s)) s := by
  obtain ⟨blanks, parts, spaces, ends⟩ := trimEnd_parts (Text.firstLine s)
  refine ⟨?_, ends, blanks, s.dropWhile (· != '\n'), ?_, spaces, ?_⟩
  · intro feed
    have inside : '\n' ∈ Text.firstLine s := by
      rw [parts]
      exact List.mem_append_left _ feed
    simpa using List.mem_takeWhile_imp inside
  · rw [← List.append_assoc, ← parts, Text.firstLine, List.takeWhile_append_dropWhile]
  · intro c first
    have stops := List.head?_dropWhile_not (· != '\n') s
    simpa [Option.mem_def.mp first] using stops

/-- A text that begins with another character than white space has a first line. -/
theorem head?_trimEnd {c : Char} {s : List Char} (solid : Text.isSpace c = false) :
    (Text.trimEnd (Text.firstLine (c :: s))).head? = some c := by
  have other : c ≠ '\n' := by
    rintro rfl
    exact absurd solid (by decide)
  have starts : Text.firstLine (c :: s) = c :: Text.firstLine s := by simp [Text.firstLine, other]
  obtain ⟨after, parts, spaces, -⟩ := trimEnd_parts (Text.firstLine (c :: s))
  cases trimmed : Text.trimEnd (Text.firstLine (c :: s)) with
  | nil =>
    -- An empty line would have been all white space, its first character included.
    rw [trimmed, starts, List.nil_append] at parts
    have space := spaces c (parts ▸ List.mem_cons_self)
    rw [solid] at space
    cases space
  | cons d others =>
    rw [trimmed, starts, List.cons_append, List.cons.injEq] at parts
    rw [parts.1]
    rfl

/-! ## Excerpts -/

theorem trimStart_cons {c : Char} (member : c ∈ leftover) (solid : Text.isSpace c = false) :
    ∃ d rest, Text.trimStart leftover = d :: rest ∧ Text.isSpace d = false := by
  have first := List.head?_dropWhile_not Text.isSpace leftover
  cases trimmed : leftover.dropWhile Text.isSpace with
  | nil =>
    have spaces := List.dropWhile_eq_nil_iff.1 trimmed c member
    rw [solid] at spaces
    cases spaces
  | cons d rest =>
    rw [trimmed] at first
    exact ⟨d, rest, trimmed, by simpa using first⟩

/-- The error of a document that does not parse holds what its definitions leave over. -/
theorem rest_of_read {e : ParseError} (fails : read text = .error e) :
    e.rest = (definitions (Text.trim text)).2 ∧ e.rest ≠ [] := by
  rw [read, parse] at fails
  split at fails
  case h_1 => cases fails
  case h_2 rest nonempty left =>
    cases fails
    rw [left]
    exact ⟨rfl, nonempty⟩

theorem shows_line (isLine : IsFirstLine line (Text.trimStart leftover)) (nonempty : line ≠ [])
    (begins : ∀ c ∈ line.head?, Text.isSpace c = false) (short : line.length ≤ 60) :
    Shows leftover line :=
  ⟨nonempty, isLine.oneLine, by omega, begins, .inl ⟨isLine.starts, isLine.ends⟩,
    line, isLine, .inl ⟨short, rfl⟩⟩

theorem shows_start (isLine : IsFirstLine line (Text.trimStart leftover))
    (begins : ∀ c ∈ line.head?, Text.isSpace c = false) (long : 60 < line.length) :
    Shows leftover (line.take 60 ++ "...".toList) := by
  have start : (Text.trimStart leftover).take 60 = line.take 60 := by
    obtain ⟨after, parts⟩ := isLine.starts
    rw [← parts, List.take_append_of_le_length (by omega)]
  refine ⟨by simp, ?_, by simp, ?_, .inr ⟨?_, by rw [start]⟩, line, isLine, .inr ⟨long, rfl⟩⟩
  · rw [List.mem_append, not_or]
    exact ⟨fun feed => isLine.oneLine (List.mem_of_mem_take feed), by decide⟩
  · obtain ⟨c, others, rfl⟩ := List.exists_cons_of_length_pos (Nat.zero_lt_of_lt long)
    simpa using begins
  · exact Nat.lt_of_lt_of_le long isLine.starts.length_le

/-- A leftover that is not all white space has something to show. -/
theorem shows_excerpt {c : Char} (member : c ∈ leftover) (solid : Text.isSpace c = false) :
    Shows leftover (excerpt leftover) := by
  obtain ⟨d, rest, trimmed, solid'⟩ := trimStart_cons member solid
  have isLine := isFirstLine_trimEnd (Text.trimStart leftover)
  have head : (Text.trimEnd (Text.firstLine (Text.trimStart leftover))).head? = some d := by
    rw [trimmed]
    exact head?_trimEnd solid'
  have begins : ∀ c ∈ (Text.trimEnd (Text.firstLine (Text.trimStart leftover))).head?,
      Text.isSpace c = false := by simpa [head] using solid'
  rw [excerpt, excerptLimit]
  split
  case isTrue long => exact shows_start isLine begins long
  case isFalse short =>
    refine shows_line isLine ?_ begins (Nat.not_lt.1 short)
    intro empty
    rw [empty] at head
    cases head

/-- What the message shows of a document that does not parse can be used, whatever the document
    holds: the leftover is an end of the trimmed document, and so is not all white space. -/
theorem read_error_shows {e : ParseError} (fails : read text = .error e) :
    e.rest = (definitions (Text.trim text)).2 ∧ e.rest <:+ Text.trim text ∧
      ∃ shown, e.message = "parse error: unexpected input at `" ++ String.ofList shown ++ "`" ∧
        Shows e.rest shown := by
  obtain ⟨rest_eq, nonempty⟩ := rest_of_read fails
  have part : e.rest <:+ Text.trim text := rest_eq ▸ definitions_suffix (Text.trim text)
  refine ⟨rest_eq, part, excerpt e.rest, rfl, ?_⟩
  obtain ⟨-, -, -, -, -, -, ends⟩ := trim_parts text
  -- The leftover ends in the last character of the document, which trimming left there.
  obtain ⟨front, whole⟩ := part
  have last : (Text.trim text).getLast? = some (e.rest.getLast nonempty) := by
    rw [← whole, List.getLast?_append, List.getLast?_eq_some_getLast nonempty]
    rfl
  exact shows_excerpt (List.getLast_mem nonempty) (ends _ last)

/-- A definition and two lines that are none. -/
def lateText : List Char := "interface A \x7b\x7d;\n  this is\u00a0not \t\n idl ".toList

theorem read_error_shows_lateText :
    read lateText = .error ⟨"this is\u00a0not \t\n idl".toList⟩ ∧
      ∃ shown, (ParseError.mk "this is\u00a0not \t\n idl".toList).message =
          "parse error: unexpected input at `" ++ String.ofList shown ++ "`" ∧
        Shows "this is\u00a0not \t\n idl".toList shown := by
  have fails : read lateText = .error ⟨"this is\u00a0not \t\n idl".toList⟩ := by cbv
  exact ⟨fails, (read_error_shows fails).2.2⟩

end IdlTypings.Grammar
