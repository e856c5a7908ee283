import Mathlib
import IdlTypings.Proofs.ComponentText
import IdlTypings.Proofs.ModuleLines

/-! # Lines with a number sign

A preprocessor line is left out from its number sign to its line feed.  What is found is a sign, not a
line: a sign in the middle of a line cuts the line there and joins the rest of it to the next one.

* `replaceAll_directive`: the lines of the result are those of the text, each cut at its first sign.
* `dropDirectives_of_apart`: if no line is cut behind a percent sign, no block of code comes about by
  the cuts.
* `dropDirectives_lines`: the result is the text without its preprocessor lines exactly if every line
  with a sign begins with it.

The last one counts.  A line that is no preprocessor line but has a sign would have to keep it, and a
preprocessor line that does not begin with its sign would have to lose the blanks before it.
-/

namespace IdlTypings.Dialect.Gecko

open IdlTypings.Parser IdlTypings.Text
open TypeScript (linesOf)

variable {s line rest : List Char}

/-! ## Lines -/

/-- Whether a line feed ends a line. -/
def isEnded (line : List Char) : Bool :=
  line.getLast? == some '\n'

/-- Whether a line is left out: a line feed ends it, and its first character other than white space
    is a number sign. -/
def isDirective (line : List Char) : Bool :=
  isEnded line && (line.dropWhile isSpace).head? == some '#'

/-- A text without its preprocessor lines. -/
def withoutDirectives (text : List Char) : List Char :=
  ((linesOf text).filter fun line => !isDirective line).flatten

/-- A line up to its first number sign, where it has one and a line feed ends it. -/
def cutLine (line : List Char) : List Char :=
  if isEnded line && line.contains '#' then line.takeWhile (· != '#') else line

def cutLines (text : List Char) : List Char :=
  (linesOf text).flatMap cutLine

theorem linesOf_line (oneLine : '\n' ∉ line) (rest : List Char) :
    linesOf (line ++ '\n' :: rest) = (line ++ ['\n']) :: linesOf rest := by
  induction line with
  | nil => simp [linesOf]
  | cons c line ih =>
    rw [List.mem_cons, not_or] at oneLine
    simp [linesOf, ih oneLine.2, Ne.symm oneLine.1]

theorem linesOf_last (oneLine : '\n' ∉ line) (nonempty : line ≠ []) : linesOf line = [line] := by
  induction line with
  | nil => exact absurd rfl nonempty
  | cons c line ih =>
    rw [List.mem_cons, not_or] at oneLine
    cases line with
    | nil => simp [linesOf, Ne.symm oneLine.1]
    | cons d line => rw [linesOf, ih oneLine.2 (by simp)]; simp [Ne.symm oneLine.1]

/-- A text is a line that nothing ends, or a line, a line feed and a text. -/
theorem lines_induction {motive : List Char → Prop} (last : ∀ line, '\n' ∉ line → motive line)
    (next : ∀ line rest, '\n' ∉ line → motive rest → motive (line ++ '\n' :: rest))
    (text : List Char) : motive text := by
  induction size : text.length using Nat.strong_induction_on generalizing text with
  | _ n ih =>
    by_cases more : '\n' ∈ text
    · obtain ⟨line, rest, rfl, oneLine⟩ := List.eq_append_cons_of_mem more
      have shorter : rest.length < n := by
        rw [← size, List.length_append, List.length_cons]
        omega
      exact next line rest oneLine (ih rest.length shorter rest rfl)
    · exact last text more

theorem isEnded_line (line : List Char) : isEnded (line ++ ['\n']) = true := by
  simp [isEnded]

theorem isEnded_last (oneLine : '\n' ∉ line) : isEnded line = false := by
  rw [isEnded, beq_eq_false_iff_ne]
  exact fun last => oneLine (List.mem_of_getLast? last)

theorem cutLines_line (oneLine : '\n' ∉ line) (rest : List Char) :
    cutLines (line ++ '\n' :: rest) = cutLine (line ++ ['\n']) ++ cutLines rest := by
  rw [cutLines, linesOf_line oneLine, List.flatMap_cons]
  rfl

theorem cutLines_last (oneLine : '\n' ∉ line) : cutLines line = line := by
  by_cases empty : line = []
  · subst empty
    rfl
  · simp [cutLines, linesOf_last oneLine empty, cutLine, isEnded_last oneLine]

/-! ## Number signs -/

/-- A preprocessor line is read from its sign to its line feed. -/
theorem directive_line (oneLine : '\n' ∉ line) (rest : List Char) :
    directive ('#' :: (line ++ ['\n']) ++ rest) = some ([], rest) := by
  have run : Parser.takeWhile (· != '\n') (line ++ '\n' :: rest) = some (line, '\n' :: rest) := by
    refine takeWhile_run (fun c member => ?_) (by simp)
    exact bne_iff_ne.mpr fun same => oneLine (same ▸ member)
  simp [directive, run]

theorem newLine_of_directive {x : List Char} (found : directive s = some (x, rest)) : ['\n'] <:+: s := by
  simp only [directive, bind_apply, Option.bind_eq_some_iff, Parser.takeWhile, Option.some.injEq,
    exists_eq_left'] at found
  obtain ⟨⟨u, t⟩, sign, ⟨v, after⟩, feed, -⟩ := found
  have ends := eq_append_of_exactly feed
  rw [eq_append_of_exactly sign, ← List.takeWhile_append_dropWhile (p := (· != '\n')) (l := t), ends]
  exact ⟨['#'] ++ t.takeWhile (· != '\n'), after, by simp⟩

/-- What becomes of a line that a line feed ends, whatever stands around it. -/
theorem turns_line (oneLine : '\n' ∉ line) :
    Turns (fun _ => directive) (line ++ ['\n']) (cutLine (line ++ ['\n'])) := by
  by_cases sign : '#' ∈ line
  · -- Nothing is found before the first sign, and from it on the rest of the line is one find.
    obtain ⟨before, after, rfl, first⟩ := List.eq_append_cons_of_mem sign
    have other : ∀ c ∈ before, ('#' != c) = true := fun c member =>
      bne_iff_ne.mpr fun same => first (same ▸ member)
    have kept : Turns (fun _ => directive) before before :=
      spares_directive.turns (List.all_eq_true.mpr other)
    have left : Turns (fun _ => directive) ('#' :: (after ++ ['\n'])) [] :=
      turns_found (by simp) fun _ rest => directive_line (by simp_all) rest
    have cut : cutLine (before ++ '#' :: after ++ ['\n']) = before := by
      rw [cutLine, isEnded_line, List.append_assoc,
        List.takeWhile_append_of_pos (fun c member => by simpa [bne_comm] using other c member)]
      simp
    rw [cut, List.append_assoc, List.cons_append]
    simpa using kept.append left
  · have whole : cutLine (line ++ ['\n']) = line ++ ['\n'] := by simp [cutLine, sign]
    rw [whole]
    refine spares_directive.turns (List.all_eq_true.mpr fun c member => bne_iff_ne.mpr ?_)
    rintro rfl
    simp [sign] at member

/-- The edit of number signs cuts every line. -/
theorem replaceAll_directive (text : List Char) :
    replaceAll (fun _ => directive) text = cutLines text := by
  induction text using lines_induction with
  | last line oneLine =>
    rw [cutLines_last oneLine]
    exact replaceAll_of_missing newLine_of_directive fun found => oneLine (found.subset (by simp))
  | next line rest oneLine ih =>
    have split : line ++ '\n' :: rest = (line ++ ['\n']) ++ rest := by simp
    rw [cutLines_line oneLine, split, (turns_line oneLine).replaceAll_append, ih]

/-! ## Blocks of code -/

theorem pair_infix_append {a b : Char} {u v : List Char} (found : [a, b] <:+: u ++ v) :
    [a, b] <:+: u ∨ [a, b] <:+: v ∨ u.getLast? = some a := by
  induction u with
  | nil => exact .inr (.inl found)
  | cons c u ih =>
    rcases List.infix_cons_iff.mp found with here | later
    · obtain ⟨rfl, second⟩ := List.cons_prefix_cons.mp here
      cases u with
      | nil => exact .inr (.inr rfl)
      | cons d u =>
        obtain ⟨rfl, -⟩ := List.cons_prefix_cons.mp second
        exact .inl ⟨[], u, rfl⟩
    · rcases ih later with inside | inside | last
      · exact .inl (inside.trans (List.suffix_cons c u).isInfix)
      · exact .inr (.inl inside)
      · refine .inr (.inr ?_)
        rw [List.getLast?_cons, last]
        rfl

theorem isPrefix_cutLine (line : List Char) : cutLine line <+: line := by
  rw [cutLine]
  split
  · exact List.takeWhile_prefix _
  · exact List.prefix_rfl

/-- The start of a block is found behind the cuts only if it was there before them, or if a line is
    cut behind a percent sign. -/
theorem block_cutLines {text : List Char} (plain : ¬ "%\x7b".toList <:+: text)
    (apart : ∀ line ∈ linesOf text, isEnded line = true → (cutLine line).getLast? ≠ some '%') :
    ¬ "%\x7b".toList <:+: cutLines text := by
  induction text using lines_induction with
  | last line oneLine => rwa [cutLines_last oneLine]
  | next line rest oneLine ih =>
    rw [linesOf_line oneLine, List.forall_mem_cons] at apart
    rw [cutLines_line oneLine]
    intro found
    -- The two characters stand in this line, in the lines behind it, or one in each.
    rcases pair_infix_append found with inside | inside | last
    · refine plain (inside.trans ((isPrefix_cutLine _).isInfix.trans ⟨[], rest, by simp⟩))
    · refine ih (fun found => plain (found.trans ?_)) apart.2 inside
      exact ⟨line ++ ['\n'], [], by simp⟩
    · exact apart.1 (isEnded_line line) last

theorem mark_of_codeBlock {x : List Char} (found : codeBlock s = some (x, rest)) :
    "%\x7b".toList <:+: s := by
  simp only [codeBlock, bind_apply, Option.bind_eq_some_iff] at found
  obtain ⟨⟨u, t⟩, mark, -⟩ := found
  rw [eq_append_of_exactly mark]
  exact ⟨[], "C++\n".toList ++ t, by simp⟩

theorem drops_codeBlock : Drops codeBlock :=
  drops_bind fun _ => drops_bind fun _ => drops_pure

theorem dropDirectives_eq (text : List Char) :
    dropDirectives text = replaceAll (fun _ => codeBlock) (cutLines text) := by
  rw [dropDirectives, replaceAll_directive]

/-- Where no line is cut behind a percent sign, the text is cut and nothing else. -/
theorem dropDirectives_of_apart {text : List Char} (plain : ¬ "%\x7b".toList <:+: text)
    (apart : ∀ line ∈ linesOf text, isEnded line = true → (cutLine line).getLast? ≠ some '%') :
    dropDirectives text = cutLines text := by
  rw [dropDirectives_eq]
  exact replaceAll_of_missing mark_of_codeBlock (block_cutLines plain apart)

/-! ## Preprocessor lines -/

/-- A line, or nothing if it is left out. -/
def keptLine (line : List Char) : List Char :=
  if isDirective line then [] else line

theorem withoutDirectives_eq (text : List Char) :
    withoutDirectives text = (linesOf text).flatMap keptLine := by
  rw [withoutDirectives]
  induction linesOf text with
  | nil => rfl
  | cons line lines ih => cases directive : isDirective line <;> simp [keptLine, directive, ih]

/-- Where one text is at least as large as another in every line, and not larger as a whole, the two
    are equally large in every line. -/
theorem eq_of_total (size : List Char → Nat) (additive : ∀ a b, size (a ++ b) = size a + size b)
    {f g : List Char → List Char} {lines : List (List Char)}
    (le : ∀ line ∈ lines, size (f line) ≤ size (g line))
    (total : size (lines.flatMap g) ≤ size (lines.flatMap f)) :
    ∀ line ∈ lines, size (f line) = size (g line) := by
  have whole {lines : List (List Char)} (le : ∀ line ∈ lines, size (f line) ≤ size (g line)) :
      size (lines.flatMap f) ≤ size (lines.flatMap g) := by
    induction lines with
    | nil => exact Nat.le_refl _
    | cons line lines ih =>
      rw [List.forall_mem_cons] at le
      simpa only [List.flatMap_cons, additive] using Nat.add_le_add le.1 (ih le.2)
  induction lines with
  | nil => simp
  | cons line lines ih =>
    rw [List.forall_mem_cons] at le
    simp only [List.flatMap_cons, additive] at total
    have others := whole le.2
    rw [List.forall_mem_cons]
    exact ⟨by omega, ih le.2 (by omega)⟩

theorem count_cutLine (ended : isEnded line = true) : (cutLine line).count '#' = 0 := by
  rw [List.count_eq_zero, cutLine, ended]
  by_cases sign : '#' ∈ line
  · simp only [List.contains_eq_mem, sign, decide_true, Bool.and_self, if_true]
    intro member
    simpa using List.mem_takeWhile_imp member
  · simp [sign]

theorem cutLine_of_not_ended (open_ : isEnded line = false) : cutLine line = line := by
  simp [cutLine, open_]

theorem keptLine_of_not_ended (open_ : isEnded line = false) : keptLine line = line := by
  simp [keptLine, isDirective, open_]

/-- If as many signs are left as without the preprocessor lines, only these have any. -/
theorem directive_of_count {text : List Char}
    (few : (withoutDirectives text).count '#' ≤ (cutLines text).count '#') :
    ∀ line ∈ linesOf text, isEnded line = true → '#' ∈ line → isDirective line = true := by
  have le : ∀ line ∈ linesOf text, (cutLine line).count '#' ≤ (keptLine line).count '#' := by
    intro line _
    cases ended : isEnded line with
    | true => rw [count_cutLine ended]; exact Nat.zero_le _
    | false => rw [cutLine_of_not_ended ended, keptLine_of_not_ended ended]
  rw [withoutDirectives_eq, cutLines] at few
  -- No line has more signs left than it has without the preprocessor lines, so each has as many.
  have same := eq_of_total (List.count '#') (fun _ _ => List.count_append) le few
  intro line member ended sign
  have none := same line member
  rw [count_cutLine ended] at none
  cases directive : isDirective line with
  | true => rfl
  | false =>
    rw [keptLine, directive] at none
    exact absurd sign (List.count_eq_zero.mp none.symm)

/-- What is left of a preprocessor line is white space. -/
theorem isSpace_cutLine (directive : isDirective line = true) :
    ∀ c ∈ cutLine line, isSpace c = true := by
  rw [isDirective, Bool.and_eq_true, beq_iff_eq] at directive
  have split := List.takeWhile_append_dropWhile (p := isSpace) (l := line)
  obtain ⟨rest, start⟩ : ∃ rest, line.dropWhile isSpace = '#' :: rest := by
    cases left : line.dropWhile isSpace with
    | nil => simp [left] at directive
    | cons c rest => exact ⟨rest, by simpa [left] using directive.2⟩
  rw [start] at split
  have signs : ∀ c ∈ line.takeWhile isSpace, (c != '#') = true := by
    intro c member
    refine bne_iff_ne.mpr ?_
    rintro rfl
    exact absurd (List.mem_takeWhile_imp member) (by decide)
  have sign : '#' ∈ line := by
    rw [← split]
    simp
  -- The cut begins at the first sign, and before that sign there is only white space.
  have blanks : line.takeWhile (· != '#') = line.takeWhile isSpace := by
    conv_lhs => rw [← split]
    rw [List.takeWhile_append_of_pos signs]
    simp
  rw [cutLine, if_pos (by simp [directive.1, sign]), blanks]
  exact fun c => List.mem_takeWhile_imp

/-- If nothing is longer than without the preprocessor lines, these begin with their signs. -/
theorem head_of_length {text : List Char}
    (directives : ∀ line ∈ linesOf text, isEnded line = true → '#' ∈ line → isDirective line = true)
    (short : (cutLines text).length ≤ (withoutDirectives text).length) :
    ∀ line ∈ linesOf text, isEnded line = true → '#' ∈ line → line.head? = some '#' := by
  -- A preprocessor line is kept in no part, and any other line is not cut.
  have le : ∀ line ∈ linesOf text, (keptLine line).length ≤ (cutLine line).length := by
    intro line member
    cases directive : isDirective line with
    | true => simp [keptLine, directive]
    | false =>
      have whole : cutLine line = line := by
        rw [cutLine, if_neg]
        rw [Bool.and_eq_true, List.contains_iff_mem]
        rintro ⟨ended, sign⟩
        simp [directives line member ended sign] at directive
      rw [whole, keptLine, directive]
      exact Nat.le_refl _
  rw [withoutDirectives_eq, cutLines] at short
  have same := eq_of_total List.length (fun _ _ => List.length_append) le short
  intro line member ended sign
  have empty := same line member
  rw [keptLine, if_pos (directives line member ended sign), cutLine,
    if_pos (by simp [ended, sign])] at empty
  cases line with
  | nil => simp at sign
  | cons c line =>
    by_cases first : c = '#'
    · rw [first, List.head?_cons]
    · simp [first] at empty

theorem isDirective_of_head (ended : isEnded line = true) (head : line.head? = some '#') :
    isDirective line = true := by
  obtain ⟨rest, rfl⟩ := List.head?_eq_some_iff.mp head
  simp [isDirective, ended, show isSpace '#' = false by decide]

theorem sign_of_isDirective (directive : isDirective line = true) :
    isEnded line = true ∧ '#' ∈ line := by
  rw [isDirective, Bool.and_eq_true, beq_iff_eq] at directive
  exact ⟨directive.1, (List.dropWhile_suffix isSpace).subset (List.mem_of_head? directive.2)⟩

/-- Where every line with a sign begins with it, whole lines are left out. -/
theorem cutLines_of_head {text : List Char}
    (heads : ∀ line ∈ linesOf text, isEnded line = true → '#' ∈ line → line.head? = some '#') :
    cutLines text = withoutDirectives text := by
  rw [withoutDirectives_eq, cutLines]
  refine List.flatMap_congr fun line member => ?_
  by_cases signed : isEnded line = true ∧ '#' ∈ line
  · have head := heads line member signed.1 signed.2
    rw [keptLine, if_pos (isDirective_of_head signed.1 head), cutLine, if_pos (by simp [signed])]
    obtain ⟨rest, rfl⟩ := List.head?_eq_some_iff.mp head
    simp
  · rw [keptLine, if_neg fun directive => signed (sign_of_isDirective directive), cutLine,
      if_neg (by simpa using signed)]

/-- Behind a preprocessor line there is no percent sign, and behind any other line there is its line
    feed. -/
theorem apart_of_directives {text : List Char}
    (directives : ∀ line ∈ linesOf text, isEnded line = true → '#' ∈ line → isDirective line = true) :
    ∀ line ∈ linesOf text, isEnded line = true → (cutLine line).getLast? ≠ some '%' := by
  intro line member ended last
  by_cases sign : '#' ∈ line
  · have blank := isSpace_cutLine (directives line member ended sign) _ (List.mem_of_getLast? last)
    exact absurd blank (by decide)
  · rw [cutLine, if_neg (by simp [sign])] at last
    rw [isEnded, last] at ended
    exact absurd ended (by decide)

/-- The number signs of a text without blocks of code cut its lines, and whole lines are left out,
    those that begin with a sign behind white space and no others, exactly if every line that has a
    sign begins with it. -/
theorem dropDirectives_lines {text : List Char} (plain : ¬ "%\x7b".toList <:+: text) :
    dropDirectives text = replaceAll (fun _ => codeBlock) (cutLines text) ∧
      ((∀ line ∈ linesOf text, isEnded line = true → (cutLine line).getLast? ≠ some '%') →
        dropDirectives text = cutLines text) ∧
      (dropDirectives text = withoutDirectives text ↔
        ∀ line ∈ linesOf text, isEnded line = true → '#' ∈ line → line.head? = some '#') := by
  refine ⟨dropDirectives_eq text, dropDirectives_of_apart plain, fun same => ?_, fun heads => ?_⟩
  · -- First the signs are counted, since a block of code may still be left out; then there is none,
    -- and all characters can be counted.
    have dropped : (dropDirectives text).Sublist (cutLines text) := by
      rw [dropDirectives_eq]
      exact replaceAll_sublist (fun _ => drops_codeBlock) _
    have directives := directive_of_count (same ▸ dropped.count_le '#')
    have cut := dropDirectives_of_apart plain (apart_of_directives directives)
    exact head_of_length directives (Nat.le_of_eq (congrArg List.length (cut.symm.trans same)))
  · have directives : ∀ line ∈ linesOf text, isEnded line = true → '#' ∈ line →
        isDirective line = true := fun line member ended sign =>
      isDirective_of_head ended (heads line member ended sign)
    rw [dropDirectives_of_apart plain (apart_of_directives directives), cutLines_of_head heads]

/-- A comment that names a number, before a definition. -/
def numberedComment : List Char :=
  "// see #7\ninterface A \x7b\x7d;\n".toList

/-- The definition becomes part of the comment, although no line of the text is a preprocessor
    line. -/
theorem dropDirectives_lines_comment :
    ¬ "%\x7b".toList <:+: numberedComment ∧ withoutDirectives numberedComment = numberedComment ∧
      dropDirectives numberedComment = "// see interface A \x7b\x7d;\n".toList ∧
      dropDirectives numberedComment ≠ withoutDirectives numberedComment := by
  have plain : ¬ "%\x7b".toList <:+: numberedComment := by decide
  obtain ⟨-, cuts, whole⟩ := dropDirectives_lines plain
  refine ⟨plain, by decide, ?_, fun same => ?_⟩
  · rw [cuts (by decide)]
    decide
  · exact absurd (whole.mp same) (by decide)

end IdlTypings.Dialect.Gecko
