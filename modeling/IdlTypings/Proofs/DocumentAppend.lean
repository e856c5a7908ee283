import Mathlib
import IdlTypings.Grammar.Lowering
import IdlTypings.Proofs.SpelledTokens
import IdlTypings.Proofs.SteadyGrammar

/-! # Documents one after the other

A document that follows another one is read as if it stood alone: `read_append`.

* `parse_eq_ok_iff` puts a document that is read as rounds of its statements.
* `rounds_before` carries the rounds over to a text with more after it.  Each statement keeps its
  form because it is bounded by its semicolon; the blanks behind the last semicolon run on into what
  follows.
* `IgnoresBlanks` makes up for those blanks: a statement is read from its first token on.
* `trim_parts` says what trimming takes off a text.
-/

namespace IdlTypings.Grammar

open IdlTypings.Parser

variable {α β : Type} {s t : List Char} {n m : Nat}

/-! ## Blanks before a statement -/

/-- A parser for which blanks in front make no difference. -/
def IgnoresBlanks (p : Parser α) : Prop :=
  ∀ s, p (skipBlanks s) = p s

theorem ignoresBlanks_token (p : Parser α) : IgnoresBlanks (token p) := by
  intro s
  simp [token, blanks]

theorem IgnoresBlanks.bind {p : Parser α} (ignores : IgnoresBlanks p) (f : α → Parser β) :
    IgnoresBlanks (p >>= f) := by
  intro s
  rw [bind_apply, bind_apply, ignores s]

theorem IgnoresBlanks.closed {p : Parser α} (ignores : IgnoresBlanks p) :
    IgnoresBlanks (closed p) :=
  ignores.bind _

theorem ignoresBlanks_firstOf {ps : List (Parser α)} (ignore : ∀ p ∈ ps, IgnoresBlanks p) :
    IgnoresBlanks (firstOf ps) := by
  intro s
  induction ps with
  | nil => rfl
  | cons p ps ih =>
    rw [List.forall_mem_cons] at ignore
    rw [firstOf_cons_apply, firstOf_cons_apply, ignore.1 s, ih ignore.2]

theorem ignoresBlanks_definitionForm (level : Nested) : IgnoresBlanks (definitionForm level) := by
  have keyword (word : String) : IgnoresBlanks (keyword word) := ignoresBlanks_token _
  have identifier : IgnoresBlanks identifier := ignoresBlanks_token _
  refine ignoresBlanks_firstOf ?_
  simp only [List.forall_mem_cons, List.not_mem_nil, false_imp_iff, implies_true, and_true]
  exact ⟨((keyword _).bind _).closed, ((keyword _).bind _).closed, ((keyword _).bind _).closed,
    ((keyword _).bind _).closed, ((keyword _).bind _).closed, ((keyword _).bind _).closed,
    ((keyword _).bind _).closed, ((keyword _).bind _).closed, ((keyword _).bind _).closed,
    ((keyword _).bind _).closed, ((keyword _).bind _).closed, ((keyword _).bind _).closed,
    (identifier.bind _).closed, (identifier.bind _).closed⟩

theorem ignoresBlanks_definition (inner : Nested) : IgnoresBlanks (definition inner.step) := by
  intro s
  have attributes : IgnoresBlanks inner.step.attributes := (ignoresBlanks_token _).bind _
  rw [definition, annotated, bind_apply, bind_apply, optional_apply, optional_apply, attributes s]
  cases inner.step.attributes s with
  | none => simp [ignoresBlanks_definitionForm inner.step s]
  | some found => rfl

/-! ## Rounds of statements -/

theorem definition_shortens {x : Annotated DefinitionForm} (short : s.length < n)
    (reads : definition (nested n) s = some (x, t)) : t.length < s.length := by
  have closing : Closing [] n (definition (nested n)) (definition (nested n)) :=
    closing_definition (nested_agree (Nat.le_refl n))
  obtain ⟨rest, rfl, shorter, -⟩ := closing.closes short reads
  exact Nat.lt_of_le_of_lt (length_skipBlanks rest) shorter

theorem bounded_of_definition {x : Annotated DefinitionForm} (short : s.length < n)
    (reads : definition (nested n) s = some (x, t)) : Bounded 0 s := by
  have closing : Closing [] n (definition (nested n)) (definition (nested n)) :=
    closing_definition (nested_agree (Nat.le_refl n))
  obtain ⟨-, -, -, bounded, -⟩ := closing.closes short reads
  exact bounded

theorem definition_nil (n : Nat) : definition (nested (n + 1)) [] = none := by
  cases reads : definition (nested (n + 1)) [] with
  | none => rfl
  | some found => exact absurd (bounded_of_definition (Nat.succ_pos n) reads) Region.not_inside_nil

/-- A document that is read is a row of statements that leaves nothing over. -/
theorem parse_eq_ok_iff {text : List Char} {forms : List (Annotated DefinitionForm)} :
    parse text = .ok forms ↔
      Rounds (definition (nested ((Text.trim text).length + 1))) (Text.trim text) forms [] := by
  rw [parse, definitions]
  constructor
  · intro parsed
    cases read : many (definition (nested ((Text.trim text).length + 1))) (Text.trim text) with
    -- A repetition does not fail, but that is not needed here.
    | none =>
      simp only [read, Option.getD_none] at parsed
      split at parsed
      next same =>
        obtain ⟨rfl, empty⟩ := Prod.mk.inj same
        cases parsed
        rw [empty]
        exact .done
      next => cases parsed
    | some found =>
      obtain ⟨forms', rest⟩ := found
      simp only [read, Option.getD_some] at parsed
      split at parsed
      next same =>
        cases same
        cases parsed
        exact rounds_of_many definition_shortens (Nat.lt_succ_self _) read
      next => cases parsed
  · intro rounds
    rw [many_of_rounds rounds (definition_nil _)]
    rfl

theorem rounds_nil {p : Parser α} {xs : List α} (rounds : Rounds p [] xs t) : xs = [] ∧ t = [] := by
  have counted := rounds.length_le
  simp only [List.length_nil, Nat.le_zero, Nat.add_eq_zero_iff, List.length_eq_zero_iff] at counted
  exact counted

/-- Statements are read the same with more after them, and the blanks behind the last one run on. -/
theorem rounds_before (deeper : n ≤ m) {xs : List (Annotated DefinitionForm)}
    (short : s.length < n) (rounds : Rounds (definition (nested n)) s xs []) (nonempty : s ≠ [])
    (more : List Char) : Rounds (definition (nested m)) (s ++ more) xs (skipBlanks more) := by
  have agree : Nested.Agree .statement more n (nested n) (nested m) := nested_agree deeper
  generalize left : ([] : List Char) = u at rounds
  induction rounds with
  | done => exact absurd left.symm nonempty
  | @round s t u x xs reads shorter others ih =>
    subst left
    obtain ⟨rest, after, shorter', -, closes⟩ := (closing_definition agree).closes short reads
    have shortens : (skipBlanks (rest ++ more)).length < (s ++ more).length := by
      have dropped := length_skipBlanks (rest ++ more)
      rw [List.length_append] at dropped ⊢
      omega
    by_cases last : t = []
    · subst last
      obtain ⟨rfl, -⟩ := rounds_nil others
      have runsOn : skipBlanks (rest ++ more) = skipBlanks more := by
        rw [skipBlanks_append, ← after, List.nil_append]
      rw [runsOn] at closes shortens
      exact .one closes shortens
    · -- Another statement follows, so what is left is bounded and keeps its start.
      have short' : t.length < n := by omega
      have bounded : Bounded 0 rest := by
        rw [← bounded_skipBlanks, ← after]
        cases others with
        | done => exact absurd rfl last
        | round reads' _ _ => exact bounded_of_definition short' reads'
      have keeps : skipBlanks (rest ++ more) = t ++ more := by
        rw [Region.skipBlanks_append bounded, ← after]
      rw [keeps] at closes shortens
      exact .round closes shortens (ih short' last rfl)

theorem rounds_skipBlanks {xs : List (Annotated DefinitionForm)} (short : s.length < n + 1)
    (rounds : Rounds (definition (nested (n + 1))) s xs []) :
    Rounds (definition (nested (n + 1))) (skipBlanks s) xs [] := by
  cases rounds with
  | done => exact .done
  | round reads _ others =>
    have reads' := (ignoresBlanks_definition (nested n) s).trans reads
    have short' : (skipBlanks s).length < n + 1 := Nat.lt_of_le_of_lt (length_skipBlanks s) short
    exact .round reads' (definition_shortens short' reads') others

theorem rounds_of_skipBlanks {xs : List (Annotated DefinitionForm)} (nonempty : xs ≠ [])
    (rounds : Rounds (definition (nested (n + 1))) (skipBlanks s) xs t) :
    Rounds (definition (nested (n + 1))) s xs t := by
  cases rounds with
  | done => exact absurd rfl nonempty
  | round reads shorter others =>
    exact .round ((ignoresBlanks_definition (nested n) s).symm.trans reads)
      (Nat.lt_of_lt_of_le shorter (length_skipBlanks s)) others

/-- One statement and the statements after it, with blanks before each of them. -/
theorem rounds_cons {x : Annotated DefinitionForm} {xs : List (Annotated DefinitionForm)}
    {text rest : List Char} (short : (text ++ rest).length < n + 1)
    (reads : definition (nested (n + 1)) (text ++ rest) = some (x, skipBlanks rest))
    (others : Rounds (definition (nested (n + 1))) (skipBlanks rest) xs t) :
    Rounds (definition (nested (n + 1))) (skipBlanks (text ++ rest)) (x :: xs) t := by
  have reads' := (ignoresBlanks_definition (nested n) (text ++ rest)).trans reads
  have short' := Nat.lt_of_le_of_lt (length_skipBlanks (text ++ rest)) short
  exact .round reads' (definition_shortens short' reads') others

/-! ## The white space around a document -/

/-- The white space at the two ends of a text is made of blanks. -/
def hasBlankEnds (s : List Char) : Bool :=
  (s.takeWhile Text.isSpace).all isBlank && (s.reverse.takeWhile Text.isSpace).all isBlank

theorem takeWhile_spaces {before text : List Char} (spaces : ∀ c ∈ before, Text.isSpace c = true)
    (first : ∀ c ∈ text.head?, Text.isSpace c = false) (nonempty : text ≠ []) (after : List Char) :
    (before ++ (text ++ after)).takeWhile Text.isSpace = before := by
  cases text with
  | nil => exact absurd rfl nonempty
  | cons c text =>
    rw [List.takeWhile_append_of_pos spaces, List.cons_append, List.takeWhile_cons]
    simp [first c rfl]

/-- What is trimmed at the end is white space, and all of it. -/
theorem trimEnd_parts (s : List Char) :
    ∃ after, s = Text.trimEnd s ++ after ∧ (∀ c ∈ after, Text.isSpace c = true) ∧
      ∀ c ∈ (Text.trimEnd s).getLast?, Text.isSpace c = false := by
  refine ⟨(s.reverse.takeWhile Text.isSpace).reverse, ?_, ?_, ?_⟩
  · rw [Text.trimEnd, ← List.reverse_append, List.takeWhile_append_dropWhile, List.reverse_reverse]
  · intro c member
    exact List.mem_takeWhile_imp (List.mem_reverse.mp member)
  · intro c final
    have last := List.head?_dropWhile_not Text.isSpace s.reverse
    rw [Text.trimEnd, List.getLast?_reverse] at final
    simpa [Option.mem_def.mp final] using last

/-- Trimming takes white space off the two ends of a text, and all of it. -/
theorem trim_parts (s : List Char) :
    ∃ before after, s = before ++ (Text.trim s ++ after) ∧
      (∀ c ∈ before, Text.isSpace c = true) ∧ (∀ c ∈ after, Text.isSpace c = true) ∧
      (∀ c ∈ (Text.trim s).head?, Text.isSpace c = false) ∧
      ∀ c ∈ (Text.trim s).getLast?, Text.isSpace c = false := by
  obtain ⟨after, split, trailing, last⟩ := trimEnd_parts (Text.trimStart s)
  refine ⟨s.takeWhile Text.isSpace, after, ?_, ?_, trailing, ?_, last⟩
  · rw [Text.trim, ← split, Text.trimStart, List.takeWhile_append_dropWhile]
  · exact fun c => List.mem_takeWhile_imp
  · intro c head
    -- What is trimmed at the end leaves the first character alone.
    have first := List.head?_dropWhile_not Text.isSpace s
    rw [← Text.trimStart, split, ← Text.trim] at first
    cases trimmed : Text.trim s with
    | nil => simp [trimmed] at head
    | cons d rest =>
      obtain rfl : d = c := by simpa [trimmed] using head
      simpa [trimmed] using first

theorem isSpace_of_trim_nil (empty : Text.trim s = []) : ∀ c ∈ s, Text.isSpace c = true := by
  obtain ⟨before, after, parts, leading, trailing, -⟩ := trim_parts s
  rw [empty, List.nil_append] at parts
  rw [parts]
  exact List.forall_mem_append.mpr ⟨leading, trailing⟩

theorem isSpace_newLine : Text.isSpace '\n' = true := by decide

theorem trim_after_spaces {a b : List Char} (empty : Text.trim a = []) :
    Text.trim (a ++ '\n' :: b) = Text.trim b := by
  obtain ⟨before, after, parts, leading, trailing, first, last⟩ := trim_parts b
  have regroup : a ++ '\n' :: b = (a ++ '\n' :: before) ++ (Text.trim b ++ after) := by
    conv_lhs => rw [parts]
    simp
  rw [regroup]
  refine trim_around ?_ trailing first last
  exact List.forall_mem_append.mpr
    ⟨isSpace_of_trim_nil empty, List.forall_mem_cons.mpr ⟨isSpace_newLine, leading⟩⟩

theorem trim_before_spaces {a b : List Char} (empty : Text.trim b = []) :
    Text.trim (a ++ '\n' :: b) = Text.trim a := by
  obtain ⟨before, after, parts, leading, trailing, first, last⟩ := trim_parts a
  have regroup : a ++ '\n' :: b = before ++ (Text.trim a ++ (after ++ '\n' :: b)) := by
    conv_lhs => rw [parts]
    simp
  rw [regroup]
  refine trim_around leading ?_ first last
  exact List.forall_mem_append.mpr
    ⟨trailing, List.forall_mem_cons.mpr ⟨isSpace_newLine, isSpace_of_trim_nil empty⟩⟩

/-- A text with blank ends is a text that trimming leaves alone, between blanks. -/
theorem blank_parts (blank : hasBlankEnds s = true) (nonempty : Text.trim s ≠ []) :
    ∃ before after, s = before ++ (Text.trim s ++ after) ∧
      (∀ c ∈ before, isBlank c = true) ∧ (∀ c ∈ after, isBlank c = true) ∧
      (∀ c ∈ (Text.trim s).head?, Text.isSpace c = false) ∧
      ∀ c ∈ (Text.trim s).getLast?, Text.isSpace c = false := by
  obtain ⟨before, after, parts, leading, trailing, first, last⟩ := trim_parts s
  have starts : s.takeWhile Text.isSpace = before := by
    conv_lhs => rw [parts]
    exact takeWhile_spaces leading first nonempty after
  have ends : s.reverse.takeWhile Text.isSpace = after.reverse := by
    conv_lhs => rw [parts]
    rw [List.reverse_append, List.reverse_append, List.append_assoc]
    refine takeWhile_spaces (by simpa using trailing) ?_ (by simpa using nonempty) _
    simpa [List.head?_reverse] using last
  rw [hasBlankEnds, starts, ends] at blank
  simp only [Bool.and_eq_true, List.all_eq_true, List.mem_reverse] at blank
  exact ⟨before, after, parts, blank.1, blank.2, first, last⟩

/-- Between two documents there are blanks only. -/
theorem trim_between {a b : List Char} (blankA : hasBlankEnds a = true)
    (blankB : hasBlankEnds b = true) (someA : Text.trim a ≠ []) (someB : Text.trim b ≠ []) :
    ∃ gap, (∀ c ∈ gap, isBlank c = true) ∧
      Text.trim (a ++ '\n' :: b) = Text.trim a ++ (gap ++ Text.trim b) := by
  obtain ⟨beforeA, afterA, partsA, leadingA, trailingA, firstA, lastA⟩ := blank_parts blankA someA
  obtain ⟨beforeB, afterB, partsB, leadingB, trailingB, firstB, lastB⟩ := blank_parts blankB someB
  -- The gap is the end of one document, the line feed and the start of the other.
  refine ⟨afterA ++ '\n' :: beforeB, ?_, ?_⟩
  · exact List.forall_mem_append.mpr
      ⟨trailingA, List.forall_mem_cons.mpr ⟨by decide, leadingB⟩⟩
  · have regroup : a ++ '\n' :: b =
        beforeA ++ ((Text.trim a ++ ((afterA ++ '\n' :: beforeB) ++ Text.trim b)) ++ afterB) := by
      conv_lhs => rw [partsA, partsB]
      simp
    rw [regroup]
    refine trim_around (fun c member => isSpace_of_blank (leadingA c member))
      (fun c member => isSpace_of_blank (trailingB c member)) ?_ ?_
    · intro c head
      rw [List.head?_append_of_ne_nil _ someA] at head
      exact firstA c head
    · intro c final
      rw [List.getLast?_append_of_ne_nil _ (by simp),
        List.getLast?_append_of_ne_nil _ someB] at final
      exact lastB c final

theorem hasBlankEnds_around {before text after : List Char}
    (leading : ∀ c ∈ before, isBlank c = true) (trailing : ∀ c ∈ after, isBlank c = true)
    (first : ∀ c ∈ text.head?, Text.isSpace c = false)
    (last : ∀ c ∈ text.getLast?, Text.isSpace c = false) (nonempty : text ≠ []) :
    hasBlankEnds (before ++ (text ++ after)) = true := by
  have starts : (before ++ (text ++ after)).takeWhile Text.isSpace = before :=
    takeWhile_spaces (fun c member => isSpace_of_blank (leading c member)) first nonempty after
  have ends : (before ++ (text ++ after)).reverse.takeWhile Text.isSpace = after.reverse := by
    rw [List.reverse_append, List.reverse_append, List.append_assoc]
    refine takeWhile_spaces ?_ ?_ (by simpa using nonempty) _
    · intro c member
      exact isSpace_of_blank (trailing c (List.mem_reverse.mp member))
    · simpa [List.head?_reverse] using last
  rw [hasBlankEnds, starts, ends, List.all_reverse, Bool.and_eq_true, List.all_eq_true,
    List.all_eq_true]
  exact ⟨leading, trailing⟩

/-- The white space at the start of a text runs on into the next one if there is nothing else. -/
theorem all_takeWhile_append {p q : Char → Bool} (first : (s.takeWhile p).all q = true)
    (second : (t.takeWhile p).all q = true) : ((s ++ t).takeWhile p).all q = true := by
  rw [List.takeWhile_append]
  split
  next whole =>
    rw [List.Sublist.eq_of_length (List.takeWhile_sublist p) whole] at first
    rw [List.all_append, first, second, Bool.and_self]
  next => exact first

theorem hasBlankEnds_append {a b : List Char} (blankA : hasBlankEnds a = true)
    (blankB : hasBlankEnds b = true) : hasBlankEnds (a ++ '\n' :: b) = true := by
  rw [hasBlankEnds, Bool.and_eq_true] at blankA blankB ⊢
  have line : (['\n'].takeWhile Text.isSpace).all isBlank = true := by decide
  constructor
  · exact all_takeWhile_append blankA.1 (all_takeWhile_append (s := ['\n']) line blankB.1)
  · rw [List.reverse_append, List.reverse_cons]
    exact all_takeWhile_append (all_takeWhile_append blankB.2 line) blankA.2

/-! ## Two documents -/

theorem skipBlanks_gap_append {gap : List Char} (blank : ∀ c ∈ gap, isBlank c = true)
    (s : List Char) : skipBlanks (gap ++ s) = skipBlanks s := by
  induction gap with
  | nil => rfl
  | cons c gap ih =>
    rw [List.forall_mem_cons] at blank
    rw [List.cons_append, skipBlanks_of_some (blank?_blank blank.1 _), ih blank.2]

theorem parse_append {a b : List Char} {as bs : List (Annotated DefinitionForm)}
    (blankA : hasBlankEnds a = true) (blankB : hasBlankEnds b = true) (parsedA : parse a = .ok as)
    (parsedB : parse b = .ok bs) : parse (a ++ '\n' :: b) = .ok (as ++ bs) := by
  rw [parse_eq_ok_iff] at parsedA parsedB ⊢
  by_cases someA : Text.trim a = []
  · rw [someA] at parsedA
    obtain ⟨rfl, -⟩ := rounds_nil parsedA
    rw [trim_after_spaces someA]
    exact parsedB
  by_cases someB : Text.trim b = []
  · rw [someB] at parsedB
    obtain ⟨rfl, -⟩ := rounds_nil parsedB
    rw [trim_before_spaces someB, List.append_nil]
    exact parsedA
  obtain ⟨gap, blank, trimmed⟩ := trim_between blankA blankB someA someB
  rw [trimmed]
  -- Both documents are read at a level that is deep enough for the two together.
  generalize size : (Text.trim a ++ (gap ++ Text.trim b)).length = n
  simp only [List.length_append] at size
  have first : Rounds (definition (nested (n + 1))) (Text.trim a ++ (gap ++ Text.trim b)) as
      (skipBlanks (Text.trim b)) := by
    rw [← skipBlanks_gap_append blank]
    exact rounds_before (by omega) (Nat.lt_succ_self _) parsedA someA _
  have second : Rounds (definition (nested (n + 1))) (Text.trim b) bs [] := by
    have deeper := rounds_before (m := n + 1) (by omega) (Nat.lt_succ_self _) parsedB someB []
    rwa [List.append_nil] at deeper
  exact first.append (rounds_skipBlanks (by omega) second)

theorem read_eq_ok_iff {text : List Char} {ds : List Idl.Definition} :
    read text = .ok ds ↔ ∃ forms, parse text = .ok forms ∧ forms.map DefinitionForm.lower = ds := by
  rw [read]
  cases parse text <;> simp [Except.map]

/-- A document of one statement is read with anything after it. -/
theorem definition_of_read {text : List Char} {d : Idl.Definition} (reads : read text = .ok [d])
    (trimmed : Text.trim text = text) (deep : text.length < n + 1) (more : List Char) :
    ∃ form, definition (nested (n + 1)) (text ++ more) = some (form, skipBlanks more) ∧
      DefinitionForm.lower form = d := by
  obtain ⟨forms, parsed, lowered⟩ := read_eq_ok_iff.mp reads
  obtain ⟨form, rfl, isMeaning⟩ := List.map_eq_singleton_iff.mp lowered
  rw [parse_eq_ok_iff, trimmed] at parsed
  have nonempty : text ≠ [] := by
    rintro rfl
    exact absurd (rounds_nil parsed).1 (by simp)
  have rounds := rounds_before deep (Nat.lt_succ_self _) parsed nonempty more
  cases rounds with
  | round reads _ others =>
    cases others with
    | done => exact ⟨form, reads, isMeaning⟩

/-- Reading is local: what a document says does not depend on the documents around it. -/
theorem read_append {a b : List Char} (blankA : hasBlankEnds a = true)
    (blankB : hasBlankEnds b = true) {as bs : List Idl.Definition} (readA : read a = .ok as)
    (readB : read b = .ok bs) : read (a ++ '\n' :: b) = .ok (as ++ bs) := by
  obtain ⟨formsA, parsedA, rfl⟩ := read_eq_ok_iff.mp readA
  obtain ⟨formsB, parsedB, rfl⟩ := read_eq_ok_iff.mp readB
  exact read_eq_ok_iff.mpr
    ⟨formsA ++ formsB, parse_append blankA blankB parsedA parsedB, List.map_append⟩

/-- A document with a comment at its end and the start of one in a string. -/
def openingDocument : List Char :=
  " enum A \x7b \"/*\" \x7d; /* x */\n".toList

/-- A document with the end of a comment in a string. -/
def closingDocument : List Char :=
  "\tenum B \x7b \"*/\" \x7d;".toList

theorem read_append_strings :
    hasBlankEnds openingDocument = true ∧ hasBlankEnds closingDocument = true ∧
      read openingDocument = .ok [.enumeration "A" ["/*"]] ∧
      read closingDocument = .ok [.enumeration "B" ["*/"]] ∧
      read (openingDocument ++ '\n' :: closingDocument) =
        .ok [.enumeration "A" ["/*"], .enumeration "B" ["*/"]] := by
  have blankA : hasBlankEnds openingDocument = true := by decide +kernel
  have blankB : hasBlankEnds closingDocument = true := by decide +kernel
  have readA : read openingDocument = .ok [.enumeration "A" ["/*"]] := by cbv
  have readB : read closingDocument = .ok [.enumeration "B" ["*/"]] := by cbv
  exact ⟨blankA, blankB, readA, readB, read_append blankA blankB readA readB⟩

end IdlTypings.Grammar
