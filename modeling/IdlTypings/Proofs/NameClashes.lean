import Mathlib
import IdlTypings.Proofs.PlainBodies
import IdlTypings.Proofs.Reports

/-! # Names that are declared twice

A forward declaration is read as a name for any type, also where the interface is defined on another
line, and the prelude brings names of its own.  Nothing compares the names, so one of them may be
declared both as an alias and as an interface.

* `readDocument_lines`: what is read from a text of lines comes from these lines and the prelude.  The
  tail behind the lines is left whole, so the bracket that ends a definition is one of the text, and
  behind it another line begins (`definition_laid`).
* `readIn_of_plain`: where the bodies are plain, every line is read.
* `clashes_lines`: a name clashes only if it is given twice, and with plain bodies every such name
  does.
-/

namespace IdlTypings.Dialect.Gecko

open Grammar IdlTypings.Parser

variable {tail : Tail} {lines : List Line} {s t : List Char} {n : Nat}

/-! ## Reading a line -/

/-- A name for any type is read as one, whatever follows it. -/
theorem definition_aliasText (name : Name) (deep : (aliasText name).length ≤ n) (rest : List Char) :
    ∃ form, definition (nested (n + 1)) (aliasText name ++ rest) = some (form, skipBlanks rest) ∧
      DefinitionForm.lower form = renamed name.text "any" := by
  -- The text is a document of one definition, written out token by token.
  have known : isWord "any" = true := by decide
  have last (m : Mark) : spell lineLayout [.mark m] = [m.char] := rfl
  have text : aliasText name = [] ++ (spell lineLayout
      (documentTokens lineLayout [renamed name.text "any"]) ++ []) := by
    unfold aliasText
    simp [documentTokens, renamed, definitionTokens, typeTokens, nameTokens_word, known, last,
      beforeMark]
  have writable : ∀ d ∈ [renamed name.text "any"], WritableDefinition d := by
    simpa using ⟨name.isIdentifier, .any⟩
  obtain ⟨-, forms, parsed, lowered⟩ := parse_lines lineLayout (by simp) writable (List.forall_mem_nil _)
    (List.forall_mem_nil _) text
  refine definition_of_read (read_eq_ok_iff.mpr ⟨forms, parsed, lowered⟩) ?_
    (Nat.lt_succ_of_le deep) rest
  rw [text, trim_document lineLayout writable (List.forall_mem_nil _) (List.forall_mem_nil _)]
  simp

/-- A definition is read from its bracket on. -/
theorem definition_openingText (name parent : Name) (n : Nat) (rest : List Char) :
    definition (nested (n + 1)) (openingText name parent ++ rest) =
      (closed (body (nested (n + 1)) (interfaceMember (nested (n + 1)))) ('\x7b' :: rest)).map
        fun found => (⟨none, .interface name.text (some parent.text) found.1⟩, found.2) := by
  have text : openingText name parent ++ rest = "interface".toList ++ ' ' :: (name.text.toList ++
      ' ' :: ':' :: ' ' :: (parent.text.toList ++ ' ' :: '\x7b' :: rest)) := by
    unfold openingText
    simp
  have colon : skipBlanks (' ' :: ':' :: ' ' :: (parent.text.toList ++ ' ' :: '\x7b' :: rest)) =
      ':' :: ' ' :: (parent.text.toList ++ ' ' :: '\x7b' :: rest) := by
    rw [skipBlanks_of_some (blank?_blank (by decide) _)]
    exact skipBlanks_of_none (blank?_solid (by simp [show isSolid ':' = true by decide]))
  rw [text]
  refine definition_interface (nested n) name.isIdentifier
    (ended_blank _) ?_ ?_
  · rw [colon]
    exact identifier_none (by decide) _
  · simp [colon, inheritance_text parent.isIdentifier.word]

/-! ## Places between the lines -/

/-- Where a statement begins: at a line, or at the tail behind all of them. -/
inductive Place (tail : Tail) (lines : List Line) : List Char → Prop where
  | tail : Place tail lines (tail.left 0)
  | forward {name : Name} {s : List Char} (member : .forward name ∈ lines)
      (laid : Laid aliasText lines s) :
      Place tail lines (aliasText name ++ (s ++ '\n' :: tail.left 0))
  | definition {name parent : Name} {body : Body} {s : List Char}
      (member : .definition name parent body ∈ lines)
      (laid : Laid aliasText lines (openingText name parent ++ s)) :
      Place tail lines (openingText name parent ++ (s ++ '\n' :: tail.left 0))

theorem head?_aliasText (name : Name) (rest : List Char) :
    (aliasText name ++ rest).head? = some 't' := by
  unfold aliasText
  simp

theorem head?_openingText (name parent : Name) (rest : List Char) :
    (openingText name parent ++ rest).head? = some 'i' := by
  unfold openingText
  simp

theorem skipBlanks_solid {c : Char} (first : s.head? = some c) (solid : isSolid c = true) :
    skipBlanks s = s :=
  skipBlanks_of_none (blank?_solid (by simpa [first] using solid))

theorem skipBlanks_newLine (s : List Char) : skipBlanks ('\n' :: s) = skipBlanks s :=
  skipBlanks_of_some (blank?_blank (by decide) s)

theorem Place.ne_nil (place : Place tail lines s) : s ≠ [] := by
  rintro rfl
  -- The cases are over the text, which has to be a variable.
  generalize empty : ([] : List Char) = s at place
  cases place with
  | tail =>
    rw [tail.left_zero] at empty
    simp at empty
  | @forward name s =>
    have first := head?_aliasText name (s ++ '\n' :: tail.left 0)
    rw [← empty] at first
    cases first
  | @definition name parent _ s =>
    have first := head?_openingText name parent (s ++ '\n' :: tail.left 0)
    rw [← empty] at first
    cases first

theorem Place.length_le (place : Place tail lines s) : (tail.left 0).length ≤ s.length := by
  cases place with
  | tail => exact Nat.le_refl _
  | forward member laid =>
    simp only [List.length_append, List.length_cons]
    omega
  | definition member laid =>
    simp only [List.length_append, List.length_cons]
    omega

/-- Behind a part of the text where lines begin, blanks lead to a place. -/
theorem place_skipBlanks (laid : Laid aliasText lines s) :
    Place tail lines (skipBlanks (s ++ '\n' :: tail.left 0)) := by
  have begins := laid.begins
  induction begins with
  | nil =>
    rw [List.nil_append, skipBlanks_newLine, tail.skipBlanks_left]
    exact .tail
  | newLine begins ih =>
    rw [List.cons_append, skipBlanks_newLine]
    exact ih (laid.suffix begins (List.suffix_cons _ _))
  | forward member begins _ _ =>
    rw [List.append_assoc, skipBlanks_solid (head?_aliasText _ _) (by decide)]
    exact .forward member (laid.suffix begins (List.suffix_append _ _))
  | definition member s =>
    rw [List.append_assoc, skipBlanks_solid (head?_openingText _ _ _) (by decide)]
    exact .definition member laid

/-- Only line feeds are trimmed before the lines. -/
theorem trim_begins (ends : ∀ c ∈ (tail.left 0).getLast?, Text.isSpace c = false)
    (begins : Begins aliasText lines s) :
    Text.trim (s ++ '\n' :: (tail.left 0 ++ ['\n'])) =
      skipBlanks (s ++ '\n' :: tail.left 0) := by
  have starts {own : List Char} {c : Char} (first : own.head? = some c) (solid : isSolid c = true) :
      Text.trim (own ++ '\n' :: (tail.left 0 ++ ['\n'])) =
        skipBlanks (own ++ '\n' :: tail.left 0) := by
    obtain ⟨rest, rfl⟩ := List.head?_eq_some_iff.mp first
    have trimmed : Text.trim ([] ++ (c :: rest ++ '\n' :: (tail.left 0 ++ ['\n']))) =
        c :: rest ++ '\n' :: tail.left 0 :=
      trim_before_left ends (List.forall_mem_nil _) (by simp_all [isSolid]) (by simp)
    rw [List.nil_append] at trimmed
    rw [trimmed, skipBlanks_solid rfl solid]
  -- The induction goes through the line feeds; every other start has a solid character in front.
  induction begins with
  | nil =>
    rw [trim_after_spaces rfl, trim_left ends, List.nil_append, skipBlanks_newLine,
      tail.skipBlanks_left]
  | newLine begins ih =>
    rw [List.cons_append, List.cons_append, skipBlanks_newLine, ← ih]
    exact trim_after_spaces (a := []) rfl
  | forward member _ _ _ => exact starts (head?_aliasText _ _) (by decide)
  | definition member s => exact starts (head?_openingText _ _ _) (by decide)

/-! ## Reading from place to place -/

/-- What the lines of a text may be read as. -/
inductive Declared (lines : List Line) : Idl.Definition → Prop where
  | forward {name : Name} (member : .forward name ∈ lines) :
      Declared lines (renamed name.text "any")
  | definition {name parent : Name} {body : Body} (member : .definition name parent body ∈ lines)
      (members : List Idl.Member) :
      Declared lines (.interface ⟨name.text, some parent.text, members, []⟩)

/-- The bracket at the end of a definition stands before the tail, when the tail is left. -/
theorem closes_before_tail {u v w : List Char}
    (split : s ++ '\n' :: tail.left 0 = u ++ '\x7d' :: v) (ends : skipBlanks v = ';' :: w)
    (left : (tail.left 0).length ≤ (skipBlanks w).length) :
    ∃ v', s = u ++ '\x7d' :: v' ∧ v = v' ++ '\n' :: tail.left 0 := by
  rcases List.append_eq_append_iff.mp split with ⟨v', before, after⟩ | ⟨v', before, after⟩
  · -- A bracket of the tail would leave less than the tail.
    have shorter := length_skipBlanks v
    have shorter' := length_skipBlanks w
    have counted := congrArg List.length after
    simp only [ends, List.length_cons, List.length_append] at shorter counted
    omega
  · cases v' with
    | nil =>
      obtain ⟨mark, -⟩ := List.cons.inj after
      exact absurd mark (by decide)
    | cons c v' =>
      obtain ⟨rfl, same⟩ := List.cons.inj after
      exact ⟨v', before, same⟩

section

variable {d : Annotated DefinitionForm} {kept : List (Annotated DefinitionForm)} {name : String}
  {type : Idl.IdlType} (names : DefinitionForm.lower d = .typedef name type)
  (alone : Rounds (definition (nested (n + 1))) (tail.left 0) (d :: kept) [])

include names alone

/-- A definition is read as an interface, up to a place where lines begin again. -/
theorem definition_laid {own parent : Name} {x : Annotated DefinitionForm}
    (laid : Laid aliasText lines (openingText own parent ++ s))
    (reads : definition (nested (n + 1)) (openingText own parent ++ (s ++ '\n' ::
      tail.left 0)) = some (x, t)) :
    (∃ members, DefinitionForm.lower x = .interface ⟨own.text, some parent.text, members, []⟩) ∧
      ∃ w, Laid aliasText lines w ∧ t = skipBlanks (w ++ '\n' :: tail.left 0) := by
  have border := reads
  rw [definition_openingText, Option.map_eq_some_iff] at reads
  obtain ⟨⟨members, _⟩, reads, same⟩ := reads
  cases same
  refine ⟨⟨_, rfl⟩, ?_⟩
  obtain ⟨u, v, w, split, semicolon, rfl⟩ := closed_body reads
  obtain ⟨u, -, split⟩ := Text.mark_behind (t := ['\x7b']) (by simp) split
  -- The tail is left whole, so the bracket is none of its own.
  have left : (tail.left 0).length ≤ (skipBlanks w).length := by
    obtain ⟨r, first⟩ := List.head?_eq_some_iff.mp (head?_openingText own parent s)
    have stands : tail.At 0 (openingText own parent ++ (s ++ '\n' :: tail.left 0)) := by
      rw [← List.append_assoc, first]
      exact .before (skipBlanks_solid rfl (by decide))
    rcases definition_border stands border with ⟨j, few, stands'⟩ | form
    · exact stands'.length_le few
    · cases alone with
      | round readsFirst _ _ =>
        rw [definition_left, form] at readsFirst
        cases readsFirst
        cases names
  obtain ⟨v, rfl, rfl⟩ := closes_before_tail split semicolon left
  obtain ⟨w', rfl, begins, -⟩ := laid.closes (openingText own parent ++ u) v (by simp)
  rw [List.cons_append, skipBlanks_solid rfl (by decide)] at semicolon
  obtain ⟨-, rfl⟩ := List.cons.inj semicolon
  exact ⟨w', laid.suffix begins ⟨openingText own parent ++ u ++ ['\x7d', ';'], by simp⟩, rfl⟩

/-- The statements from a place on are those of lines, and then those of the tail. -/
theorem rounds_place {forms : List (Annotated DefinitionForm)} (place : Place tail lines s)
    (short : s.length ≤ n) (rounds : Rounds (definition (nested (n + 1))) s forms []) :
    ∃ own, forms = own ++ (d :: kept) ∧ ∀ x ∈ own, Declared lines (DefinitionForm.lower x) := by
  generalize ends : ([] : List Char) = u at rounds
  induction rounds with
  | done => exact absurd ends.symm place.ne_nil
  | @round s t u x xs reads shorter rest ih =>
    subst ends
    -- Behind the statement of a line the text is at a place again, where the hypothesis applies.
    have further (w : List Char) (laid : Laid aliasText lines w)
        (behind : t = skipBlanks (w ++ '\n' :: tail.left 0))
        (declared : Declared lines (DefinitionForm.lower x)) :
        ∃ own, x :: xs = own ++ (d :: kept) ∧ ∀ x ∈ own, Declared lines (DefinitionForm.lower x) := by
      obtain ⟨own, rfl, all⟩ := ih (behind ▸ place_skipBlanks laid) (by omega) rfl
      exact ⟨x :: own, rfl, List.forall_mem_cons.mpr ⟨declared, all⟩⟩
    cases place with
    | tail =>
      refine ⟨[], ?_, List.forall_mem_nil _⟩
      exact rounds_unique (definition_nil n) (.round reads shorter rest) alone
    | @forward name s member laid =>
      have deep : (aliasText name).length ≤ n := by
        rw [List.length_append] at short
        omega
      obtain ⟨form, reads', lowered⟩ :=
        definition_aliasText name deep (s ++ '\n' :: tail.left 0)
      rw [reads'] at reads
      cases reads
      exact further s laid rfl (lowered ▸ .forward member)
    | definition member laid =>
      obtain ⟨⟨members, lowered⟩, w, laid', behind⟩ := definition_laid names alone laid reads
      exact further w laid' behind (lowered ▸ .definition member members)

end

/-- A text of lines that is read at all is read as lines of it, with the prelude behind them. -/
theorem readDocument_lines {options : Options} (gecko : options.gecko = true)
    {ds : List Idl.Definition} (reads : readDocument options (documentText lines) = .ok ds) :
    ∃ own, ds = own ++ (preludeTypes ++ [.interface preludeInterface]) ∧
      ∀ d ∈ own, Declared lines d := by
  have laid := laid_edited options lines
  rw [readDocument, mend_edited gecko, prelude_tail] at reads
  obtain ⟨forms, parsed, rfl⟩ := read_eq_ok_iff.mp reads
  rw [parse_eq_ok_iff, trim_begins isSpace_prelude_end laid.begins] at parsed
  have place : Place preludeTail lines _ := place_skipBlanks laid
  generalize skipBlanks (edited options (documentText lines) ++ '\n' :: preludeTail.left 0) = s
    at parsed place
  obtain ⟨-, keptForms, alone, lowered⟩ := parse_prelude
  rw [prelude_tail] at alone
  -- The prelude begins with a name for a type, at which the lines come to their end.
  cases keptForms with
  | nil => simp [preludeTypes] at lowered
  | cons d kept =>
    have names : DefinitionForm.lower d = renamed "AString" "string" := (List.cons.inj lowered).1
    obtain ⟨own, rfl, declared⟩ := rounds_place names
      (rounds_left isSpace_prelude_end alone place.length_le) place (Nat.le_refl _) parsed
    refine ⟨own.map DefinitionForm.lower, by rw [List.map_append, lowered], ?_⟩
    simpa using declared

/-! ## Plain lines, one by one -/

theorem bounded_of_plain {d : Nat} {u : List Char} (plain : u.all isPlain = true)
    (rest : Bounded d s) : Bounded d (u ++ s) := by
  induction u with
  | nil => exact rest
  | cons c u ih =>
    rw [List.all_cons, Bool.and_eq_true] at plain
    exact (bounded_plain plain.1).mp (ih plain.2)

/-- Inside brackets a semicolon ends nothing. -/
theorem bounded_of_inner {d : Nat} {u : List Char} (inner : ∀ c ∈ u, isInner c = true)
    (rest : Bounded (d + 1) s) : Bounded (d + 1) (u ++ s) := by
  induction u with
  | nil => exact rest
  | cons c u ih =>
    rw [List.forall_mem_cons] at inner
    by_cases semicolon : c = ';'
    · subst semicolon
      exact bounded_inside.mp (ih inner.2)
    · refine (bounded_plain ?_).mp (ih inner.2)
      have known := inner.1
      simp_all [isInner, isPlain]

theorem bounded_definition (name parent : Name) {inner : List Char}
    (all : ∀ c ∈ inner, isInner c = true) :
    Bounded 0 (openingText name parent ++ (inner ++ "\x7d;".toList)) := by
  have head : openingText name parent = ("interface ".toList ++ name.text.toList ++ " : ".toList ++
      parent.text.toList ++ [' ']) ++ ['\x7b'] := by
    unfold openingText
    simp
  have ascii : isFlatClass Text.isAsciiWord = true := by decide
  have plain (name : Name) : name.text.toList.all isPlain = true :=
    name.all fun _ word => isPlain_of_flat (isFlat_of_class ascii word)
  have inside : Bounded 1 (inner ++ "\x7d;".toList) :=
    bounded_of_inner all (bounded_closing.mp bounded_here)
  rw [head, List.append_assoc]
  refine bounded_of_plain ?_ (bounded_opening.mp inside)
  simp only [List.all_append, plain]
  decide

/-- A definition with a plain body is read to its end and not further. -/
theorem definition_plain {name parent : Name} {inner rest : List Char} {x : Annotated DefinitionForm}
    (all : ∀ c ∈ inner, isInner c = true)
    (short : (openingText name parent ++ (inner ++ "\x7d;".toList)).length ≤ n)
    (reads : definition (nested (n + 1)) (openingText name parent ++ (inner ++ "\x7d;".toList) ++
      rest) = some (x, t)) :
    (∃ members, DefinitionForm.lower x = .interface ⟨name.text, some parent.text, members, []⟩) ∧
      t = skipBlanks rest := by
  -- The line is bounded, so it is read with more behind it exactly as it is read alone.
  have closing : Closing rest (n + 1) (definition (nested (n + 1))) (definition (nested (n + 1))) :=
    closing_definition (nested_agree (Nat.le_refl _))
  have bounded := bounded_definition name parent all
  cases alone : definition (nested (n + 1))
      (openingText name parent ++ (inner ++ "\x7d;".toList)) with
  | none =>
    rw [closing.fails (Nat.lt_succ_of_le short) alone bounded] at reads
    cases reads
  | some result =>
    obtain ⟨form, left⟩ := result
    obtain ⟨more, ended, -, -, longer⟩ := closing.closes (Nat.lt_succ_of_le short) alone
    rw [longer] at reads
    cases reads
    rw [definition_openingText, Option.map_eq_some_iff] at alone
    obtain ⟨⟨members, _⟩, alone, same⟩ := alone
    cases same
    refine ⟨⟨_, rfl⟩, ?_⟩
    -- There is one closing bracket only, so nothing is left of the line.
    obtain ⟨u, v, w, split, semicolon, rfl⟩ := closed_body alone
    have missing : '\x7d' ∉ '\x7b' :: inner := by
      have unclosed : '\x7d' ∉ inner := fun member => absurd (all _ member) (by decide)
      simp [unclosed]
    obtain ⟨u', -, behind⟩ := Text.mark_behind (s := ['\x7d', ';']) missing split
    obtain rfl : v = [';'] := by
      cases u' with
      | nil => exact (List.cons.inj behind).2.symm
      | cons c u' =>
        have marks := congrArg (List.count '\x7d') (List.cons.inj behind).2
        simp at marks
    obtain ⟨-, rfl⟩ := List.cons.inj ((skipBlanks_solid rfl (by decide)).symm.trans semicolon)
    rw [skipBlanks_append, ← ended]
    rfl

/-- A line is read as one of some definitions. -/
def Line.ReadIn (ds : List Idl.Definition) : Line → Prop
  | .blank => True
  | .forward name => renamed name.text "any" ∈ ds
  | .definition name parent _ =>
    ∃ members, .interface ⟨name.text, some parent.text, members, []⟩ ∈ ds

theorem Line.ReadIn.mono {line : Line} {ds ds' : List Idl.Definition} (part : ds ⊆ ds')
    (readIn : line.ReadIn ds) : line.ReadIn ds' := by
  cases line with
  | blank => trivial
  | forward name => exact part readIn
  | definition name parent body =>
    obtain ⟨members, member⟩ := readIn
    exact ⟨members, part member⟩

theorem rounds_of_head? {c : Char} {forms : List (Annotated DefinitionForm)}
    (first : s.head? = some c) (rounds : Rounds (definition (nested n)) s forms []) :
    ∃ x others t, forms = x :: others ∧ definition (nested n) s = some (x, t) ∧
      Rounds (definition (nested n)) t others [] := by
  cases rounds with
  | done => cases first
  | round reads _ others => exact ⟨_, _, _, rfl, reads, others⟩

/-- A plain line is read first, and the others behind it. -/
theorem rounds_line {line : Line} {r : List Char} {forms : List (Annotated DefinitionForm)}
    (spelled : Spelled isInner aliasText line s) (short : (skipBlanks (s ++ r)).length ≤ n)
    (rounds : Rounds (definition (nested (n + 1))) (skipBlanks (s ++ r)) forms []) :
    ∃ others, Rounds (definition (nested (n + 1))) (skipBlanks r) others [] ∧
      (skipBlanks r).length ≤ n ∧ others ⊆ forms ∧ line.ReadIn (forms.map DefinitionForm.lower) := by
  have shorter := length_skipBlanks r
  cases spelled with
  | blank => exact ⟨forms, rounds, short, List.Subset.refl _, trivial⟩
  | forward name =>
    have first := head?_aliasText name r
    rw [skipBlanks_solid first (by decide)] at rounds short
    rw [List.length_append] at short
    have deep : (aliasText name).length ≤ n := by omega
    obtain ⟨x, others, t, rfl, reads, rest⟩ := rounds_of_head? first rounds
    obtain ⟨form, reads', lowered⟩ := definition_aliasText name deep r
    -- The text of the line is read as its own form, so this is the first round.
    rw [reads'] at reads
    cases reads
    exact ⟨others, rest, by omega, List.subset_cons_self _ _, by simp [Line.ReadIn, ← lowered]⟩
  | @definition name parent body inner all =>
    have first : (openingText name parent ++ (inner ++ "\x7d;".toList) ++ r).head? = some 'i' := by
      rw [List.append_assoc]
      exact head?_openingText name parent _
    rw [skipBlanks_solid first (by decide)] at rounds short
    obtain ⟨x, others, t, rfl, reads, rest⟩ := rounds_of_head? first rounds
    rw [List.length_append] at short
    obtain ⟨⟨members, lowered⟩, rfl⟩ := definition_plain all (by omega) reads
    exact ⟨others, rest, by omega, List.subset_cons_self _ _, members, by simp [← lowered]⟩

/-- Plain lines are all read. -/
theorem rounds_spelled {forms : List (Annotated DefinitionForm)}
    (spelled : SpelledLines isInner aliasText lines s)
    (short : (skipBlanks (s ++ '\n' :: t)).length ≤ n)
    (rounds : Rounds (definition (nested (n + 1))) (skipBlanks (s ++ '\n' :: t)) forms []) :
    ∀ line ∈ lines, line.ReadIn (forms.map DefinitionForm.lower) := by
  induction spelled generalizing forms with
  | nil => exact List.forall_mem_nil _
  | last spelled =>
    obtain ⟨_, -, -, -, readIn⟩ := rounds_line spelled short rounds
    simpa using readIn
  | more spelled _ ih =>
    rw [List.append_assoc, List.cons_append] at short rounds
    obtain ⟨others, rest, short', part, readIn⟩ := rounds_line spelled short rounds
    rw [skipBlanks_newLine] at rest short'
    refine List.forall_mem_cons.mpr ⟨readIn, fun line member => ?_⟩
    exact (ih short' rest line member).mono (List.map_subset _ part)

theorem readIn_of_plain {options : Options} (gecko : options.gecko = true)
    (plainText : options.emscripten = false) (plain : ∀ line ∈ lines, line.isPlain = true)
    {ds : List Idl.Definition} (reads : readDocument options (documentText lines) = .ok ds) :
    ∀ line ∈ lines, line.ReadIn ds := by
  rw [readDocument, mend_edited gecko, prelude_tail] at reads
  obtain ⟨forms, parsed, rfl⟩ := read_eq_ok_iff.mp reads
  rw [parse_eq_ok_iff, trim_begins isSpace_prelude_end (laid_edited options lines).begins] at parsed
  exact rounds_spelled (spelledLines_edited plainText plain) (Nat.le_refl _) parsed

/-! ## Names given twice -/

/-- The name that a line declares without defining it. -/
def Line.forwarded? : Line → Option String
  | .forward name => some name.text
  | .blank | .definition _ _ _ => none

def Line.defined? : Line → Option String
  | .definition name _ _ => some name.text
  | .blank | .forward _ => none

/-- The types that the prelude names. -/
def preludeAliases : List String :=
  ["AString", "ACString", "AUTF8String", "nsIIDRef", "nsQIResult", "MozExternalRefCountType"]

/-- A name that is declared by a line or names a type in the prelude, and that is also defined by a
    line or is the interface of the prelude. -/
def GivenTwice (lines : List Line) (name : String) : Prop :=
  (name ∈ lines.filterMap Line.forwarded? ∨ name ∈ preludeAliases) ∧
    (name ∈ lines.filterMap Line.defined? ∨ name = "nsISupports")

end IdlTypings.Dialect.Gecko

namespace IdlTypings

open Dialect.Gecko Idl TypeScript

/-- A name is declared both as a type alias and as an interface. -/
def Clashes (declarations : List Declaration) (name : String) : Prop :=
  (∃ type, .alias name type ∈ declarations) ∧
    ∃ heritage members, .interface name heritage members ∈ declarations

def Idl.Definition.aliasName? : Definition → Option String
  | .enumeration name _ | .callback name _ _ | .typedef name _ => some name
  | _ => none

def Idl.Definition.interfaceName? : Definition → Option String
  | .interface body | .mixin body | .dictionary body => some body.name
  | .includes target _ => some target
  | _ => none

theorem alias_mem_declareDefinition (accessors : Bool) (d : Definition) (name : String) :
    (∃ type, .alias name type ∈ (declareDefinition accessors d).value) ↔
      d.aliasName? = some name := by
  cases d with
  | interface body | mixin body | dictionary body =>
    simp [declareDefinition, declareInterface_value, Definition.aliasName?]
  | includes target included => simp [declareDefinition, Definition.aliasName?]
  | enumeration own values => simp [declareDefinition, Definition.aliasName?, eq_comm]
  | callback own arguments returns => simp [declareDefinition, Definition.aliasName?, eq_comm]
  | typedef own type => simp [declareDefinition, Definition.aliasName?, eq_comm]
  | unsupported node => simp [declareDefinition, Definition.aliasName?]

theorem interface_mem_declareDefinition (accessors : Bool) (d : Definition) (name : String) :
    (∃ heritage members, .interface name heritage members ∈ (declareDefinition accessors d).value) ↔
      d.interfaceName? = some name := by
  have named (body : Interface) : (∃ heritage members,
      .interface name heritage members ∈ (declareInterface accessors body).value) ↔
        some body.name = some name := by
    rw [declareInterface_value]
    constructor
    · rintro ⟨heritage, members, member⟩
      -- Behind the interface there is at most its global variable.
      rcases List.mem_cons.mp member with same | global
      · rw [(Declaration.interface.inj same).1]
      · split at global <;> simp at global
    · rintro ⟨⟩
      exact ⟨_, _, List.mem_cons_self⟩
  cases d with
  | interface body | mixin body | dictionary body => exact named body
  | includes target included => simp [declareDefinition, Definition.interfaceName?, eq_comm]
  | enumeration own values => simp [declareDefinition, Definition.interfaceName?]
  | callback own arguments returns => simp [declareDefinition, Definition.interfaceName?]
  | typedef own type => simp [declareDefinition, Definition.interfaceName?]
  | unsupported node => simp [declareDefinition, Definition.interfaceName?]

/-- A name clashes when one definition is declared as an alias of it and another as an interface. -/
theorem clashes_declare (options : Options) (ds : List Definition) (name : String) :
    Clashes (declare options ds).value name ↔
      (∃ d ∈ ds, d.aliasName? = some name) ∧ ∃ d ∈ ds, d.interfaceName? = some name := by
  simp only [Clashes, declare, declareAll_value, List.mem_flatMap,
    ← alias_mem_declareDefinition options.emscripten,
    ← interface_mem_declareDefinition options.emscripten]
  constructor
  · rintro ⟨⟨type, d, member, found⟩, heritage, members, d', member', found'⟩
    exact ⟨⟨d, member, type, found⟩, d', member', heritage, members, found'⟩
  · rintro ⟨⟨d, member, type, found⟩, d', member', heritage, members, found'⟩
    exact ⟨⟨type, d, member, found⟩, heritage, members, d', member', found'⟩

section

variable {lines : List Line} {own : List Definition} {name : String}

theorem mem_preludeAliases :
    name ∈ preludeAliases ↔ ∃ d ∈ preludeTypes, d.aliasName? = some name := by
  have names : preludeTypes.filterMap Definition.aliasName? = preludeAliases := rfl
  rw [← names, List.mem_filterMap]

/-- An alias comes from a line or from the prelude. -/
theorem given_of_alias (declared : ∀ d ∈ own, Declared lines d)
    (aliased : ∃ d ∈ own ++ (preludeTypes ++ [.interface preludeInterface]),
      d.aliasName? = some name) :
    name ∈ lines.filterMap Line.forwarded? ∨ name ∈ preludeAliases := by
  obtain ⟨d, member, named⟩ := aliased
  simp only [List.mem_append, List.mem_singleton] at member
  rcases member with member | member | rfl
  · cases declared d member with
    | forward line => exact .inl (List.mem_filterMap.mpr ⟨_, line, named⟩)
    | definition => cases named
  · exact .inr (mem_preludeAliases.mpr ⟨d, member, named⟩)
  · cases named

/-- An interface comes from a line or from the prelude. -/
theorem given_of_interface (declared : ∀ d ∈ own, Declared lines d)
    (defined : ∃ d ∈ own ++ (preludeTypes ++ [.interface preludeInterface]),
      d.interfaceName? = some name) :
    name ∈ lines.filterMap Line.defined? ∨ name = "nsISupports" := by
  have none : ∀ d ∈ preludeTypes, d.interfaceName? = none := by
    simp [preludeTypes, renamed, Definition.interfaceName?]
  obtain ⟨d, member, named⟩ := defined
  simp only [List.mem_append, List.mem_singleton] at member
  rcases member with member | member | rfl
  · cases declared d member with
    | forward => cases named
    | definition line => exact .inl (List.mem_filterMap.mpr ⟨_, line, named⟩)
  · rw [none d member] at named
    cases named
  · exact .inr (Option.some.inj named).symm

end

/-- A name clashes only if it is given twice.  Where no body has a bracket, a string, a comment or a
    number sign in it, every name that is given twice clashes. -/
theorem clashes_lines {options : Options} (gecko : options.gecko = true) {lines : List Line}
    {ds : List Definition} (reads : readDocument options (documentText lines) = .ok ds) :
    (∀ name, Clashes (declare options ds).value name → GivenTwice lines name) ∧
      (options.emscripten = false → (∀ line ∈ lines, line.isPlain = true) →
        ∀ name, GivenTwice lines name → Clashes (declare options ds).value name) := by
  obtain ⟨own, rfl, declared⟩ := readDocument_lines gecko reads
  refine ⟨fun name clashes => ?_, fun plainText plain name given => ?_⟩
  · obtain ⟨aliased, defined⟩ := (clashes_declare options _ name).mp clashes
    exact ⟨given_of_alias declared aliased, given_of_interface declared defined⟩
  · have readIn := readIn_of_plain gecko plainText plain reads
    obtain ⟨aliased, defined⟩ := given
    refine (clashes_declare options _ name).mpr ⟨?_, ?_⟩
    · rcases aliased with line | prelude
      · obtain ⟨line, member, named⟩ := List.mem_filterMap.mp line
        cases line with
        | forward forwarded => exact ⟨_, readIn _ member, named⟩
        | blank | definition _ _ _ => cases named
      · obtain ⟨d, member, named⟩ := mem_preludeAliases.mp prelude
        exact ⟨d, by simp [member], named⟩
    · rcases defined with line | rfl
      · obtain ⟨line, member, named⟩ := List.mem_filterMap.mp line
        cases line with
        | definition _ _ _ =>
          obtain ⟨members, member⟩ := readIn _ member
          exact ⟨_, member, named⟩
        | blank | forward _ => cases named
      · exact ⟨.interface preludeInterface, by simp, rfl⟩

/-- A name that is declared and then defined. -/
def twiceDeclared : List Line :=
  [.forward ⟨"A", by decide, by decide⟩,
    .definition ⟨"A", by decide, by decide⟩ ⟨"B", by decide, by decide⟩ ⟨[], by simp⟩, .blank]

/-- The lines as they are read. -/
def twiceDefined : List Definition :=
  [renamed "A" "any", .interface ⟨"A", some "B", [], []⟩]

/-- The lines after all edits. -/
def twiceEdited : List Char :=
  "typedef any A;\ninterface A : B \x7b\x7d;\n".toList

theorem readDocument_twiceDeclared : readDocument { gecko := true } (documentText twiceDeclared) =
    .ok (twiceDefined ++ (preludeTypes ++ [.interface preludeInterface])) := by
  have edits : edited { gecko := true } (documentText twiceDeclared) = twiceEdited := by
    decide +kernel
  have blankEnds : Grammar.hasBlankEnds twiceEdited = true := by decide +kernel
  have reads : Grammar.read twiceEdited = .ok twiceDefined := by cbv
  obtain ⟨forms, parsed, lowered⟩ := Grammar.read_eq_ok_iff.mp reads
  obtain ⟨blankPrelude, kept, parsedPrelude, loweredPrelude⟩ := parse_prelude
  rw [readDocument, mend_edited rfl, edits, Grammar.read_eq_ok_iff]
  refine ⟨forms ++ kept, Grammar.parse_append blankEnds blankPrelude parsed parsedPrelude, ?_⟩
  rw [List.map_append, lowered, loweredPrelude]

/-- A name that is declared and then defined is declared both as an alias and as an interface. -/
theorem clashes_twiceDeclared :
    ∃ ds, readDocument { gecko := true } (documentText twiceDeclared) = .ok ds ∧
      Clashes (declare { gecko := true } ds).value "A" := by
  refine ⟨_, readDocument_twiceDeclared, (clashes_declare _ _ _).mpr ⟨?_, ?_⟩⟩
  · exact ⟨renamed "A" "any", by simp [twiceDefined], rfl⟩
  · exact ⟨.interface ⟨"A", some "B", [], []⟩, by simp [twiceDefined], rfl⟩

/-- Only that name clashes: neither the parent nor the interface of the prelude does. -/
theorem clashes_lines_twiceDeclared :
    ∃ ds, readDocument { gecko := true } (documentText twiceDeclared) = .ok ds ∧
      (∀ line ∈ twiceDeclared, line.isPlain = true) ∧
        ∀ name, Clashes (declare { gecko := true } ds).value name ↔ name = "A" := by
  have plain : ∀ line ∈ twiceDeclared, line.isPlain = true := by decide +kernel
  refine ⟨_, readDocument_twiceDeclared, plain, fun name => ⟨fun clashes => ?_, ?_⟩⟩
  · obtain ⟨declared, defined⟩ := (clashes_lines rfl readDocument_twiceDeclared).1 name clashes
    simp only [twiceDeclared, List.filterMap_cons, Line.forwarded?, Line.defined?, List.filterMap_nil,
      List.mem_singleton] at declared defined
    rcases defined with rfl | rfl
    · rfl
    · exact absurd declared (by decide)
  · rintro rfl
    exact (clashes_lines rfl readDocument_twiceDeclared).2 rfl plain "A"
      ⟨.inl (by simp [twiceDeclared, Line.forwarded?]), .inl (by simp [twiceDeclared, Line.defined?])⟩

end IdlTypings
