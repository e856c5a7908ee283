import Mathlib
import IdlTypings.Typings.Basic
import IdlTypings.Proofs.DocumentAppend
import IdlTypings.Proofs.ImplementationStatements

/-! # Layouts of documents with statements

A statement of implementation becomes a line comment, and a line comment goes on to the next line feed.
So what is read of a document for Emscripten's binder depends on how it is laid out:

* what stands behind a statement on its line is lost, and nothing is reported;
* a document whose last line has a statement on it is not read at all, because nothing closes the
  comment.

`readDocument_layout` says so of the documents that are made of parts, as long as a definition behind a
statement ends on its line (`tidy`), and that nothing is lost in all others of them.

Documents are read part by part, with a flag that tells whether a comment is open: `rounds_kept` up to
the end of a document, `stops_in_comment` up to the comment that is not closed.
-/

namespace IdlTypings.Dialect.Emscripten

open IdlTypings.Parser IdlTypings.Text
open Grammar (headText definition nested skipBlanks blank? afterLine? DefinitionForm)

/-! ## Lines -/

/-- The definition that a statement is read as in plain WebIDL. -/
def Statement.meaning (statement : Statement) : Idl.Definition :=
  .unsupported ⟨"implements", none,
    Grammar.implementsSource none statement.child.text statement.parent.text⟩

/-- The definition of a part that is no statement. -/
def Part.definition? : Part → Option Idl.Definition
  | .interface b parent => some (.interface { b.meaning with parent := parent.map Name.text })
  | .passage p => some p.meaning
  | .statement _ | .gap _ => none

/-- The definition of a part in plain WebIDL. -/
def Part.plain? : Part → Option Idl.Definition
  | .statement s => some s.meaning
  | part => part.definition?

def Part.isGap : Part → Bool
  | .gap _ => true
  | _ => false

def Part.isLine (part : Part) : Bool :=
  !(part.write "").contains '\n'

/-- Whether a comment is open behind a part.  A statement opens one, a line feed closes it. -/
def Part.comments (commented : Bool) : Part → Bool
  | .statement _ => true
  | part => commented && part.isLine

/-- The parts that stand outside comments. -/
def kept : Bool → List Part → List Part
  | _, [] => []
  | commented, part :: parts =>
    (if commented then [] else [part]) ++ kept (part.comments commented) parts

/-- The parts that stand behind a statement on its line. -/
def covered : Bool → List Part → List Part
  | _, [] => []
  | commented, part :: parts =>
    (if commented then [part] else []) ++ covered (part.comments commented) parts

/-- Whether every definition behind a statement ends on its line. -/
def tidy : Bool → List Part → Bool
  | _, [] => true
  | commented, part :: parts =>
    (!commented || part.isLine || part.isGap) && tidy (part.comments commented) parts

/-- A document without the white space at its ends. -/
def core (parts : List Part) : List Part :=
  (parts.dropWhile Part.isGap).rdropWhile Part.isGap

/-- Whether there is a statement on the last line of a document. -/
def endsInComment (parts : List Part) : Bool :=
  (core parts).foldl Part.comments false

section

variable {commented : Bool} {parts : List Part}

theorem kept_append (a b : List Part) :
    kept commented (a ++ b) = kept commented a ++ kept (a.foldl Part.comments commented) b := by
  induction a generalizing commented with
  | nil => rfl
  | cons part a ih => rw [List.cons_append, kept, kept, ih, List.foldl_cons, List.append_assoc]

theorem tidy_append (a b : List Part) :
    tidy commented (a ++ b) = (tidy commented a && tidy (a.foldl Part.comments commented) b) := by
  induction a generalizing commented with
  | nil => rfl
  | cons part a ih => rw [List.cons_append, tidy, tidy, ih, List.foldl_cons, Bool.and_assoc]

theorem kept_sublist (commented : Bool) (parts : List Part) :
    (kept commented parts).Sublist parts := by
  induction parts generalizing commented with
  | nil => exact .slnil
  | cons part parts ih =>
    rw [kept]
    cases commented with
    | false => exact (ih _).cons_cons part
    | true => exact (ih _).cons part

/-- White space opens no comment. -/
theorem foldl_comments_gaps (gaps : ∀ part ∈ parts, part.isGap = true) :
    parts.foldl Part.comments false = false := by
  induction parts with
  | nil => rfl
  | cons part parts ih =>
    rw [List.forall_mem_cons] at gaps
    cases part with
    | gap g => exact ih gaps.2
    | interface _ _ | passage _ | statement _ => cases gaps.1

theorem definitions_gaps (gaps : ∀ part ∈ parts, part.isGap = true) :
    parts.filterMap Part.definition? = [] ∧ parts.filterMap Part.plain? = [] := by
  have nothing : ∀ part ∈ parts, part.definition? = none ∧ part.plain? = none := by
    intro part member
    have gap := gaps part member
    cases part with
    | gap g => exact ⟨rfl, rfl⟩
    | interface _ _ | passage _ | statement _ => cases gap
  simp only [List.filterMap_eq_nil_iff]
  exact ⟨fun part member => (nothing part member).1, fun part member => (nothing part member).2⟩

/-- A document is its core between white space. -/
theorem core_parts (parts : List Part) :
    ∃ before after, parts = before ++ (core parts ++ after) ∧
      (∀ part ∈ before, part.isGap = true) ∧ (∀ part ∈ after, part.isGap = true) := by
  refine ⟨parts.takeWhile Part.isGap, (parts.dropWhile Part.isGap).rtakeWhile Part.isGap, ?_, ?_, ?_⟩
  · rw [core, List.rdropWhile_append_rtakeWhile, List.takeWhile_append_dropWhile]
  · exact fun part => List.mem_takeWhile_imp
  · exact fun part => List.mem_rtakeWhile_imp

theorem core_head {part : Part} {others : List Part} (first : core parts = part :: others) :
    part.isGap = false := by
  have head := List.head?_dropWhile_not Part.isGap parts
  have whole : core parts ++ (parts.dropWhile Part.isGap).rtakeWhile Part.isGap =
      parts.dropWhile Part.isGap := List.rdropWhile_append_rtakeWhile
  rw [← whole, first] at head
  exact head

theorem core_last {last : Part} {others : List Part} (ends : core parts = others ++ [last]) :
    last.isGap = false := by
  have nonempty : core parts ≠ [] := by simp [ends]
  have final := List.rdropWhile_last_not Part.isGap (parts.dropWhile Part.isGap) nonempty
  change ¬ ((core parts).getLast nonempty).isGap = true at final
  simpa [ends] using final

theorem definitions_kept_core (parts : List Part) :
    (kept false (core parts)).filterMap Part.definition? =
      (kept false parts).filterMap Part.definition? := by
  obtain ⟨before, after, whole, leading, trailing⟩ := core_parts parts
  have nothing {gaps : List Part} (areGaps : ∀ part ∈ gaps, part.isGap = true) (c : Bool) :
      (kept c gaps).filterMap Part.definition? = [] :=
    (definitions_gaps fun part member => areGaps part ((kept_sublist c gaps).subset member)).1
  conv_rhs => rw [whole]
  rw [kept_append, kept_append, foldl_comments_gaps leading, List.filterMap_append,
    List.filterMap_append, nothing leading, nothing trailing, List.nil_append, List.append_nil]

/-- Only what stands before the last definition or statement matters for the end of a document. -/
theorem endsInComment_eq {others after : List Part} {last : Part} (noGap : last.isGap = false)
    (gaps : ∀ part ∈ after, part.isGap = true) :
    endsInComment (others ++ last :: after) =
      last.comments (others.foldl Part.comments false) := by
  have leading : (others ++ last :: after).dropWhile Part.isGap =
      others.dropWhile Part.isGap ++ last :: after := by
    induction others with
    | nil => simp [noGap]
    | cons part others ih => cases gap : part.isGap <;> simp [gap, ih]
  have trailing : ∀ part ∈ after.reverse, part.isGap = true := by simpa using gaps
  have whole : core (others ++ last :: after) = others.dropWhile Part.isGap ++ [last] := by
    rw [core, leading, List.rdropWhile, List.reverse_append, List.reverse_cons, List.append_assoc,
      List.dropWhile_append_of_pos trailing, List.singleton_append,
      List.dropWhile_cons_of_neg (by simp [noGap]), List.reverse_cons, List.reverse_reverse]
  have starts : (others.takeWhile Part.isGap).foldl Part.comments false = false :=
    foldl_comments_gaps fun part => List.mem_takeWhile_imp
  -- The core leaves out white space in front, which opens no comment.
  rw [endsInComment, whole, List.foldl_append]
  conv_rhs => rw [← List.takeWhile_append_dropWhile (p := Part.isGap) (l := others),
    List.foldl_append, starts]
  rfl

theorem tidy_core (lined : tidy false parts = true) : tidy false (core parts) = true := by
  obtain ⟨before, after, whole, leading, -⟩ := core_parts parts
  rw [whole, tidy_append, tidy_append, foldl_comments_gaps leading] at lined
  simp only [Bool.and_eq_true] at lined
  exact lined.2.1

theorem definitions_plain_core (parts : List Part) :
    (core parts).filterMap Part.plain? = parts.filterMap Part.plain? := by
  obtain ⟨before, after, whole, leading, trailing⟩ := core_parts parts
  conv_rhs => rw [whole]
  rw [List.filterMap_append, List.filterMap_append, (definitions_gaps leading).2,
    (definitions_gaps trailing).2, List.nil_append, List.append_nil]

end

/-! ## White space around a document -/

theorem Gap.isBlank (gap : Gap) : ∀ c ∈ gap.text.toList, Grammar.isBlank c = true :=
  List.all_eq_true.mp gap.blank

theorem write_append (mark : String) (a b : List Part) :
    write mark (a ++ b) = write mark a ++ write mark b :=
  List.flatMap_append

theorem isSpace_gaps (mark : String) {parts : List Part} (gaps : ∀ part ∈ parts, part.isGap = true) :
    ∀ c ∈ write mark parts, isSpace c = true := by
  intro c member
  obtain ⟨part, isPart, inside⟩ := List.mem_flatMap.mp member
  have gap := gaps part isPart
  cases part with
  | gap g => exact Grammar.isSpace_of_blank (g.isBlank c inside)
  | interface _ _ | passage _ | statement _ => cases gap

/-- A part that is no white space begins and ends with none. -/
theorem Part.write_ends {mark : String} (solid : ∀ c ∈ mark.toList.head?, isSpace c = false)
    {part : Part} (noGap : part.isGap = false) :
    (∃ c, (part.write mark).head? = some c ∧ isSpace c = false) ∧
      (part.write mark).getLast? = some ';' := by
  have ended (text : String) : (text ++ ";").toList.getLast? = some ';' := by
    rw [String.toList_append, List.getLast?_append_of_ne_nil _ (by simp)]
    simp
  cases part with
  | interface b parent =>
    refine ⟨⟨'i', ?_, by decide⟩, ?_⟩
    · cases parent <;> simp [Part.write, Block.write, headText]
    · rw [Part.write, Block.write, String.toList_append, List.getLast?_append_of_ne_nil _ (by simp)]
      simp
  | passage p =>
    refine ⟨?_, ended p.text⟩
    obtain ⟨c, rest, chars⟩ : ∃ c rest, (p.text ++ ";").toList = c :: rest :=
      List.exists_cons_of_ne_nil (by simp)
    have first := p.first c (by rw [chars]; rfl)
    rw [Grammar.isSolid, Bool.and_eq_true, Bool.not_eq_true'] at first
    exact ⟨c, by rw [Part.write, chars]; rfl, first.1⟩
  | statement s =>
    refine ⟨?_, by rw [Part.write, Statement.text, ← String.append_assoc]; exact ended _⟩
    -- Without a mark a statement begins with the name of its child.
    cases chars : mark.toList with
    | nil =>
      obtain ⟨c, rest, word, -, all⟩ := Grammar.isWord_cons s.child.isIdentifier.word
      have letter := Grammar.isSolid_of_nameChar (all c List.mem_cons_self)
      rw [Grammar.isSolid, Bool.and_eq_true, Bool.not_eq_true'] at letter
      exact ⟨c, by simp [Part.write, Statement.text, chars, word], letter.1⟩
    | cons c rest => exact ⟨c, by simp [Part.write, chars], solid c (by rw [chars]; rfl)⟩
  | gap g => cases noGap

theorem Part.trim_write {part : Part} (noGap : part.isGap = false) :
    trim (part.write "") = part.write "" := by
  obtain ⟨⟨c, starts, notSpace⟩, ends⟩ := Part.write_ends (show ∀ c ∈ "".toList.head?, _ by simp) noGap
  have around : trim ([] ++ (part.write "" ++ [])) = part.write "" :=
    Grammar.trim_around (List.forall_mem_nil _) (List.forall_mem_nil _)
      (by simp [starts, notSpace]) (by simp [ends, show isSpace ';' = false by decide])
  rwa [List.nil_append, List.append_nil] at around

/-- Trimming takes off the white space around a document. -/
theorem trim_write {mark : String} (solid : ∀ c ∈ mark.toList.head?, isSpace c = false)
    (parts : List Part) : trim (write mark parts) = write mark (core parts) := by
  obtain ⟨before, after, whole, leading, trailing⟩ := core_parts parts
  conv_lhs => rw [whole, write_append, write_append]
  refine Grammar.trim_around (isSpace_gaps mark leading) (isSpace_gaps mark trailing) ?_ ?_
  · cases first : core parts with
    | nil => simp [write]
    | cons part others =>
      obtain ⟨⟨c, starts, notSpace⟩, -⟩ := Part.write_ends solid (core_head first)
      simp [write, List.head?_append, starts, notSpace]
  · rcases List.eq_nil_or_concat' (core parts) with empty | ⟨others, last, ends⟩
    · simp [write, empty]
    · have final := (Part.write_ends solid (core_last ends)).2
      simp [write, ends, List.getLast?_append, final, show isSpace ';' = false by decide]

/-! ## Reading -/

theorem Block.write_head (block : Block) {parent : Option String} (more : List Char) :
    (block.write parent).toList ++ more = (headText block.name.text parent).toList ++
      '\x7b' :: (block.body.toList ++ '\x7d' :: ';' :: more) := by
  simp [Block.write]

theorem Block.length_write (block : Block) (parent : Option String) :
    (block.write none).toList.length ≤ (block.write parent).toList.length := by
  cases parent with
  | none => exact Nat.le_refl _
  | some parent =>
    simp [Block.write, headText]
    omega

/-- An interface is read with any parent and with anything after it. -/
theorem Block.reads_with (block : Block) (parent : Option Name) {n : Nat}
    (deep : (block.write none).toList.length < n + 1) (more : List Char) :
    ∃ form, definition (nested (n + 1)) ((block.write (parent.map Name.text)).toList ++ more) =
        some (form, skipBlanks more) ∧
      DefinitionForm.lower form =
        .interface { block.meaning with parent := parent.map Name.text } := by
  have trimmed : trim (block.write none).toList = (block.write none).toList :=
    show trim ((Part.interface block none).write "") = _ from Part.trim_write rfl
  obtain ⟨form, reads, isMeaning⟩ := Grammar.definition_of_read block.reads trimmed deep more
  -- The text at the bracket is the same under every head.
  change definition (nested n).step ((block.write none).toList ++ more) = _ at reads
  rw [block.write_head, Grammar.definition_head _ block.name.isIdentifier (by simp)] at reads
  obtain ⟨members, closes, same⟩ := Option.map_eq_some_iff.mp reads
  obtain ⟨rfl, rest⟩ := Prod.mk.inj same
  have isIdentifier : ∀ p ∈ parent.map Name.text, Grammar.IsIdentifier p := by
    intro p member
    obtain ⟨q, -, rfl⟩ := Option.map_eq_some_iff.mp member
    exact q.isIdentifier
  refine ⟨⟨none, .interface block.name.text (parent.map Name.text) members.1⟩, ?_, ?_⟩
  · change definition (nested n).step _ = _
    rw [block.write_head, Grammar.definition_head _ block.name.isIdentifier isIdentifier, closes,
      ← rest]
    rfl
  · rw [← Idl.Definition.interface.inj isMeaning]
    rfl

/-- A part that is a definition is read with anything after it. -/
theorem Part.reads_with {part : Part} {d : Idl.Definition} (isDefinition : part.definition? = some d)
    (mark : String) {n : Nat} (deep : (part.write mark).length < n + 1) (more : List Char) :
    ∃ form, definition (nested (n + 1)) (part.write mark ++ more) = some (form, skipBlanks more) ∧
      DefinitionForm.lower form = d := by
  cases part with
  | interface b parent =>
    obtain rfl := Option.some.inj isDefinition
    exact b.reads_with parent (Nat.lt_of_le_of_lt (b.length_write _) deep) more
  | passage p =>
    obtain rfl := Option.some.inj isDefinition
    have trimmed : trim ((Part.passage p).write "") = (Part.passage p).write "" :=
      Part.trim_write rfl
    exact Grammar.definition_of_read p.reads trimmed deep more
  | statement _ | gap _ => cases isDefinition

theorem Statement.reads_with (statement : Statement) (n : Nat) (more : List Char) :
    definition (nested (n + 1)) (statement.text.toList ++ more) =
      some (⟨none, .implements statement.child.text statement.parent.text⟩, skipBlanks more) := by
  have text : statement.text.toList ++ more = statement.child.text.toList ++
      ' ' :: ("implements".toList ++ ' ' :: (statement.parent.text.toList ++ ';' :: more)) := by
    simp [Statement.text]
  rw [text]
  exact Grammar.definition_implements (nested n) statement.child.isIdentifier
    statement.parent.isIdentifier more

/-- In plain WebIDL all parts are read, the statements too. -/
theorem rounds_plain {n : Nat} {parts : List Part} (deep : (write "" parts).length < n + 1) :
    ∃ forms, Rounds (definition (nested (n + 1))) (skipBlanks (write "" parts)) forms [] ∧
      forms.map DefinitionForm.lower = parts.filterMap Part.plain? := by
  induction parts with
  | nil => exact ⟨[], .done, rfl⟩
  | cons part parts ih =>
    have text : write "" (part :: parts) = part.write "" ++ write "" parts := List.flatMap_cons
    rw [text] at deep ⊢
    have lengths := deep
    rw [List.length_append] at lengths
    obtain ⟨forms, rounds, lowered⟩ := ih (by omega)
    -- Interfaces and passages are read alike.
    have definition {d : Idl.Definition} (isDefinition : part.definition? = some d)
        (isPlain : part.plain? = some d) :
        ∃ forms, Rounds (definition (nested (n + 1)))
            (skipBlanks (part.write "" ++ write "" parts)) forms [] ∧
          forms.map DefinitionForm.lower = (part :: parts).filterMap Part.plain? := by
      obtain ⟨form, reads, isMeaning⟩ :=
        Part.reads_with isDefinition "" (n := n) (by omega) (write "" parts)
      refine ⟨form :: forms, Grammar.rounds_cons deep reads rounds, ?_⟩
      rw [List.map_cons, isMeaning, lowered, List.filterMap_cons_some isPlain]
    cases part with
    | interface b parent => exact definition rfl rfl
    | passage p => exact definition rfl rfl
    | statement s =>
      have bare : (Part.statement s).write "" = s.text.toList := by simp [Part.write]
      rw [bare] at deep ⊢
      refine ⟨_ :: forms, Grammar.rounds_cons deep (s.reads_with n _) rounds, ?_⟩
      rw [List.map_cons, lowered]
      rfl
    | gap g =>
      refine ⟨forms, ?_, lowered⟩
      rw [Part.write, Grammar.skipBlanks_gap_append g.isBlank]
      exact rounds

/-! ## Reading around comments -/

/-- The text behind the blanks, and before them behind a comment if one is open. -/
def behindComment (commented : Bool) (s : List Char) : Option (List Char) :=
  (if commented then afterLine? s else some s).map skipBlanks

theorem Statement.isLine (statement : Statement) : '\n' ∉ statement.text.toList := by
  have word (name : Name) : '\n' ∉ name.text.toList := name.lacks (by decide)
  simp [Statement.text, word]

/-- A comment goes on behind what stands on one line, and ends at a line feed. -/
theorem behindComment_covered {part : Part} (lined : (part.isLine || part.isGap) = true)
    (rest : List Char) :
    behindComment true (part.write "// " ++ rest) = behindComment (part.comments true) rest := by
  have line (isLine : '\n' ∉ part.write "// ") :
      behindComment true (part.write "// " ++ rest) = behindComment true rest := by
    rw [behindComment, if_pos rfl, Grammar.afterLine?_skip isLine, behindComment, if_pos rfl]
  cases part with
  | interface _ _ | passage _ =>
    rw [Part.isGap, Bool.or_false] at lined
    · rw [Part.comments, lined]
      · exact line (by simpa [Part.isLine, Part.write] using lined)
      · simp
    · simp
  | statement s => exact line (by simp [Part.write, s.isLine])
  | gap g =>
    by_cases newLine : '\n' ∈ g.text.toList
    · -- The first line feed closes the comment, and the rest of the gap is passed as blanks.
      obtain ⟨first, after, split, missing⟩ := List.eq_append_cons_of_mem newLine
      have blank : ∀ c ∈ after, Grammar.isBlank c = true := by
        intro c member
        exact g.isBlank c (by simp [split, member])
      have closes : (Part.gap g).comments true = false := by
        simp [Part.comments, Part.isLine, Part.write, newLine]
      rw [closes, Part.write, split, List.append_assoc, List.cons_append]
      simp [behindComment, Grammar.afterLine?_line missing, Grammar.skipBlanks_gap_append blank]
    · have goesOn : (Part.gap g).comments true = true := by
        simp [Part.comments, Part.isLine, Part.write, newLine]
      rw [goesOn]
      exact line newLine

/-- A statement that has become a comment is passed if the comment is closed. -/
theorem behindComment_statement (statement : Statement) {rest s : List Char}
    (closed : behindComment true rest = some s) :
    behindComment false ((Part.statement statement).write "// " ++ rest) = some s := by
  obtain ⟨t, ends, rfl⟩ := Option.map_eq_some_iff.mp closed
  have text : (Part.statement statement).write "// " ++ rest =
      '/' :: '/' :: ((' ' :: statement.text.toList) ++ rest) := by
    simp [Part.write]
  have found : blank? ('/' :: '/' :: ((' ' :: statement.text.toList) ++ rest)) = some t :=
    (Grammar.afterLine?_skip (by simp [statement.isLine]) rest).trans ends
  rw [text, behindComment, if_neg (by simp), Option.map_some, Grammar.skipBlanks_of_some found]

/-- If the comment is not closed, nothing is read from it on. -/
theorem behindComment_unclosed (statement : Statement) {rest : List Char} {n : Nat}
    (deep : ((Part.statement statement).write "// " ++ rest).length < n + 1)
    (unclosed : behindComment true rest = none) :
    behindComment false ((Part.statement statement).write "// " ++ rest) =
        some ((Part.statement statement).write "// " ++ rest) ∧
      definition (nested (n + 1)) ((Part.statement statement).write "// " ++ rest) = none := by
  have text : (Part.statement statement).write "// " ++ rest =
      '/' :: '/' :: ((' ' :: statement.text.toList) ++ rest) := by
    simp [Part.write]
  have ends : afterLine? rest = none := Option.map_eq_none_iff.mp unclosed
  have solid : blank? ((Part.statement statement).write "// " ++ rest) = none := by
    rw [text]
    exact (Grammar.afterLine?_skip (by simp [statement.isLine]) rest).trans ends
  refine ⟨by rw [behindComment, if_neg (by simp), Option.map_some,
    Grammar.skipBlanks_of_none solid], ?_⟩
  cases reads : definition (nested (n + 1)) ((Part.statement statement).write "// " ++ rest) with
  | none => rfl
  | some found =>
    -- What is read as a definition has all its comments closed.
    have bounded := Grammar.bounded_of_definition deep reads
    rw [text] at bounded solid
    obtain ⟨_, closed, -⟩ := Grammar.Region.inside_comment.mp bounded
    cases solid.symm.trans closed

section

variable {n : Nat} {commented : Bool} {parts : List Part}

theorem rounds_part {part : Part} {d : Idl.Definition} {rest s t : List Char}
    {forms : List (Grammar.Annotated DefinitionForm)} (isDefinition : part.definition? = some d)
    (deep : (part.write "// " ++ rest).length < n + 1) (behind : behindComment false rest = some s)
    (rounds : Rounds (definition (nested (n + 1))) s forms t) :
    ∃ form u, behindComment false (part.write "// " ++ rest) = some u ∧
      Rounds (definition (nested (n + 1))) u (form :: forms) t ∧ DefinitionForm.lower form = d := by
  have fits : (part.write "// ").length < n + 1 := by
    rw [List.length_append] at deep
    omega
  obtain ⟨form, reads, isMeaning⟩ := Part.reads_with isDefinition "// " fits rest
  obtain rfl : skipBlanks rest = s := by simpa [behindComment] using behind
  exact ⟨form, _, rfl, Grammar.rounds_cons deep reads rounds, isMeaning⟩

/-- A document whose last comment is closed is read to its end, except for what is in comments. -/
theorem rounds_kept (deep : (write "// " parts).length < n + 1) (lined : tidy commented parts = true)
    (closed : parts.foldl Part.comments commented = false) :
    ∃ s forms, behindComment commented (write "// " parts) = some s ∧
      Rounds (definition (nested (n + 1))) s forms [] ∧
      forms.map DefinitionForm.lower = (kept commented parts).filterMap Part.definition? := by
  -- The flag changes from part to part, so the induction is over every state that it can be in.
  induction parts generalizing commented with
  | nil =>
    obtain rfl : commented = false := closed
    exact ⟨[], [], rfl, .done, rfl⟩
  | cons part parts ih =>
    have text : write "// " (part :: parts) = part.write "// " ++ write "// " parts :=
      List.flatMap_cons
    rw [tidy, Bool.and_eq_true] at lined
    rw [text] at deep ⊢
    have lengths := deep
    rw [List.length_append] at lengths
    obtain ⟨s, forms, behind, rounds, lowered⟩ := ih (by omega) lined.2 closed
    cases commented with
    | true =>
      -- Inside a comment nothing is read: the text behind it is the same without the part.
      rw [behindComment_covered (by simpa using lined.1)]
      exact ⟨s, forms, behind, rounds, lowered⟩
    | false =>
      have definition {d : Idl.Definition} (isDefinition : part.definition? = some d)
          (goesOn : part.comments false = false) :
          ∃ s forms, behindComment false (part.write "// " ++ write "// " parts) = some s ∧
            Rounds (definition (nested (n + 1))) s forms [] ∧
            forms.map DefinitionForm.lower =
              (kept false (part :: parts)).filterMap Part.definition? := by
        rw [goesOn] at behind lowered
        obtain ⟨form, u, here, all, isMeaning⟩ := rounds_part isDefinition deep behind rounds
        refine ⟨u, form :: forms, here, all, ?_⟩
        simp [kept, goesOn, isDefinition, isMeaning, lowered]
      cases part with
      | interface b parent => exact definition rfl rfl
      | passage p => exact definition rfl rfl
      | statement t => exact ⟨s, forms, behindComment_statement t behind, rounds, lowered⟩
      | gap g =>
        refine ⟨s, forms, ?_, rounds, lowered⟩
        rw [← behind, behindComment, behindComment]
        exact congrArg some (Grammar.skipBlanks_gap_append g.isBlank _)

/-- A document whose last comment is not closed is read to that comment. -/
theorem stops_in_comment (deep : (write "// " parts).length < n + 1)
    (lined : tidy commented parts = true) (unclosed : parts.foldl Part.comments commented = true)
    {s : List Char} (behind : behindComment commented (write "// " parts) = some s) :
    ∃ forms rest, Rounds (definition (nested (n + 1))) s forms rest ∧ rest ≠ [] ∧
      definition (nested (n + 1)) rest = none := by
  induction parts generalizing commented s with
  | nil =>
    obtain rfl : commented = true := unclosed
    cases behind
  | cons part parts ih =>
    have text : write "// " (part :: parts) = part.write "// " ++ write "// " parts :=
      List.flatMap_cons
    rw [tidy, Bool.and_eq_true] at lined
    rw [text] at deep behind
    have lengths := deep
    rw [List.length_append] at lengths
    have others {s : List Char}
        (behind : behindComment (part.comments commented) (write "// " parts) = some s) :=
      ih (by omega) lined.2 unclosed behind
    cases commented with
    | true =>
      rw [behindComment_covered (by simpa using lined.1)] at behind
      exact others behind
    | false =>
      have definition {d : Idl.Definition} (isDefinition : part.definition? = some d)
          (goesOn : part.comments false = false) :
          ∃ forms rest, Rounds (definition (nested (n + 1))) s forms rest ∧ rest ≠ [] ∧
            definition (nested (n + 1)) rest = none := by
        rw [goesOn] at others
        obtain ⟨forms, rest, rounds, stops⟩ := others rfl
        obtain ⟨form, u, here, all, -⟩ := rounds_part isDefinition deep rfl rounds
        obtain rfl := Option.some.inj (here.symm.trans behind)
        exact ⟨form :: forms, rest, all, stops⟩
      cases part with
      | interface b parent => exact definition rfl rfl
      | passage p => exact definition rfl rfl
      | statement t =>
        -- Either this is the comment that is not closed, or it is closed and the end comes later.
        cases closed : behindComment true (write "// " parts) with
        | none =>
          obtain ⟨here, fails⟩ := behindComment_unclosed t deep closed
          obtain rfl := Option.some.inj (here.symm.trans behind)
          exact ⟨[], _, .done, by simp [Part.write], fails⟩
        | some u =>
          obtain rfl := Option.some.inj ((behindComment_statement t closed).symm.trans behind)
          exact others closed
      | gap g =>
        refine others ?_
        rw [← behind, behindComment, behindComment]
        exact congrArg some (Grammar.skipBlanks_gap_append g.isBlank _).symm

end

/-! ## Whole documents -/

theorem read_of_rounds {mark : String} (solid : ∀ c ∈ mark.toList.head?, isSpace c = false)
    {parts : List Part} {forms : List (Grammar.Annotated DefinitionForm)}
    (rounds : Rounds (definition (nested ((write mark (core parts)).length + 1)))
      (skipBlanks (write mark (core parts))) forms [])
    (nonempty : core parts ≠ [] → forms ≠ []) :
    Grammar.read (write mark parts) = .ok (forms.map DefinitionForm.lower) := by
  rw [Grammar.read_eq_ok_iff]
  refine ⟨forms, ?_, rfl⟩
  rw [Grammar.parse_eq_ok_iff, trim_write solid]
  by_cases empty : core parts = []
  · rw [empty] at rounds ⊢
    exact rounds
  · exact Grammar.rounds_of_skipBlanks (nonempty empty) rounds

/-- In plain WebIDL a document is read as all its definitions and statements. -/
theorem read_plain (parts : List Part) :
    Grammar.read (write "" parts) = .ok (parts.filterMap Part.plain?) := by
  obtain ⟨forms, rounds, lowered⟩ := rounds_plain (Nat.lt_succ_self (write "" (core parts)).length)
  rw [← definitions_plain_core, ← lowered]
  refine read_of_rounds (by simp) rounds ?_
  rintro nonempty rfl
  obtain ⟨part, others, first⟩ := List.exists_cons_of_ne_nil nonempty
  have noGap := core_head first
  rw [first] at lowered
  cases part with
  | gap g => cases noGap
  | interface _ _ | passage _ | statement _ => cases lowered

/-- The last definition of a document whose last comment is closed stands outside comments. -/
theorem definitions_kept_ne_nil {parts : List Part} (lined : tidy false (core parts) = true)
    (closed : endsInComment parts = false) (nonempty : core parts ≠ []) :
    (kept false (core parts)).filterMap Part.definition? ≠ [] := by
  rw [endsInComment] at closed
  obtain ⟨others, last, ends⟩ := (List.eq_nil_or_concat' (core parts)).resolve_left nonempty
  have noGap := core_last ends
  rw [ends, List.foldl_append, List.foldl_cons, List.foldl_nil] at closed
  rw [ends, tidy_append, tidy, Bool.and_eq_true, Bool.and_eq_true, noGap, Bool.or_false] at lined
  -- A comment that is open before the last part would go on behind it.
  have outside : others.foldl Part.comments false = false := by
    cases state : others.foldl Part.comments false with
    | false => rfl
    | true =>
      rw [state] at closed lined
      have isLine : last.isLine = true := by simpa using lined.2.1
      cases last with
      | gap g => cases noGap
      | statement s => cases closed
      | interface _ _ | passage _ => simp [Part.comments, isLine] at closed
  rw [ends, kept_append, outside, List.filterMap_append]
  cases last with
  | gap g => cases noGap
  | statement s => cases closed
  | interface _ _ | passage _ => simp [kept, Part.definition?]

theorem isSpace_mark : ∀ c ∈ "// ".toList.head?, isSpace c = false := by
  simp [show isSpace '/' = false by decide]

/-- A document with comments is read as the definitions outside comments. -/
theorem read_commented {parts : List Part} (lined : tidy false parts = true)
    (closed : endsInComment parts = false) :
    Grammar.read (write "// " parts) = .ok ((kept false parts).filterMap Part.definition?) := by
  have lined' := tidy_core lined
  obtain ⟨s, forms, behind, rounds, lowered⟩ :=
    rounds_kept (Nat.lt_succ_self (write "// " (core parts)).length) lined' closed
  obtain rfl := Option.some.inj behind
  rw [← definitions_kept_core, ← lowered]
  refine read_of_rounds isSpace_mark rounds ?_
  rintro nonempty rfl
  exact definitions_kept_ne_nil lined' closed nonempty lowered.symm

/-- A document that ends in a comment is not read. -/
theorem read_unclosed {parts : List Part} (lined : tidy false parts = true)
    (unclosed : endsInComment parts = true) :
    ∃ e, Grammar.read (write "// " parts) = .error e := by
  cases reads : Grammar.read (write "// " parts) with
  | error e => exact ⟨e, rfl⟩
  | ok ds =>
    obtain ⟨forms', parsed, -⟩ := Grammar.read_eq_ok_iff.mp reads
    rw [Grammar.parse_eq_ok_iff, trim_write isSpace_mark] at parsed
    have whole := Grammar.rounds_skipBlanks (Nat.lt_succ_self _) parsed
    obtain ⟨forms, rest, rounds, nonempty, fails⟩ :=
      stops_in_comment (Nat.lt_succ_self (write "// " (core parts)).length) (tidy_core lined)
        unclosed rfl
    -- A run goes on for as long as it can, so there is only one.
    have same := (many_of_rounds whole (Grammar.definition_nil _)).symm.trans
      (many_of_rounds rounds fails)
    exact absurd (Prod.mk.inj (Option.some.inj same)).2.symm nonempty

/-! ## Parents and layout -/

/-- A part without the parent that its interface may have. -/
def Part.bare : Part → Part
  | .interface b _ => .interface b none
  | part => part

theorem map_bare_give (parts : List Part) (s : Statement) :
    (give parts s).map Part.bare = parts.map Part.bare := by
  induction parts with
  | nil => rfl
  | cons part parts ih =>
    rw [give]
    split
    next awaits =>
      obtain ⟨b, rfl, -⟩ := Part.awaits_eq_true awaits
      rfl
    next => rw [List.map_cons, List.map_cons, ih]

/-- The statements of a document change nothing but parents. -/
theorem map_bare_inherited (parts : List Part) :
    (inherited parts).map Part.bare = parts.map Part.bare := by
  rw [inherited]
  generalize parts.filterMap Part.statement? = statements
  induction statements generalizing parts with
  | nil => rfl
  | cons s statements ih => rw [List.foldl_cons, ih, map_bare_give]

theorem isLine_bare (part : Part) : part.bare.isLine = part.isLine := by
  have newLine (name : Name) : '\n' ∉ name.text.toList := name.lacks (by decide)
  cases part with
  | interface b parent =>
    cases parent with
    | none => rfl
    | some parent =>
      simp [Part.bare, Part.isLine, Part.write, Block.write, headText, newLine]
  | passage _ | statement _ | gap _ => rfl

theorem isGap_bare (part : Part) : part.bare.isGap = part.isGap := by
  cases part <;> rfl

theorem comments_bare (commented : Bool) (part : Part) :
    part.bare.comments commented = part.comments commented := by
  cases part with
  | interface b parent =>
    exact congrArg (commented && ·) (isLine_bare (.interface b parent))
  | passage _ | statement _ | gap _ => rfl

theorem foldl_comments_bare (commented : Bool) (parts : List Part) :
    (parts.map Part.bare).foldl Part.comments commented = parts.foldl Part.comments commented := by
  rw [List.foldl_map]
  simp only [comments_bare]

theorem tidy_bare (commented : Bool) (parts : List Part) :
    tidy commented (parts.map Part.bare) = tidy commented parts := by
  induction parts generalizing commented with
  | nil => rfl
  | cons part parts ih => rw [List.map_cons, tidy, tidy, isLine_bare, isGap_bare, comments_bare, ih]

theorem kept_bare (commented : Bool) (parts : List Part) :
    kept commented (parts.map Part.bare) = (kept commented parts).map Part.bare := by
  induction parts generalizing commented with
  | nil => rfl
  | cons part parts ih =>
    rw [List.map_cons, kept, kept, comments_bare, ih, List.map_append]
    cases commented <;> rfl

theorem core_bare (parts : List Part) : core (parts.map Part.bare) = (core parts).map Part.bare := by
  have gaps : Part.isGap ∘ Part.bare = Part.isGap := funext isGap_bare
  rw [core, core, List.dropWhile_map, gaps, List.rdropWhile, List.rdropWhile, ← List.map_reverse,
    List.dropWhile_map, gaps, List.map_reverse]

theorem endsInComment_bare (parts : List Part) :
    endsInComment (parts.map Part.bare) = endsInComment parts := by
  rw [endsInComment, core_bare, foldl_comments_bare, endsInComment]

def kind : Idl.Definition → String
  | .interface _ => "interface"
  | .mixin _ => "interface-mixin"
  | .dictionary _ => "dictionary"
  | .includes _ _ => "includes"
  | .enumeration _ _ => "enum"
  | .callback _ _ _ => "callback"
  | .typedef _ _ => "typedef"
  | .unsupported _ => "unsupported"

def signature (d : Idl.Definition) : Option String × String :=
  (d.name?, kind d)

theorem definition_bare (part : Part) :
    part.bare.definition?.map signature = part.definition?.map signature := by
  cases part <;> rfl

/-- Parents make no difference to names and kinds. -/
theorem signatures_bare {a b : List Part} (same : a.map Part.bare = b.map Part.bare) :
    (a.filterMap Part.definition?).map signature = (b.filterMap Part.definition?).map signature := by
  have bare (parts : List Part) : (parts.filterMap Part.definition?).map signature =
      (parts.map Part.bare).filterMap fun part => part.definition?.map signature := by
    rw [List.map_filterMap, List.filterMap_map]
    exact congrArg (parts.filterMap ·) (funext fun part => (definition_bare part).symm)
  rw [bare, bare, same]

/-! ## What is lost -/

/-- Without its statements a document has the definitions of its other parts. -/
theorem filter_plain (parts : List Part) :
    (parts.filterMap Part.plain?).filter (!isImplements ·) = parts.filterMap Part.definition? := by
  have filtered (part : Part) : part.plain?.filter (!isImplements ·) = part.definition? := by
    cases part with
    | interface _ _ | statement _ | gap _ => rfl
    | passage p => simp [Part.plain?, Part.definition?, p.other]
  rw [List.filter_filterMap]
  exact congrArg (parts.filterMap ·) (funext filtered)

/-- Every definition is kept or covered. -/
theorem length_kept_covered (commented : Bool) (parts : List Part) :
    ((kept commented parts).filterMap Part.definition?).length +
        ((covered commented parts).filterMap Part.definition?).length =
      (parts.filterMap Part.definition?).length := by
  induction parts generalizing commented with
  | nil => rfl
  | cons part parts ih =>
    have rest := ih (part.comments commented)
    have split : (part :: parts).filterMap Part.definition? =
        [part].filterMap Part.definition? ++ parts.filterMap Part.definition? :=
      List.filterMap_append (l := [part])
    rw [kept, covered, split, List.filterMap_append, List.filterMap_append, List.length_append,
      List.length_append, List.length_append, ← rest]
    cases commented with
    | false => simp only [Bool.false_eq_true, if_false, List.filterMap_nil, List.length_nil]; omega
    | true => simp only [if_true, List.filterMap_nil, List.length_nil]; omega

/-- Nothing is lost exactly when no definition is covered. -/
theorem signatures_kept_iff (parts : List Part) :
    ((kept false parts).filterMap Part.definition?).map signature =
        (parts.filterMap Part.definition?).map signature ↔
      (covered false parts).filterMap Part.definition? = [] := by
  have counted := length_kept_covered false parts
  constructor
  · intro same
    have lengths := congrArg List.length same
    rw [List.length_map, List.length_map] at lengths
    exact List.eq_nil_of_length_eq_zero (by omega)
  · intro nothing
    rw [nothing, List.length_nil, Nat.add_zero] at counted
    rw [((kept_sublist false parts).filterMap Part.definition?).eq_of_length counted]

theorem signatures_kept_inherited (parts : List Part) :
    ((kept false (inherited parts)).filterMap Part.definition?).map signature =
      ((kept false parts).filterMap Part.definition?).map signature := by
  refine signatures_bare ?_
  rw [← kept_bare, map_bare_inherited, kept_bare]

theorem readDocument_mended (options : Options) (s : List Char) :
    readDocument { options with emscripten := true, gecko := false } s =
      Grammar.read (freezeArrays (inheritImplemented s)) :=
  rfl

theorem readDocument_parts (options : Options) {parts : List Part} (lined : tidy false parts = true) :
    (endsInComment parts = false →
        readDocument { options with emscripten := true, gecko := false } (write "" parts) =
          .ok ((kept false (inherited parts)).filterMap Part.definition?)) ∧
      (endsInComment parts = true → ∃ e,
        readDocument { options with emscripten := true, gecko := false } (write "" parts) =
          .error e) := by
  have lined' : tidy false (inherited parts) = true := by
    rwa [← tidy_bare, map_bare_inherited, tidy_bare]
  have ends : endsInComment (inherited parts) = endsInComment parts := by
    rw [← endsInComment_bare, map_bare_inherited, endsInComment_bare]
  rw [readDocument_mended, mend_write, ← ends]
  exact ⟨read_commented lined', read_unclosed lined'⟩

/-- In plain WebIDL a document is read as all its definitions and statements.  For Emscripten's binder it
    is read as the definitions that do not stand behind a statement on its line, with their parents, and
    not at all if a statement stands on the last line.  So no definition is lost exactly when none stands
    behind a statement on its line and no statement stands on the last line. -/
theorem readDocument_layout (options : Options) {parts : List Part}
    (lined : tidy false parts = true) :
    Grammar.read (write "" parts) = .ok (parts.filterMap Part.plain?) ∧
      (endsInComment parts = true → ∃ e,
        readDocument { options with emscripten := true, gecko := false } (write "" parts) =
          .error e) ∧
      (endsInComment parts = false →
        readDocument { options with emscripten := true, gecko := false } (write "" parts) =
          .ok ((kept false (inherited parts)).filterMap Part.definition?)) ∧
      ((∃ ds, readDocument { options with emscripten := true, gecko := false } (write "" parts) =
            .ok ds ∧
          ds.map signature =
            ((parts.filterMap Part.plain?).filter (!isImplements ·)).map signature) ↔
        endsInComment parts = false ∧ (covered false parts).filterMap Part.definition? = []) := by
  have layout := readDocument_parts options lined
  refine ⟨read_plain parts, layout.2, layout.1, ?_⟩
  rw [filter_plain, ← signatures_kept_iff, ← signatures_kept_inherited]
  constructor
  · rintro ⟨ds, reads, same⟩
    cases ends : endsInComment parts with
    | true =>
      obtain ⟨e, fails⟩ := layout.2 ends
      rw [fails] at reads
      cases reads
    | false =>
      rw [layout.1 ends] at reads
      exact ⟨rfl, Except.ok.inj reads ▸ same⟩
  · rintro ⟨ends, same⟩
    exact ⟨_, layout.1 ends, same⟩

/-- An interface with a member. -/
def shape : Block where
  name := ⟨"Shape", ⟨by decide, by decide⟩, by decide⟩
  body := "\n  attribute long sides;\n"
  noArray := by decide
  noInterface := by decide
  noImplements := by decide
  meaning := ⟨"Shape", none, [.attribute "sides" (.named "long") false], []⟩
  reads := by cbv

/-- An interface without members. -/
def box : Block where
  name := ⟨"Box", ⟨by decide, by decide⟩, by decide⟩
  body := ""
  noArray := by decide
  noInterface := by decide
  noImplements := by decide
  meaning := ⟨"Box", none, [], []⟩
  reads := by cbv

/-- A definition that is no interface. -/
def hue : Passage where
  text := "enum Hue \x7b\"red\"\x7d"
  first := by simp [show Grammar.isSolid 'e' = true by decide]
  noArray := by decide
  noHead := by decide
  noStatement := by decide +kernel
  meaning := .enumeration "Hue" ["red"]
  other := rfl
  reads := by cbv

def newLine : Gap :=
  ⟨"\n", by decide⟩

/-- A definition behind a statement on its line. -/
def crowdedDocument : List Part :=
  [.interface box none, .gap newLine, .statement ⟨box.name, shape.name⟩, .passage hue,
    .gap newLine, .interface shape none, .gap newLine]

/-- A statement on the last line. -/
def unfinishedDocument : List Part :=
  [.interface shape none, .gap newLine, .interface box none, .gap newLine,
    .statement ⟨box.name, shape.name⟩, .gap newLine]

/-- What stands behind a statement is lost, and a document that ends in one is not read. -/
theorem readDocument_layout_box :
    tidy false crowdedDocument = true ∧
      Grammar.read (write "" crowdedDocument) =
        .ok [.interface ⟨"Box", none, [], []⟩, Statement.meaning ⟨box.name, shape.name⟩,
          .enumeration "Hue" ["red"],
          .interface ⟨"Shape", none, [.attribute "sides" (.named "long") false], []⟩] ∧
      readDocument { emscripten := true } (write "" crowdedDocument) =
        .ok [.interface ⟨"Box", some "Shape", [], []⟩,
          .interface ⟨"Shape", none, [.attribute "sides" (.named "long") false], []⟩] ∧
      tidy false unfinishedDocument = true ∧
      Grammar.read (write "" unfinishedDocument) =
        .ok [.interface ⟨"Shape", none, [.attribute "sides" (.named "long") false], []⟩,
          .interface ⟨"Box", none, [], []⟩, Statement.meaning ⟨box.name, shape.name⟩] ∧
      ∃ e, readDocument { emscripten := true } (write "" unfinishedDocument) = .error e := by
  have crowded : tidy false crowdedDocument = true := by decide
  have unfinished : tidy false unfinishedDocument = true := by decide
  obtain ⟨plain, -, reads, -⟩ := readDocument_layout {} crowded
  obtain ⟨plain', fails, -, -⟩ := readDocument_layout {} unfinished
  exact ⟨crowded, plain, reads (by decide), unfinished, plain', fails (by decide)⟩

end IdlTypings.Dialect.Emscripten
