import Mathlib
import IdlTypings.Proofs.DirectiveLines
import IdlTypings.Proofs.ImplementationStatements
import IdlTypings.Proofs.PreludeKept
import IdlTypings.Proofs.Remainders

/-! # Lines that declare interfaces

A text in the component dialect may declare interfaces and define them, one on a line.  An edit may
change the body of a definition in any way, and may even take the bracket at its end, so the edited
text need not have the same lines.  What is left of them is `Laid`: the text begins with one of the
lines, and behind each closing bracket and its semicolon the line ends and another of them begins.

* `KeepsLines` is what one edit has to do for that: it leaves line feeds, semicolons and the heads of
  definitions alone, spells a forward declaration in one way, and writes no closing bracket.
  `KeepsLines.laid` is the step that follows from it.
* An edit keeps lines because nothing on a line begins a find (`keepsLines_of_spares`), or because a
  find that begins there would have to run past the end of its piece (`keepsLines_of_stops`).
* `Tame` is an edit whose finds and results stay inside a body.
* `laid_edited`: the edits of both dialects, one after the other, keep the lines, and the forward
  declarations become names for any type.
-/

namespace IdlTypings.Dialect.Gecko

open IdlTypings.Parser IdlTypings.Text

/-! ## Lines -/

/-- What stands between the brackets of a definition.  No closing bracket does, not even in a comment
    or in a block of code, where it would not end the definition. -/
structure Body where
  text : List Char
  unclosed : '\x7d' ∉ text

/-- A line that declares an interface, a line that defines one, or a line with nothing on it. -/
inductive Line where
  | blank
  | forward (name : Name)
  | definition (name parent : Name) (body : Body)

def forwardText (name : Name) : List Char :=
  "interface ".toList ++ name.text.toList ++ [';']

/-- A name for any type. -/
def aliasText (name : Name) : List Char :=
  "typedef any ".toList ++ name.text.toList ++ [';']

/-- The start of a definition, up to its bracket. -/
def openingText (name parent : Name) : List Char :=
  "interface ".toList ++ name.text.toList ++ " : ".toList ++ parent.text.toList ++ " \x7b".toList

def Line.text : Line → List Char
  | .blank => []
  | .forward name => forwardText name
  | .definition name parent body => openingText name parent ++ body.text ++ "\x7d;".toList

/-- The text of some lines, with a line feed between neighbours. -/
def documentText : List Line → List Char
  | [] => []
  | [line] => line.text
  | line :: lines => line.text ++ '\n' :: documentText lines

/-! ## Where statements may begin -/

/-- Nothing follows on the same line. -/
def AtLineEnd (s : List Char) : Prop :=
  ∀ c ∈ s.head?, c = '\n'

/-- A text that begins with some of the lines, when forward declarations are spelled in a given way.
    Nothing is said about what follows the bracket of a definition. -/
inductive Begins (spell : Name → List Char) (lines : List Line) : List Char → Prop where
  | nil : Begins spell lines []
  | newLine {s : List Char} (rest : Begins spell lines s) : Begins spell lines ('\n' :: s)
  | forward {name : Name} {s : List Char} (member : .forward name ∈ lines)
      (rest : Begins spell lines s) (ends : AtLineEnd s) : Begins spell lines (spell name ++ s)
  | definition {name parent : Name} {body : Body} (member : .definition name parent body ∈ lines)
      (s : List Char) : Begins spell lines (openingText name parent ++ s)

/-- A text that begins with some of the lines, and does so again behind each closing bracket and its
    semicolon. -/
structure Laid (spell : Name → List Char) (lines : List Line) (s : List Char) : Prop where
  begins : Begins spell lines s
  closes : ∀ u v, s = u ++ '\x7d' :: v →
    ∃ w, v = ';' :: w ∧ Begins spell lines w ∧ AtLineEnd w

theorem Laid.suffix {spell : Name → List Char} {lines : List Line} {s t : List Char}
    (laid : Laid spell lines s) (begins : Begins spell lines t) (part : t <:+ s) :
    Laid spell lines t where
  begins := begins
  closes u v split := by
    obtain ⟨before, rfl⟩ := part
    exact laid.closes (before ++ u) v (by rw [split, List.append_assoc])

/-- Every piece of the text `old` that an edit comes to becomes `new`. -/
def Passes (edits : List Char → List Char → Prop) (old new : List Char) : Prop :=
  ∀ {s t}, edits (old ++ s) t → ∃ t', t = new ++ t' ∧ edits s t'

/-- An edit, from any place on, that keeps lines and their ends. -/
structure KeepsLines (edits : List Char → List Char → Prop) (spell spell' : Name → List Char) :
    Prop where
  nil : ∀ {t}, edits [] t → t = []
  newLine : Passes edits ['\n'] ['\n']
  semicolon : Passes edits [';'] [';']
  forward : ∀ name, Passes edits (spell name) (spell' name)
  opening : ∀ name parent, Passes edits (openingText name parent) (openingText name parent)
  bracket : ∀ {s u v}, edits s (u ++ '\x7d' :: v) → ∃ u' v', s = u' ++ '\x7d' :: v' ∧ edits v' v

section

variable {edits : List Char → List Char → Prop} {spell spell' : Name → List Char}
  {lines : List Line} {s t : List Char}

theorem KeepsLines.atLineEnd (keeps : KeepsLines edits spell spell') (made : edits s t)
    (ends : AtLineEnd s) : AtLineEnd t := by
  cases s with
  | nil => simp [keeps.nil made, AtLineEnd]
  | cons c s =>
    obtain rfl := ends c rfl
    obtain ⟨t', rfl, -⟩ := keeps.newLine made
    simp [AtLineEnd]

theorem KeepsLines.begins (keeps : KeepsLines edits spell spell') (begins : Begins spell lines s)
    (made : edits s t) : Begins spell' lines t := by
  induction begins generalizing t with
  | nil =>
    rw [keeps.nil made]
    exact .nil
  | newLine _ ih =>
    obtain ⟨t', rfl, made'⟩ := keeps.newLine made
    exact .newLine (ih made')
  | forward member _ ends ih =>
    obtain ⟨t', rfl, made'⟩ := keeps.forward _ made
    exact .forward member (ih made') (keeps.atLineEnd made' ends)
  | definition member s =>
    obtain ⟨t', rfl, -⟩ := keeps.opening _ _ made
    exact .definition member t'

theorem KeepsLines.laid (keeps : KeepsLines edits spell spell') (laid : Laid spell lines s)
    (made : edits s t) : Laid spell' lines t where
  begins := keeps.begins laid.begins made
  closes u v split := by
    subst split
    -- The bracket was there before the edit, and so were the semicolon and the line behind it.
    obtain ⟨u', v', rfl, made'⟩ := keeps.bracket made
    obtain ⟨w, rfl, begins, ends⟩ := laid.closes u' v' rfl
    obtain ⟨w', rfl, made''⟩ := keeps.semicolon made'
    exact ⟨w', rfl, keeps.begins begins made'', keeps.atLineEnd made'' ends⟩

end

/-! ## The text as it is written -/

/-- A letter, a digit, a low line, or one of some signs. -/
def isWordOr (signs : List Char) (c : Char) : Bool :=
  isAsciiWord c || signs.contains c

section

variable {signs s : List Char}

theorem all_of_isWordOr {kind : Char → Bool} (all : s.all (isWordOr signs) = true)
    (words : ∀ c, isAsciiWord c = true → kind c = true) (known : signs.all kind = true) :
    s.all kind = true := by
  rw [List.all_eq_true] at all known ⊢
  intro c member
  have either := all c member
  rw [isWordOr, Bool.or_eq_true, List.contains_iff_mem] at either
  exact either.elim (words c) (known c)

theorem not_mem_of_isWordOr {mark : Char} (all : s.all (isWordOr signs) = true)
    (other : isWordOr signs mark = false) : mark ∉ s := by
  intro member
  rw [List.all_eq_true.mp all mark member] at other
  cases other

theorem Name.not_mem (name : Name) {c : Char} (other : isAsciiWord c = false) :
    c ∉ name.text.toList :=
  fun member => by simpa using List.all_eq_true.mp (name.lacks other) c member

theorem Name.isWordOr (name : Name) : name.text.toList.all (isWordOr signs) = true :=
  name.all fun c word => by simp [Gecko.isWordOr, word]

theorem isWordOr_openingText (name parent : Name) :
    (openingText name parent).all (isWordOr [' ', ':', '\x7b']) = true := by
  unfold openingText
  simp only [List.all_append, name.isWordOr, parent.isWordOr]
  decide

theorem isWordOr_forwardText (name : Name) :
    (forwardText name).all (isWordOr [' ', ';']) = true := by
  unfold forwardText
  simp only [List.all_append, name.isWordOr]
  decide

theorem isWordOr_aliasText (name : Name) : (aliasText name).all (isWordOr [' ', ';']) = true := by
  unfold aliasText
  simp only [List.all_append, name.isWordOr]
  decide

end

section

variable {lines : List Line} {rest u v : List Char}

theorem begins_line {line : Line} (member : line ∈ lines) (begins : Begins forwardText lines rest)
    (ends : AtLineEnd rest) : Begins forwardText lines (line.text ++ rest) := by
  cases line with
  | blank => exact begins
  | forward name => exact .forward member begins ends
  | definition name parent body =>
    rw [Line.text, List.append_assoc, List.append_assoc]
    exact .definition member _

/-- The only closing bracket on a line stands before the semicolon at its end. -/
theorem closes_line {line : Line} (split : line.text ++ rest = u ++ '\x7d' :: v) :
    v = ';' :: rest ∨ ∃ u', rest = u' ++ '\x7d' :: v := by
  cases line with
  | blank => exact .inr ⟨u, split⟩
  | forward name =>
    have missing : '\x7d' ∉ forwardText name :=
      not_mem_of_isWordOr (isWordOr_forwardText name) (by decide)
    obtain ⟨u', -, behind⟩ := mark_behind missing split
    exact .inr ⟨u', behind⟩
  | definition name parent body =>
    have head : '\x7d' ∉ openingText name parent :=
      not_mem_of_isWordOr (isWordOr_openingText name parent) (by decide)
    rw [Line.text, List.append_assoc] at split
    obtain ⟨u', -, behind⟩ := mark_behind (by simp [head, body.unclosed]) split
    -- It is the bracket at the end of the body, or it stands behind the semicolon.
    cases u' with
    | nil => exact .inl (List.cons.inj behind).2.symm
    | cons c u' =>
      obtain ⟨-, behind⟩ := List.cons.inj behind
      obtain ⟨u'', -, behind⟩ := mark_behind (t := [';']) (by simp) behind
      exact .inr ⟨u'', behind⟩

theorem laid_documentText {part : List Line} (members : ∀ line ∈ part, line ∈ lines) :
    Laid forwardText lines (documentText part) := by
  have empty : AtLineEnd [] := by simp [AtLineEnd]
  have fed (s : List Char) : AtLineEnd ('\n' :: s) := by simp [AtLineEnd]
  induction part using documentText.induct with
  | case1 => exact ⟨.nil, fun u v split => by simp [documentText] at split⟩
  | case2 line =>
    have only := members line (by simp)
    refine ⟨?_, fun u v split => ?_⟩
    · simpa [documentText] using begins_line only .nil empty
    · rw [documentText, ← List.append_nil line.text] at split
      rcases closes_line split with rfl | ⟨u', behind⟩
      · exact ⟨[], rfl, .nil, empty⟩
      · simp at behind
  | case3 line others nonempty ih =>
    have laid := ih fun line member => members line (List.mem_cons_of_mem _ member)
    rw [documentText]
    · have first := begins_line (members line (by simp)) (.newLine laid.begins) (fed _)
      refine ⟨first, fun u v split => ?_⟩
      -- A closing bracket is the one of the first line or stands in the others.
      rcases closes_line split with rfl | ⟨u', behind⟩
      · exact ⟨_, rfl, .newLine laid.begins, fed _⟩
      · obtain ⟨u'', -, behind⟩ := mark_behind (t := ['\n']) (by simp) behind
        exact laid.closes u'' v behind
    · exact nonempty

end

/-! ## Edits that keep lines -/

/-- What an edit makes of a text, from any place on. -/
def Becomes (find : Option Char → Parser (List Char)) (s t : List Char) : Prop :=
  ∃ before, t = editFrom find before s

section

variable {find : Option Char → Parser (List Char)} {spell spell' : Name → List Char}

theorem passes_of_turns {old new : List Char} (turns : Turns find old new) :
    Passes (Becomes find) old new := by
  rintro s _ ⟨before, rfl⟩
  exact ⟨_, turns.editFrom before s, _, rfl⟩

theorem keepsLines_of_turns
    (absent : ∀ before s x rest, find before s = some (x, rest) → '\x7d' ∉ x)
    (newLine : Turns find ['\n'] ['\n']) (semicolon : Turns find [';'] [';'])
    (forward : ∀ name, Turns find (spell name) (spell' name))
    (opening : ∀ name parent, Turns find (openingText name parent) (openingText name parent)) :
    KeepsLines (Becomes find) spell spell' where
  nil := by
    rintro _ ⟨before, rfl⟩
    rfl
  newLine := passes_of_turns newLine
  semicolon := passes_of_turns semicolon
  forward name := passes_of_turns (forward name)
  opening name parent := passes_of_turns (opening name parent)
  bracket := by
    rintro s u v ⟨before, split⟩
    obtain ⟨u', v', whole, same⟩ := editFrom_mark absent split.symm
    exact ⟨u', v', whole, _, same⟩

/-- An edit that begins at none of the characters of a line keeps the line. -/
theorem keepsLines_of_spares (spares : Spares find isInert)
    (absent : ∀ before s x rest, find before s = some (x, rest) → '\x7d' ∉ x)
    (inert : ∀ name, (spell name).all isInert = true) : KeepsLines (Becomes find) spell spell :=
  keepsLines_of_turns absent (spares.turns (by decide)) (spares.turns (by decide))
    (fun name => spares.turns (inert name)) fun name parent => spares.turns
      (all_of_isWordOr (isWordOr_openingText name parent) isInert_of_isAsciiWord (by decide))

end

theorem isInert_forwardText (name : Name) : (forwardText name).all isInert = true :=
  all_of_isWordOr (isWordOr_forwardText name) isInert_of_isAsciiWord (by decide)

theorem isInert_aliasText (name : Name) : (aliasText name).all isInert = true :=
  all_of_isWordOr (isWordOr_aliasText name) isInert_of_isAsciiWord (by decide)

/-! ### Preprocessor lines and code -/

theorem not_mem_of_drops {p : Parser (List Char)} (drops : Drops p) (_ : Option Char)
    (s x rest : List Char) (found : p s = some (x, rest)) : '\x7d' ∉ x := by
  simp [drops s x rest found]

theorem drops_directive : Drops directive :=
  drops_bind fun _ => drops_bind fun _ => drops_bind fun _ => drops_pure

theorem keepsLines_directive :
    KeepsLines (Becomes fun _ => directive) forwardText forwardText :=
  keepsLines_of_spares (fun c inert => spares_directive c (by simp_all [isInert]))
    (not_mem_of_drops drops_directive) isInert_forwardText

theorem keepsLines_codeBlock :
    KeepsLines (Becomes fun _ => codeBlock) forwardText forwardText :=
  keepsLines_of_spares (fun c inert => spares_codeBlock c (by simp_all [isInert]))
    (not_mem_of_drops drops_codeBlock) isInert_forwardText

/-! ### Edits inside a body -/

/-- A character that neither opens nor closes a body, a string or a comment. -/
def isInner (c : Char) : Bool :=
  c != '\x7b' && c != '\x7d' && c != '\"' && c != '/'

theorem isInner_of_class {test : Char → Bool}
    (refused : ['\x7b', '\x7d', '\"', '/'].all (fun c => !test c) = true) (c : Char)
    (accepted : test c = true) : isInner c = true := by
  simp only [List.all_cons, List.all_nil, Bool.and_true, Bool.not_eq_true', Bool.and_eq_true]
    at refused
  have apart : ∀ b, test b = false → c ≠ b := by
    rintro b refused rfl
    simp [refused] at accepted
  simp [isInner, apart _ refused.1, apart _ refused.2.1, apart _ refused.2.2.1,
    apart _ refused.2.2.2]

theorem isInner_of_isWord : ∀ c, isWord c = true → isInner c = true :=
  isInner_of_class (by decide)

/-- An edit whose finds are inside a body, or inside a head, and stay there when they are
    rewritten. -/
structure Tame (find : Option Char → Parser (List Char)) : Prop where
  reads : ∀ before, Grammar.Reads isInner (find before)
  stops : ∀ before s, find before ('\x7d' :: s) = none
  writes : ∀ {before s x rest}, find before s = some (x, rest) → ∀ c ∈ x, isInner c = true

theorem Tame.absent {find : Option Char → Parser (List Char)} (tame : Tame find)
    (before : Option Char) (s x rest : List Char) (found : find before s = some (x, rest)) :
    '\x7d' ∉ x := by
  intro member
  exact absurd (tame.writes found _ member) (by decide)

section

open Grammar (Reads reads_bind reads_exactly reads_takeWhile reads_takeWhile1)

instance reads_word : Reads isInner (Parser.takeWhile isWord) :=
  reads_takeWhile isInner_of_isWord

instance reads_space : Reads isInner (Parser.takeWhile isSpace) :=
  reads_takeWhile (isInner_of_class (by decide))

instance reads_wordOrParen : Reads isInner (Parser.takeWhile isWordOrParen) :=
  reads_takeWhile (isInner_of_class (by decide))

theorem tame_forwardDeclaration : Tame fun _ => forwardDeclaration where
  reads _ := by
    have keyword : Reads isInner (exactly "interface ".toList) := reads_exactly (by decide)
    have semicolon : Reads isInner (exactly [';']) := reads_exactly (by decide)
    unfold forwardDeclaration
    infer_instance
  stops _ s := by simp [forwardDeclaration]
  writes {_ s x rest} found := by
    simp only [forwardDeclaration, bind_apply, pure_apply, Option.bind_eq_some_iff,
      Option.some.injEq, Prod.mk.injEq, Parser.takeWhile, exists_eq_left'] at found
    obtain ⟨⟨_, t⟩, -, _, -, rfl, -⟩ := found
    simp only [List.forall_mem_append]
    refine ⟨⟨List.all_eq_true.mp (by decide), fun c member => ?_⟩, List.all_eq_true.mp (by decide)⟩
    exact isInner_of_isWord c (List.mem_takeWhile_imp member)

theorem Tame.of_drops {p : Parser (List Char)} [reads : Reads isInner p]
    (stops : ∀ s, p ('\x7d' :: s) = none) (drops : Drops p) : Tame fun _ => p where
  reads _ := reads
  stops _ := stops
  writes found := by simp [drops _ _ _ found]

theorem tame_uuidAttribute : Tame fun _ => uuidAttribute := by
  have number : Reads isInner (Parser.takeWhile fun c => isWord c || c == '-') :=
    reads_takeWhile (isInner_of_class (by decide))
  have comma : Reads isInner (exactly [',']) := reads_exactly (by decide)
  have opening : Reads isInner (exactly ['(']) := reads_exactly (by decide)
  have closing : Reads isInner (exactly [')']) := reads_exactly (by decide)
  have reads : Reads isInner uuidAttribute := by
    unfold uuidAttribute
    refine @reads_bind _ _ _ _ _ comma fun _ => ?_
    infer_instance
  refine .of_drops (fun s => by simp [uuidAttribute]) ?_
  exact drops_bind fun _ => drops_bind fun _ => drops_bind fun _ => drops_bind fun _ =>
    drops_bind fun _ => drops_bind fun _ => drops_pure

theorem isInner_of_withText {α : Type} {p : Parser α} [reads : Reads isInner p]
    {s text rest : List Char} {x : α} (found : withText p s = some ((text, x), rest)) :
    ∀ c ∈ text, isInner c = true := by
  simp only [withText, Option.map_eq_some_iff] at found
  obtain ⟨⟨y, t⟩, found, same⟩ := found
  obtain ⟨u, rfl, all⟩ := reads.split found
  cases same
  simpa using all

theorem tame_direction : Tame fun _ => direction := by
  -- Each part reads inner characters only; for the whole an instance is found by its shape.
  have names : Reads isInner (takeWhile1 isWordOrParen) :=
    reads_takeWhile1 (isInner_of_class (by decide))
  have comma : Reads isInner (exactly [',']) := reads_exactly (by decide)
  have opening : Reads isInner (exactly ['(']) := reads_exactly (by decide)
  have listOpening : Reads isInner (exactly ['[']) := reads_exactly (by decide)
  have listClosing : Reads isInner (exactly [']']) := reads_exactly (by decide)
  have blank : Reads isInner (exactly [' ']) := reads_exactly (by decide)
  have incoming : Reads isInner (exactly "in ".toList) := reads_exactly (by decide)
  have outgoing : Reads isInner (exactly "out ".toList) := reads_exactly (by decide)
  have list : Reads isInner attributeList := by
    unfold attributeList attributePart
    infer_instance
  have start : Reads isInner parameterStart := by
    unfold parameterStart
    infer_instance
  refine ⟨fun _ => ?_, fun _ => spares_direction '\x7d' (by decide) none, fun found => ?_⟩
  · unfold direction
    infer_instance
  · rw [direction, bind_apply, Option.bind_eq_some_iff] at found
    obtain ⟨⟨⟨text, _⟩, t⟩, taken, found⟩ := found
    simp only [bind_apply, pure_apply, Option.bind_eq_some_iff, Option.some.injEq,
      Prod.mk.injEq] at found
    obtain ⟨_, -, rfl, -⟩ := found
    exact isInner_of_withText taken

theorem tame_optionalAttribute : Tame fun _ => optionalAttribute where
  reads _ := by
    have word : Reads isInner (exactly "[optional]".toList) := reads_exactly (by decide)
    unfold optionalAttribute
    infer_instance
  stops _ s := by simp [optionalAttribute]
  writes {_ s x rest} found := by
    simp only [optionalAttribute, bind_apply, pure_apply, Option.bind_eq_some_iff,
      Option.some.injEq, Prod.mk.injEq] at found
    obtain ⟨_, -, rfl, -⟩ := found
    exact List.all_eq_true.mp (by decide)

theorem tame_leadingAttributes : Tame fun _ => leadingAttributes := by
  have names : Reads isInner (Parser.takeWhile fun c => isWordOrParen c || c == ',' || isSpace c) :=
    reads_takeWhile (isInner_of_class (by decide))
  have opening : Reads isInner (exactly ['[']) := reads_exactly (by decide)
  have closing : Reads isInner (exactly "] ".toList) := reads_exactly (by decide)
  have reads : Reads isInner leadingAttributes := by
    unfold leadingAttributes
    infer_instance
  refine .of_drops (fun s => by simp [leadingAttributes]) ?_
  exact drops_bind fun _ => drops_bind fun _ => drops_bind fun _ => drops_bind fun _ => drops_pure

theorem tame_bareAttribute : Tame fun _ => bareAttribute := by
  have opening : Reads isInner (exactly ['[']) := reads_exactly (by decide)
  have closing : Reads isInner (exactly [']']) := reads_exactly (by decide)
  have reads : Reads isInner bareAttribute := by
    unfold bareAttribute
    infer_instance
  refine .of_drops (fun s => by simp [bareAttribute]) ?_
  exact drops_bind fun _ => drops_bind fun _ => drops_bind fun _ => drops_pure

theorem tame_array : Tame array where
  reads before := by
    have word : Reads isInner (exactly "Array<".toList) := reads_exactly (by decide)
    have closing : Reads isInner (exactly ['>']) := reads_exactly (by decide)
    unfold array
    infer_instance
  stops before s := spares_array '\x7d' (by decide) before s
  writes {before s x rest} found := by
    rw [array] at found
    split at found
    · cases found
    simp only [bind_apply, pure_apply, Option.bind_eq_some_iff, Option.some.injEq, Prod.mk.injEq,
      Parser.takeWhile, exists_eq_left'] at found
    obtain ⟨⟨_, t⟩, -, _, -, rfl, -⟩ := found
    simp only [List.forall_mem_append]
    refine ⟨⟨List.all_eq_true.mp (by decide), fun c member => ?_⟩, List.all_eq_true.mp (by decide)⟩
    exact isInner_of_isWord c (List.mem_takeWhile_imp member)

end

theorem spares_forwardDeclaration : Spares (fun _ => forwardDeclaration) ('i' != ·) := by
  intro c other _ rest
  simp_all [forwardDeclaration]

theorem forwardDeclaration_forwardText (name : Name) (rest : List Char) :
    forwardDeclaration (forwardText name ++ rest) = some (aliasText name, rest) := by
  have word : Parser.takeWhile isWord (name.text.toList ++ ';' :: rest) =
      some (name.text.toList, ';' :: rest) :=
    takeWhile_run (List.all_eq_true.mp (name.all fun c => isWord_of_isAsciiWord))
      (by simp [show isWord ';' = false by decide])
  have parts : forwardText name ++ rest =
      "interface ".toList ++ (name.text.toList ++ ';' :: rest) := by
    unfold forwardText
    simp
  rw [parts, forwardDeclaration, bind_apply, exactly_append, Option.bind_some, bind_apply, word]
  unfold aliasText
  simp

theorem getLast?_openingText (name parent : Name) :
    (openingText name parent).getLast? = some '\x7b' := by
  unfold openingText
  rw [List.getLast?_append_of_ne_nil _ (by decide)]
  rfl

theorem keepsLines_forwardDeclaration :
    KeepsLines (Becomes fun _ => forwardDeclaration) forwardText aliasText := by
  refine keepsLines_of_turns tame_forwardDeclaration.absent
    (spares_forwardDeclaration.turns (by decide)) (spares_forwardDeclaration.turns (by decide))
    (fun name => turns_found ?_ fun _ => forwardDeclaration_forwardText name) fun name parent => ?_
  · unfold forwardText
    simp
  · -- A head has no semicolon, and a find that begins in it cannot run past its bracket.
    refine turns_of_stops forwardDeclaration_reaches
      (not_mem_of_isWordOr (isWordOr_openingText name parent) (by decide)) ?_
    rw [getLast?_openingText]
    rintro _ ⟨⟩
    decide

theorem Tame.keepsLines {find : Option Char → Parser (List Char)} (tame : Tame find)
    (spares : Spares find isInert) : KeepsLines (Becomes find) aliasText aliasText :=
  keepsLines_of_spares spares tame.absent isInert_aliasText

theorem keepsLines_uuidAttribute :
    KeepsLines (Becomes fun _ => uuidAttribute) aliasText aliasText :=
  tame_uuidAttribute.keepsLines fun c inert => spares_uuidAttribute c (by simp_all [isInert])

theorem keepsLines_direction : KeepsLines (Becomes fun _ => direction) aliasText aliasText :=
  tame_direction.keepsLines fun c inert => spares_direction c (by simp_all [isInert])

theorem keepsLines_optionalAttribute :
    KeepsLines (Becomes fun _ => optionalAttribute) aliasText aliasText :=
  tame_optionalAttribute.keepsLines fun c inert => spares_optionalAttribute c (by simp_all [isInert])

theorem keepsLines_leadingAttributes :
    KeepsLines (Becomes fun _ => leadingAttributes) aliasText aliasText :=
  tame_leadingAttributes.keepsLines fun c inert => spares_leadingAttributes c (by simp_all [isInert])

theorem keepsLines_bareAttribute :
    KeepsLines (Becomes fun _ => bareAttribute) aliasText aliasText :=
  tame_bareAttribute.keepsLines fun c inert => spares_bareAttribute c (by simp_all [isInert])

theorem getLast?_forwardText (name : Name) : (forwardText name).getLast? = some ';' :=
  List.getLast?_concat

theorem getLast?_aliasText (name : Name) : (aliasText name).getLast? = some ';' :=
  List.getLast?_concat

/-- An edit whose finds run up to a mark that is on no line, through characters that end no piece of
    a line, keeps the lines. -/
theorem keepsLines_of_stops {find : Option Char → Parser (List Char)} {spell : Name → List Char}
    {mark : Char} {inside : Char → Bool}
    (absent : ∀ before s x rest, find before s = some (x, rest) → '\x7d' ∉ x)
    (reaches : ∀ {before s x rest}, find before s = some (x, rest) →
      ∃ u v, s = u ++ mark :: v ∧ ∀ c ∈ u, inside c = true)
    (missing : isWordOr ['\n', ';', ' ', ':', '\x7b'] mark = false)
    (stops : ['\n', ';', '\x7b'].all (fun c => !inside c) = true)
    (words : ∀ name, (spell name).all (isWordOr [' ', ';']) = true)
    (last : ∀ name, (spell name).getLast? = some ';') : KeepsLines (Becomes find) spell spell := by
  -- Each piece of a line ends with a character that no find goes past.
  have turns {s signs : List Char} {c : Char} (all : s.all (isWordOr signs) = true)
      (known : signs.all (['\n', ';', ' ', ':', '\x7b'].contains ·) = true)
      (final : s.getLast? = some c) (ends : c ∈ ['\n', ';', '\x7b']) : Turns find s s := by
    have every : s.all (isWordOr ['\n', ';', ' ', ':', '\x7b']) = true := by
      refine all_of_isWordOr all (fun c word => by simp [isWordOr, word]) ?_
      rw [List.all_eq_true] at known ⊢
      exact fun c member => by rw [isWordOr, known c member, Bool.or_true]
    refine turns_of_stops reaches (not_mem_of_isWordOr every missing) ?_
    rw [final]
    rintro _ ⟨⟩
    simpa using List.all_eq_true.mp stops c ends
  exact keepsLines_of_turns absent
    (turns (show ['\n'].all (isWordOr ['\n']) = true by decide) (by decide) rfl (by simp))
    (turns (show [';'].all (isWordOr [';']) = true by decide) (by decide) rfl (by simp))
    (fun name => turns (words name) (by decide) (last name) (by simp))
    (fun name parent => turns (isWordOr_openingText name parent) (by decide)
      (getLast?_openingText name parent) (by simp))

theorem keepsLines_array : KeepsLines (Becomes array) aliasText aliasText :=
  keepsLines_of_stops tame_array.absent array_reaches (by decide) (by decide) isWordOr_aliasText
    getLast?_aliasText

/-! ### Emscripten's edits -/

section

open Emscripten

theorem not_mem_frozen {type : List Char} (missing : '\x7d' ∉ type) : '\x7d' ∉ frozen type := by
  unfold frozen
  simp [missing]

theorem keepsLines_arrayAttribute :
    KeepsLines (Becomes fun _ => arrayAttribute) forwardText forwardText := by
  have reaches {s x rest : List Char} (found : arrayAttribute s = some (x, rest)) :
      ∃ u v, s = u ++ '[' :: v ∧ ∀ c ∈ u, (inStatement c || isWord c) = true := by
    obtain ⟨word, type, rfl, folded, -, words, -⟩ := arrayAttribute_eq_some found
    refine ⟨word ++ type, ']' :: rest, by simp, List.forall_mem_append.mpr ⟨fun c member => ?_,
      fun c member => by simp [words c member]⟩⟩
    rw [inStatement_of_folded folded (by decide) c member, Bool.true_or]
  have stops : ['\n', ';', '\x7b'].all (fun c => !(inStatement c || isWord c)) = true := by decide
  refine keepsLines_of_stops (fun _ s x rest found => ?_) reaches (by decide) stops
    isWordOr_forwardText getLast?_forwardText
  obtain ⟨word, type, -, -, -, words, rfl⟩ := arrayAttribute_eq_some found
  have missing : '\x7d' ∉ type := fun member => absurd (words _ member) (by decide)
  rw [List.mem_append]
  exact not_or.mpr ⟨by decide, not_mem_frozen missing⟩

theorem keepsLines_arrayOf {type : List Char} (known : type.all Char.isAlphanum = true) :
    KeepsLines (Becomes fun _ => arrayOf type) forwardText forwardText := by
  have reaches {s x rest : List Char} (found : arrayOf type s = some (x, rest)) :
      ∃ u v, s = u ++ '[' :: v ∧ ∀ c ∈ u, inStatement c = true := by
    obtain ⟨word, rfl, folded, -⟩ := arrayOf_eq_some found
    refine ⟨word, ']' :: rest, by simp, inStatement_of_folded folded ?_⟩
    rw [List.all_eq_true] at known ⊢
    exact fun c member => by rw [known c member, Bool.true_or]
  have stops : ['\n', ';', '\x7b'].all (fun c => !inStatement c) = true := by decide
  refine keepsLines_of_stops (fun _ s x rest found => ?_) reaches (by decide) stops
    isWordOr_forwardText getLast?_forwardText
  obtain ⟨word, -, -, rfl⟩ := arrayOf_eq_some found
  exact not_mem_frozen fun member => absurd (List.all_eq_true.mp known _ member) (by decide)

/-- Writes a comment mark before a statement of implementation. -/
def commentStatement (before : Option Char) : Parser (List Char) :=
  (fun found => "// ".toList ++ found.1) <$> findStatement before

theorem commentStatement_eq_some {before : Option Char} {s x rest : List Char}
    (reads : commentStatement before s = some (x, rest)) :
    ∃ i text, s = text ++ ';' :: rest ∧ Spells i text ∧ x = "// ".toList ++ (text ++ [';']) := by
  simp only [commentStatement, findStatement, withText, map_apply, Option.map_eq_some_iff,
    Prod.mk.injEq] at reads
  obtain ⟨_, ⟨⟨i, t⟩, reads, rfl⟩, rfl, rfl⟩ := reads
  obtain ⟨text, rfl, spells⟩ := implementation_eq_some reads
  have counted : (text ++ ';' :: t).length - t.length = text.length + 1 := by
    simp only [List.length_append, List.length_cons]
    omega
  refine ⟨i, text, rfl, spells, ?_⟩
  rw [counted]
  simp [List.take_append]

/-- The word in a statement stands between blanks. -/
theorem two_le_count_blank {i : Implementation} {text : List Char} (spells : Spells i text) :
    2 ≤ text.count ' ' := by
  obtain ⟨-, -, word, rfl, folded⟩ := spells
  have same : word.count ' ' = (word.map foldCase).count ' ' := by
    rw [List.count_eq_countP, List.count_eq_countP, List.countP_map]
    refine List.countP_congr fun c _ => ?_
    simp only [beq_iff_eq, Function.comp]
    exact ⟨fun blank => by rw [blank]; decide, fun blank => eq_of_foldCase blank (by decide)⟩
  have two : (" implements ".toList).count ' ' = 2 := by decide
  rw [List.count_append, List.count_append, same, folded, two]
  omega

theorem count_blank_forwardText (name : Name) : (forwardText name).count ' ' = 1 := by
  have none : name.text.toList.count ' ' = 0 :=
    List.count_eq_zero.mpr (name.not_mem (by decide))
  unfold forwardText
  rw [List.count_append, List.count_append, none]
  decide

theorem keepsLines_commentStatement :
    KeepsLines (Becomes commentStatement) forwardText forwardText := by
  -- Before its semicolon a statement has two blanks.  A forward declaration has only one, and a head
  -- has no semicolon.
  have spares : Spares commentStatement (fun c => !isNamePart c) := by
    intro c other before rest
    simp [commentStatement, spares_findStatement c other before rest]
  have reaches {before : Option Char} {s x rest : List Char}
      (found : commentStatement before s = some (x, rest)) :
      ∃ u v, s = u ++ ';' :: v ∧ (∀ c ∈ u, inStatement c = true) ∧ 2 ≤ u.count ' ' := by
    obtain ⟨i, text, rfl, spells, -⟩ := commentStatement_eq_some found
    exact ⟨text, rest, rfl, spells.inStatement, two_le_count_blank spells⟩
  refine keepsLines_of_turns (fun before s x rest found => ?_) (spares.turns (by decide))
    (spares.turns (by decide)) (fun name => turns_of_scans (scans_of_stops reaches ?_ ?_))
    fun name parent => turns_of_scans (scans_of_stops reaches ?_ ?_)
  · obtain ⟨i, text, -, spells, rfl⟩ := commentStatement_eq_some found
    have missing : '\x7d' ∉ text := fun member => absurd (spells.inStatement _ member) (by decide)
    simp [missing]
  · intro u part two
    have fewer := part.sublist.count_le ' '
    rw [count_blank_forwardText, List.count_append] at fewer
    omega
  · rw [getLast?_forwardText]
    rintro _ ⟨⟩
    decide
  · intro u part
    have missing : ';' ∉ openingText name parent :=
      not_mem_of_isWordOr (isWordOr_openingText name parent) (by decide)
    exact absurd (part.subset (by simp)) missing
  · rw [getLast?_openingText]
    rintro _ ⟨⟩
    decide

theorem commented_eq (s : List Char) :
    (implementations s).flatMap (Sum.elim (fun c => [c]) fun found => "// ".toList ++ found.1) =
      replaceAll commentStatement s := by
  have mapped : scan commentStatement s = (scan findStatement s).map
      (Sum.map id fun found => "// ".toList ++ found.1) := scan_map _ findStatement s
  rw [replaceAll, mapped, List.flatMap_map]
  refine List.flatMap_congr fun piece _ => ?_
  cases piece <;> rfl

/-- The names that a statement is found to have. -/
theorem spells_of_implementations {s : List Char} {i : Implementation}
    (member : i ∈ (implementations s).filterMap fun piece => piece.getRight?.map Prod.snd) :
    ∃ text, Spells i text := by
  rw [List.mem_filterMap] at member
  obtain ⟨piece, member, right⟩ := member
  cases piece with
  | inl c => simp at right
  | inr found =>
    obtain rfl : found.2 = i := by simpa using right
    obtain ⟨before, t, rest, reads⟩ := exists_of_mem_scan member
    obtain ⟨text, -, spells⟩ := @findStatement_eq_some before _ _ _ reads
    exact ⟨text, spells⟩

/-- The head of a definition does not end in the head of an interface without a parent. -/
theorem clear_openingText {child : List Char} (noBlank : ' ' ∉ child) (noBracket : '\x7b' ∉ child)
    (name parent : Name) :
    Clear ("interface ".toList ++ child ++ " \x7b".toList) (openingText name parent) := by
  have parts : openingText name parent = ("interface ".toList ++ name.text.toList ++ " : ".toList ++
      parent.text.toList ++ [' ']) ++ ['\x7b'] := by
    unfold openingText
    simp
  have old : "interface ".toList ++ child ++ " \x7b".toList =
      ("interface ".toList ++ child ++ [' ']) ++ ['\x7b'] := by
    simp
  have noMark (name : Name) : '\x7b' ∉ name.text.toList := name.not_mem (by decide)
  rw [parts, old]
  refine clear_of_mark ?_ ?_ fun ends => ?_
  · simp [noMark]
  · simp [noBracket]
  · -- Both end in a name and a blank; before it there is a letter in one and a colon in the other.
    obtain ⟨u, whole⟩ := ends
    have cut : (u ++ "interface".toList) ++ ' ' :: child =
        ("interface ".toList ++ name.text.toList ++ " :".toList) ++ ' ' :: parent.text.toList := by
      refine (List.append_left_inj [' ']).mp ?_
      simpa using whole
    obtain ⟨same, -⟩ := cut_at_last noBlank (parent.not_mem (by decide)) cut
    have last := congrArg List.getLast? same
    rw [List.getLast?_append_of_ne_nil _ (by decide), List.getLast?_append_of_ne_nil _ (by decide)]
      at last
    exact absurd last (by decide)

/-- A statement of implementation leaves the heads with a parent alone. -/
theorem keepsLines_addParent {i : Implementation} {text : List Char} (spells : Spells i text) :
    KeepsLines (fun s t => t = s ∨ t = addParent s i) forwardText forwardText := by
  have lacks {name : List Char} (parts : ∀ c ∈ name, isNamePart c = true) {c : Char}
      (other : isNamePart c = false) : c ∉ name := fun member => by
    simp [parts c member] at other
  have child {c : Char} (other : isNamePart c = false) : c ∉ i.child := lacks spells.child.2 other
  have parent {c : Char} (other : isNamePart c = false) : c ∉ i.parent := lacks spells.parent.2 other
  -- A text that is clear of the head is passed by, whether the parent is added or not.
  have passes {s : List Char}
      (clear : Clear ("interface ".toList ++ i.child ++ " \x7b".toList) s) :
      Passes (fun s t => t = s ∨ t = addParent s i) s s := by
    rintro rest _ (rfl | rfl)
    · exact ⟨rest, rfl, .inl rfl⟩
    · exact ⟨_, clear.replaceFirst rest, .inr rfl⟩
  have first (s : List Char) (missing : 'i' ∉ s) :
      Clear ("interface ".toList ++ i.child ++ " \x7b".toList) s := clear_of_missing missing
  refine
    { nil := ?_
      newLine := passes (first _ (by decide))
      semicolon := passes (first _ (by decide))
      forward := fun name => passes ?_
      opening := fun name _ => passes
        (clear_openingText (child (by decide)) (child (by decide)) name _)
      bracket := ?_ }
  · rintro _ (rfl | rfl) <;> rfl
  -- A forward declaration ends before any bracket.
  · have missing : '\x7b' ∉ "interface ".toList ++ name.text.toList := by
      simp [name.not_mem (show isAsciiWord '\x7b' = false by decide)]
    refine clear_of_stop (s := "interface ".toList ++ name.text.toList) ?_ fun inside => ?_
    · simp [child (show isNamePart ';' = false by decide)]
    · exact missing (inside.subset (by simp))
  · rintro s u v (whole | whole)
    · exact ⟨u, v, whole.symm, .inl rfl⟩
    · refine replaceFirst_mark ?_ whole.symm
      simp [child (show isNamePart '\x7d' = false by decide),
        parent (show isNamePart '\x7d' = false by decide)]

/-! ### All edits together -/

theorem KeepsLines.replaceAll {find : Option Char → Parser (List Char)}
    {spell spell' : Name → List Char} (keeps : KeepsLines (Becomes find) spell spell')
    {lines : List Line} {s : List Char} (laid : Laid spell lines s) :
    Laid spell' lines (replaceAll find s) :=
  keeps.laid laid ⟨none, rfl⟩

theorem laid_inheritImplemented {lines : List Line} {s : List Char}
    (laid : Laid forwardText lines s) : Laid forwardText lines (inheritImplemented s) := by
  have commented : Laid forwardText lines ((implementations s).flatMap
      (Sum.elim (fun c => [c]) fun found => "// ".toList ++ found.1)) := by
    rw [commented_eq]
    exact keepsLines_commentStatement.replaceAll laid
  have spelled := fun i member => @spells_of_implementations s i member
  rw [inheritImplemented]
  -- The parents are given one after the other, and the text stays laid each time.
  generalize (implementations s).filterMap _ = found at spelled ⊢
  generalize (implementations s).flatMap _ = text at commented ⊢
  induction found generalizing text with
  | nil => exact commented
  | cons i found ih =>
    rw [List.forall_mem_cons] at spelled
    obtain ⟨⟨_, spells⟩, others⟩ := spelled
    exact ih others _ ((keepsLines_addParent spells).laid commented (.inr rfl))

theorem laid_freezeArrays {lines : List Line} {s : List Char} (laid : Laid forwardText lines s) :
    Laid forwardText lines (freezeArrays s) :=
  (keepsLines_arrayOf (by decide)).replaceAll ((keepsLines_arrayOf (by decide)).replaceAll
    (keepsLines_arrayAttribute.replaceAll laid))

end

/-- Mending keeps the lines and makes the forward declarations names for any type. -/
theorem laid_edited (options : Options) (lines : List Line) :
    Laid aliasText lines (edited options (documentText lines)) := by
  have written : Laid forwardText lines (documentText lines) :=
    laid_documentText fun _ member => member
  have dialect : Laid forwardText lines (if options.emscripten then
      Emscripten.freezeArrays (Emscripten.inheritImplemented (documentText lines)) else
        documentText lines) := by
    split
    · exact laid_freezeArrays (laid_inheritImplemented written)
    · exact written
  have named := keepsLines_forwardDeclaration.replaceAll
    (keepsLines_codeBlock.replaceAll (keepsLines_directive.replaceAll dialect))
  have directed := keepsLines_direction.replaceAll (keepsLines_uuidAttribute.replaceAll named)
  have bare := keepsLines_bareAttribute.replaceAll (keepsLines_leadingAttributes.replaceAll
    (keepsLines_optionalAttribute.replaceAll directed))
  exact keepsLines_array.replaceAll bare

end IdlTypings.Dialect.Gecko
