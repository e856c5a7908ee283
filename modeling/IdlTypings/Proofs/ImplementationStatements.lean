import Mathlib
import IdlTypings.Dialect.Emscripten
import IdlTypings.Grammar.Lowering
import IdlTypings.Proofs.InterfaceHeads
import IdlTypings.Proofs.TextEdits

/-! # Statements of implementation

A document for Emscripten's binder is made of interfaces, of other definitions and of statements that
one interface implements another, in any layout.  Mending makes the statements comments and puts the
parents into the heads of the interfaces: `mend_write`.

* `implementations_write` finds the statements and nothing else.
* `addParent_write` is one step of mending.  A statement gives its parent to the first interface with
  the name of its child that has none.  No other head is changed, because none is found in a body, in a
  comment or in a head that has its parent already.
-/

namespace IdlTypings.Dialect.Emscripten

open IdlTypings.Parser IdlTypings.Text
open Grammar (headText)

/-! ## Documents -/

/-- A name of letters and digits that is no keyword. -/
structure Name where
  text : String
  isIdentifier : Grammar.IsIdentifier text
  alphanumeric : text.toList.all Char.isAlphanum = true

/-- That one interface implements another. -/
structure Statement where
  child : Name
  parent : Name

/-- An interface without a parent.  Neither `interface` nor `implements` stands in its body, in
    whatever case, and it is read as an interface when it stands alone. -/
structure Block where
  name : Name
  body : String
  noArray : ¬ "[]".toList <:+: body.toList
  noInterface : ¬ "interface".toList <:+: body.toList.map foldCase
  noImplements : ¬ "implements".toList <:+: body.toList.map foldCase
  meaning : Idl.Interface
  reads : Grammar.read (headText name.text none ++ "\x7b" ++ body ++ "\x7d;").toList =
    .ok [.interface meaning]

/-- Whether a definition stands for a statement of implementation. -/
def isImplements : Idl.Definition → Bool
  | .unsupported node => node.kind == "implements"
  | _ => false

/-- Another definition, up to its semicolon.  Neither a head that waits for a parent nor a statement is
    found in it. -/
structure Passage where
  text : String
  first : ∀ c ∈ (text ++ ";").toList.head?, Grammar.isSolid c = true
  noArray : ¬ "[]".toList <:+: text.toList
  noHead : ¬ "interface".toList <:+: text.toList ∨ ¬ " \x7b".toList <:+: text.toList
  noStatement : ∀ s ∈ (text ++ ";").toList.tails, (implementation s).isNone = true
  meaning : Idl.Definition
  other : isImplements meaning = false
  reads : Grammar.read (text ++ ";").toList = .ok [meaning]

/-- White space. -/
structure Gap where
  text : String
  blank : text.toList.all Grammar.isBlank = true

/-- A part of a document. -/
inductive Part where
  | interface (block : Block) (parent : Option Name)
  | passage (passage : Passage)
  | statement (statement : Statement)
  | gap (gap : Gap)

def Statement.text (statement : Statement) : String :=
  statement.child.text ++ " implements " ++ statement.parent.text ++ ";"

/-- The text of an interface with a parent or without one. -/
def Block.write (block : Block) (parent : Option String) : String :=
  headText block.name.text parent ++ "\x7b" ++ block.body ++ "\x7d;"

/-- The text of a part, with a mark before the statements. -/
def Part.write (mark : String) : Part → List Char
  | .interface b parent => (b.write (parent.map Name.text)).toList
  | .passage p => (p.text ++ ";").toList
  | .statement s => (mark ++ s.text).toList
  | .gap g => g.text.toList

/-- The text of a document, with a mark before the statements. -/
def write (mark : String) (parts : List Part) : List Char :=
  parts.flatMap (Part.write mark)

def Part.statement? : Part → Option Statement
  | .statement s => some s
  | _ => none

/-- An interface without a parent waits for the statement about its name. -/
def Part.awaits (child : Name) : Part → Bool
  | .interface b none => b.name.text == child.text
  | _ => false

/-- An interface with another parent. -/
def Part.inherit (parent : Name) : Part → Part
  | .interface b _ => .interface b (some parent)
  | part => part

/-- The first interface that waits for a statement gets its parent. -/
def give : List Part → Statement → List Part
  | [], _ => []
  | part :: parts, s =>
    if part.awaits s.child then part.inherit s.parent :: parts else part :: give parts s

/-- A document whose statements have given their parents, from the first to the last. -/
def inherited (parts : List Part) : List Part :=
  (parts.filterMap Part.statement?).foldl give parts

theorem Part.awaits_eq_true {child : Name} {part : Part} (awaits : part.awaits child = true) :
    ∃ b, part = .interface b none ∧ b.name.text = child.text := by
  cases part with
  | interface b parent =>
    cases parent with
    | none => exact ⟨b, rfl, by simpa [Part.awaits] using awaits⟩
    | some parent => cases awaits
  | passage _ | statement _ | gap _ => cases awaits

/-! ## Characters of names -/

theorem Name.all (name : Name) {kind : Char → Bool}
    (words : ∀ c, c.isAlphanum = true → kind c = true) : ∀ c ∈ name.text.toList, kind c = true :=
  fun c member => words c (List.all_eq_true.mp name.alphanumeric c member)

/-- A character that is no letter or digit is not in a name. -/
theorem Name.lacks (name : Name) {c : Char} (mark : c.isAlphanum = false) :
    c ∉ name.text.toList := by
  intro member
  have known := List.all_eq_true.mp name.alphanumeric c member
  simp [mark] at known

theorem Name.ne_nil (name : Name) : name.text.toList ≠ [] := by
  obtain ⟨c, s, chars, -⟩ := Grammar.isWord_cons name.isIdentifier.word
  simp [chars]

theorem isNamePart_of_alphanum (c : Char) (known : c.isAlphanum = true) : isNamePart c = true := by
  have small : ∀ n < 128, (Char.ofNat n).isAlphanum = true → isNamePart (Char.ofNat n) = true := by
    decide +kernel
  have ascii : c.toNat < 128 := toNat_of_isAsciiWord (by simp [isAsciiWord, known])
  have folded := small c.toNat ascii
  rw [Char.ofNat_toNat] at folded
  exact folded known

/-- A character that is no small letter is the fold of itself only. -/
theorem eq_of_foldCase {c d : Char} (folded : foldCase c = d) (mark : d.isLower = false) :
    c = d := by
  rw [foldCase] at folded
  -- The two letters outside ASCII fold to small letters.
  split at folded
  · subst folded
    exact absurd mark (by decide)
  split at folded
  · subst folded
    exact absurd mark (by decide)
  rw [Char.toLower] at folded
  split at folded
  next upper =>
    subst folded
    simp [Char.isLower, UInt32.le_iff_toNat_le] at upper mark
    omega
  next => exact folded

/-! ## Finding the statements -/

theorem eq_append_of_exactlyFolded {cs s t : List Char} {x : Unit}
    (found : exactlyFolded cs s = some (x, t)) : ∃ u, s = u ++ t ∧ u.map foldCase = cs := by
  induction cs generalizing s with
  | nil =>
    simp only [exactlyFolded, Option.some.injEq, Prod.mk.injEq] at found
    exact ⟨[], found.2, rfl⟩
  | cons c cs ih =>
    cases s with
    | nil => simp [exactlyFolded] at found
    | cons d s =>
      rw [exactlyFolded] at found
      split at found
      next same =>
        obtain ⟨u, rfl, folded⟩ := ih found
        exact ⟨d :: u, rfl, by rw [List.map_cons, folded, ← beq_iff_eq.mp same]⟩
      next => cases found

theorem exactlyFolded_append (word s : List Char) :
    exactlyFolded (word.map foldCase) (word ++ s) = some ((), s) := by
  induction word with
  | nil => rfl
  | cons c word ih =>
    rw [List.map_cons, List.cons_append, exactlyFolded, if_pos (beq_self_eq_true _), ih]

/-- A character that a statement may contain before its semicolon. -/
def inStatement (c : Char) : Bool :=
  isNamePart c || foldCase c == ' '

/-- A word without regard to case is made of characters of a statement. -/
theorem inStatement_of_folded {word text : List Char} (folded : word.map foldCase = text)
    (known : text.all (fun c => c.isAlphanum || c == ' ') = true) :
    ∀ c ∈ word, inStatement c = true := by
  intro c member
  exact List.all_eq_true.mp known (foldCase c) (folded ▸ List.mem_map_of_mem member)

/-- The text of a statement up to its semicolon: two names around `implements`. -/
structure Spells (i : Implementation) (text : List Char) : Prop where
  child : i.child ≠ [] ∧ ∀ c ∈ i.child, isNamePart c = true
  parent : i.parent ≠ [] ∧ ∀ c ∈ i.parent, isNamePart c = true
  middle : ∃ word, text = i.child ++ (word ++ i.parent) ∧ word.map foldCase = " implements ".toList

theorem implementation_eq_some {s rest : List Char} {i : Implementation}
    (reads : implementation s = some (i, rest)) : ∃ text, s = text ++ ';' :: rest ∧ Spells i text := by
  simp only [implementation, bind_apply, Option.bind_eq_some_iff] at reads
  obtain ⟨⟨child, s₁⟩, readsChild, ⟨_, s₂⟩, readsWord, ⟨parent, s₃⟩, readsParent, ⟨_, s₄⟩,
    readsMark, same⟩ := reads
  obtain ⟨rfl, rfl⟩ : Implementation.mk child parent = i ∧ s₄ = rest := by simpa using same
  obtain ⟨rfl, isChild⟩ := eq_append_of_takeWhile1 readsChild
  obtain ⟨word, rfl, folded⟩ := eq_append_of_exactlyFolded readsWord
  obtain ⟨rfl, isParent⟩ := eq_append_of_takeWhile1 readsParent
  obtain rfl := eq_append_of_exactly readsMark
  exact ⟨child ++ (word ++ parent), by simp, isChild, isParent, word, rfl, folded⟩

theorem Spells.reads {i : Implementation} {text : List Char} (spells : Spells i text)
    (rest : List Char) : implementation (text ++ ';' :: rest) = some (i, rest) := by
  obtain ⟨child, parent, word, rfl, folded⟩ := spells
  -- The word in between begins with a blank, which ends the name of the child.
  have first : ∀ c ∈ (word ++ (i.parent ++ ';' :: rest)).head?, isNamePart c = false := by
    cases word with
    | nil => simp at folded
    | cons c word =>
      have blank : foldCase c = ' ' := (List.cons.inj folded).1
      simp [isNamePart, blank]
  have readsChild := takeWhile1_run child.1 child.2 first
  have readsWord := exactlyFolded_append word (i.parent ++ ';' :: rest)
  have readsParent : takeWhile1 isNamePart (i.parent ++ ';' :: rest) = some (i.parent, ';' :: rest) :=
    takeWhile1_run parent.1 parent.2 (by simp [show isNamePart ';' = false by decide])
  rw [folded] at readsWord
  simp only [List.append_assoc, implementation, bind_apply, readsChild, readsWord, readsParent,
    Option.bind_some]
  rfl

/-- A statement runs through names and blanks. -/
theorem Spells.inStatement {i : Implementation} {text : List Char} (spells : Spells i text) :
    ∀ c ∈ text, inStatement c = true := by
  obtain ⟨child, parent, word, rfl, folded⟩ := spells
  simp only [List.forall_mem_append]
  exact ⟨fun c member => by simp [Emscripten.inStatement, child.2 c member],
    inStatement_of_folded folded (by decide),
    fun c member => by simp [Emscripten.inStatement, parent.2 c member]⟩

theorem Spells.noSemicolon {i : Implementation} {text : List Char} (spells : Spells i text) :
    ';' ∉ text := by
  intro member
  have known := spells.inStatement ';' member
  simp [show Emscripten.inStatement ';' = false by decide] at known

theorem Spells.stated {i : Implementation} {text : List Char} (spells : Spells i text) :
    "implements".toList <:+: text.map foldCase := by
  obtain ⟨-, -, word, rfl, folded⟩ := spells
  rw [List.map_append, List.map_append, folded]
  exact ⟨i.child.map foldCase ++ [' '], ' ' :: i.parent.map foldCase, by simp⟩

def findStatement : Option Char → Parser (List Char × Implementation) :=
  fun _ => withText implementation

theorem findStatement_eq_some {before : Option Char} {s rest : List Char}
    {found : List Char × Implementation} (reads : findStatement before s = some (found, rest)) :
    ∃ text, s = text ++ ';' :: rest ∧ Spells found.2 text := by
  simp only [findStatement, withText, Option.map_eq_some_iff] at reads
  obtain ⟨⟨i, t⟩, reads, same⟩ := reads
  obtain ⟨rfl, rfl⟩ := Prod.mk.inj same
  exact implementation_eq_some reads

theorem findStatement_reaches {before : Option Char} {s rest : List Char}
    {found : List Char × Implementation} (reads : findStatement before s = some (found, rest)) :
    ∃ u v, s = u ++ ';' :: v ∧ (∀ c ∈ u, inStatement c = true) ∧
      "implements".toList <:+: u.map foldCase := by
  obtain ⟨text, split, spells⟩ := findStatement_eq_some reads
  exact ⟨text, rest, split, spells.inStatement, spells.stated⟩

def Statement.found (statement : Statement) : Implementation :=
  ⟨statement.child.text.toList, statement.parent.text.toList⟩

theorem implementation_statement (statement : Statement) (rest : List Char) :
    implementation (statement.text.toList ++ rest) = some (statement.found, rest) := by
  have isName (name : Name) :
      name.text.toList ≠ [] ∧ ∀ c ∈ name.text.toList, isNamePart c = true :=
    ⟨name.ne_nil, name.all isNamePart_of_alphanum⟩
  have spells : Spells statement.found (statement.child.text.toList ++
      (" implements ".toList ++ statement.parent.text.toList)) :=
    ⟨isName statement.child, isName statement.parent, " implements ".toList, rfl, by decide⟩
  have text : statement.text.toList ++ rest = (statement.child.text.toList ++
      (" implements ".toList ++ statement.parent.text.toList)) ++ ';' :: rest := by
    simp [Statement.text]
  rw [text]
  exact spells.reads rest

theorem spares_findStatement : Spares findStatement (fun c => !isNamePart c) := by
  intro c other _ rest
  simp_all [findStatement, withText, implementation, takeWhile1]

theorem scans_statement (statement : Statement) :
    Scans findStatement statement.text.toList [.inr (statement.text.toList, statement.found)] := by
  refine scans_found ?_ fun _ rest => withText_append (implementation_statement statement rest)
  simp [Statement.text]

theorem scans_interface (block : Block) (parent : Option Name) :
    Scans findStatement (block.write (parent.map Name.text)).toList
      ((block.write (parent.map Name.text)).toList.map .inl) := by
  have word (name : Name) : ';' ∉ name.text.toList := name.lacks (by decide)
  -- A statement cannot run past a curly bracket, so it would stand in the head or in the body.
  have head : Scans findStatement ((headText block.name.text (parent.map Name.text)).toList ++ ['\x7b'])
      (((headText block.name.text (parent.map Name.text)).toList ++ ['\x7b']).map .inl) := by
    refine scans_of_stops findStatement_reaches (fun u part _ => ?_) ?_
    · have member : ';' ∈ (headText block.name.text (parent.map Name.text)).toList ++ ['\x7b'] :=
        part.subset (by simp)
      cases parent <;> simp [headText, word] at member
    · simp [show inStatement '\x7b' = false by decide]
  have body : Scans findStatement (block.body.toList ++ ['\x7d'])
      ((block.body.toList ++ ['\x7d']).map .inl) := by
    refine scans_of_stops findStatement_reaches (fun u part stated => ?_) ?_
    · have whole : u.map foldCase <:+: block.body.toList.map foldCase ++ ['\x7d'] := by
        have folded := (List.IsInfix.trans ⟨[], [';'], rfl⟩ part).map foldCase
        simpa [show foldCase '\x7d' = '\x7d' by decide] using folded
      exact block.noImplements (infix_of_concat (by decide) (stated.trans whole))
    · simp [show inStatement '\x7d' = false by decide]
  have semicolon : Scans findStatement [';'] ([';'].map .inl) :=
    spares_findStatement.scans (by decide)
  have whole := (head.append body).append semicolon
  simpa [Block.write] using whole

/-- A statement that begins before a semicolon ends there, so it is found without what follows. -/
theorem scans_passage (passage : Passage) :
    Scans findStatement (passage.text ++ ";").toList ((passage.text ++ ";").toList.map .inl) := by
  refine scans_of_fails ?_
  intro u c v split before rest
  cases found : findStatement before (c :: (v ++ rest)) with
  | none => rfl
  | some result =>
    obtain ⟨text, whole, spells⟩ := findStatement_eq_some found
    have semicolon : ';' ∈ c :: v := by
      have last := congrArg List.getLast? split
      rw [List.getLast?_append_of_ne_nil _ (by simp)] at last
      exact List.mem_of_getLast? (a := ';') (by rw [← last]; simp)
    obtain ⟨first, after, inside, missing⟩ := List.eq_append_cons_of_mem semicolon
    -- The semicolon that ends the find is the first one, and that stands in the passage.
    change (c :: v) ++ rest = _ at whole
    rw [inside, List.append_assoc, List.cons_append] at whole
    obtain ⟨rfl, -⟩ := cut_at_first missing spells.noSemicolon whole
    have nothing := passage.noStatement (first ++ ';' :: after) (by
      rw [List.mem_tails, ← inside]
      exact ⟨u, split.symm⟩)
    simp [spells.reads after] at nothing

/-- What is found in a part. -/
def Part.pieces : Part → List (Char ⊕ (List Char × Implementation))
  | .statement s => [.inr (s.text.toList, s.found)]
  | part => (part.write "").map .inl

/-- The statements of a document are found, and nothing else is. -/
theorem implementations_write (parts : List Part) :
    implementations (write "" parts) = parts.flatMap Part.pieces := by
  refine Scans.scan (Scans.flatMap fun part _ => ?_)
  cases part with
  | interface b parent => exact scans_interface b parent
  | passage p => exact scans_passage p
  | statement s =>
    have text : (Part.statement s).write "" = s.text.toList := by simp [Part.write]
    rw [text]
    exact scans_statement s
  | gap g =>
    refine spares_findStatement.scans (List.all_eq_true.mpr fun c member => ?_)
    have blank := List.all_eq_true.mp g.blank c member
    simp only [Grammar.isBlank, Bool.or_eq_true, beq_iff_eq] at blank
    obtain ((rfl | rfl) | rfl) | rfl := blank <;> decide

/-! ## Giving the parents -/

/-- Mending makes the statements comments and then gives their parents. -/
theorem inheritImplemented_write (parts : List Part) :
    inheritImplemented (write "" parts) =
      ((parts.filterMap Part.statement?).map Statement.found).foldl addParent (write "// " parts) := by
  -- The pieces give the statements on one side and the text with comments on the other.
  have found : (parts.flatMap Part.pieces).filterMap (fun piece => piece.getRight?.map Prod.snd) =
      (parts.filterMap Part.statement?).map Statement.found := by
    have kept (s : List Char) : (s.map (β := Char ⊕ (List Char × Implementation)) .inl).filterMap
        (fun piece => piece.getRight?.map Prod.snd) = [] := by
      simp [List.filterMap_eq_nil_iff]
    induction parts with
    | nil => rfl
    | cons part parts ih =>
      rw [List.flatMap_cons, List.filterMap_append, ih]
      cases part with
      | statement s => rfl
      | interface _ _ | passage _ | gap _ => exact congrArg (· ++ _) (kept _)
  have commented : (parts.flatMap Part.pieces).flatMap
      (Sum.elim (fun c => [c]) fun found => "// ".toList ++ found.1) = write "// " parts := by
    rw [List.flatMap_assoc, write]
    congr 1
    funext part
    cases part <;> simp [Part.pieces, Part.write, List.flatMap_map]
  rw [inheritImplemented, implementations_write]
  simp only [commented, found]

theorem toList_headText_none (name : String) :
    (headText name none).toList = ("interface".toList ++ ' ' :: name.toList) ++ [' '] := by
  simp [headText]

theorem toList_headText_some (name parent : String) :
    (headText name (some parent)).toList =
      (("interface".toList ++ ' ' :: name.toList ++ [':']) ++ ' ' :: parent.toList) ++ [' '] := by
  simp [headText]

/-- A head ends in the head of a name without a parent only if it is that head. -/
theorem headText_suffix {child name : Name} {parent : Option Name}
    (ends : (headText child.text none).toList <:+
      (headText name.text (parent.map Name.text)).toList) :
    child.text = name.text ∧ parent = none := by
  have word (name : Name) : ' ' ∉ name.text.toList := name.lacks (by decide)
  obtain ⟨u, whole⟩ := ends
  cases parent with
  | none =>
    rw [Option.map_none, toList_headText_none, toList_headText_none, ← List.append_assoc] at whole
    have same := List.append_cancel_right whole
    rw [← List.append_assoc] at same
    exact ⟨String.toList_injective (cut_at_last (word child) (word name) same).2, rfl⟩
  | some parent =>
    rw [Option.map_some, toList_headText_none, toList_headText_some, ← List.append_assoc] at whole
    have same := List.append_cancel_right whole
    rw [← List.append_assoc] at same
    -- Before the last word there is a colon, which the other head has not.
    have before := (cut_at_last (word child) (word parent) same).1
    have last := congrArg List.getLast? before
    rw [List.getLast?_concat, List.getLast?_append_of_ne_nil _ (by simp)] at last
    simp at last

/-- The text that a head is looked for by. -/
def openHead (name : Name) : List Char :=
  (headText name.text none).toList ++ ['\x7b']

/-- A head is made of words, blanks and a colon. -/
theorem not_mem_headText (name : Name) (parent : Option Name) {c : Char}
    (mark : c.isAlphanum = false) (others : c ∉ [' ', ':']) :
    c ∉ (headText name.text (parent.map Name.text)).toList := by
  have letters : c ∉ "interface".toList := by
    intro letter
    have known : ∀ d ∈ "interface".toList, d.isAlphanum = true := List.all_eq_true.mp (by decide)
    simp [known c letter] at mark
  have word (name : Name) : c ∉ name.text.toList := name.lacks mark
  simp only [List.mem_cons, List.not_mem_nil, or_false, not_or] at others
  cases parent with
  | none => simp [-String.reduceToList, toList_headText_none, letters, word, others]
  | some parent => simp [-String.reduceToList, toList_headText_some, letters, word, others]

theorem not_mem_openHead {name : Name} {c : Char} (mark : c.isAlphanum = false)
    (others : c ∉ [' ', ':']) (bracket : c ≠ '\x7b') : c ∉ openHead name := by
  rw [openHead, List.mem_append, List.mem_singleton]
  exact not_or.mpr ⟨not_mem_headText name none mark others, bracket⟩

theorem interface_infix_openHead (name : Name) : "interface".toList <:+: openHead name := by
  rw [openHead, toList_headText_none]
  exact ⟨[], ' ' :: name.text.toList ++ [' '] ++ ['\x7b'], by simp⟩

theorem clear_head {child name : Name} {parent : Option Name}
    (other : name.text = child.text → parent ≠ none) :
    Clear (openHead child) ((headText name.text (parent.map Name.text)).toList ++ ['\x7b']) := by
  refine clear_of_mark (not_mem_headText name parent (by decide) (by decide))
    (not_mem_headText child none (by decide) (by decide)) fun ends => ?_
  obtain ⟨same, orphan⟩ := headText_suffix ends
  exact other same.symm orphan

/-- The head of a name is not found in the body of an interface. -/
theorem clear_body (child : Name) (block : Block) :
    Clear (openHead child) (block.body.toList ++ ['\x7d']) := by
  refine clear_of_stop (not_mem_openHead (by decide) (by decide) (by decide)) fun inside => ?_
  have folded := ((interface_infix_openHead child).trans inside).map foldCase
  rw [show "interface".toList.map foldCase = "interface".toList by decide] at folded
  exact block.noInterface folded

/-- The head of a name is not found in a part that does not wait for a statement about it. -/
theorem clear_part {child : Name} {part : Part} (other : part.awaits child = false) :
    Clear (openHead child) (part.write "// ") := by
  have bracket : '\x7b' ∈ openHead child := by simp [openHead]
  have semicolon : ';' ∉ openHead child := not_mem_openHead (by decide) (by decide) (by decide)
  cases part with
  | interface b parent =>
    have head : Clear (openHead child)
        ((headText b.name.text (parent.map Name.text)).toList ++ ['\x7b']) := by
      -- Only the head of this name without a parent waits for the statement.
      refine clear_head ?_
      rintro same rfl
      simp [Part.awaits, same] at other
    have foot : Clear (openHead child) ([] ++ [';']) :=
      clear_of_stop semicolon fun inside => by simpa using inside.subset bracket
    have whole := (head.append (clear_body child b)).append foot
    simpa [Part.write, Block.write] using whole
  | passage p =>
    have bracket : " \x7b".toList <:+: openHead child := by
      rw [openHead, toList_headText_none]
      exact ⟨"interface".toList ++ ' ' :: child.text.toList, [], by simp⟩
    have text : Clear (openHead child) (p.text.toList ++ [';']) := by
      refine clear_of_stop semicolon fun inside => ?_
      rcases p.noHead with noInterface | noBracket
      · exact noInterface ((interface_infix_openHead child).trans inside)
      · exact noBracket (bracket.trans inside)
    simpa [Part.write] using text
  | statement s =>
    have text : (Part.statement s).write "// " = ("// ".toList ++ (s.child.text.toList ++
        (" implements ".toList ++ s.parent.text.toList))) ++ [';'] := by
      simp [Part.write, Statement.text]
    have word (name : Name) : '\x7b' ∉ name.text.toList := name.lacks (by decide)
    rw [text]
    refine clear_of_stop semicolon fun inside => ?_
    have member := inside.subset bracket
    simp [word] at member
  | gap g =>
    have first : 'i' ∉ g.text.toList := by
      intro member
      exact absurd (List.all_eq_true.mp g.blank 'i' member) (by decide)
    rw [openHead, toList_headText_none]
    exact clear_of_missing first

/-- One statement gives its parent to the first interface that waits for it. -/
theorem addParent_write (parts : List Part) (statement : Statement) :
    addParent (write "// " parts) statement.found = write "// " (give parts statement) := by
  have old : "interface ".toList ++ statement.found.child ++ " \x7b".toList =
      openHead statement.child := by
    simp [openHead, headText, Statement.found]
  have new : "interface ".toList ++ statement.found.child ++ ": ".toList ++ statement.found.parent ++
      " \x7b".toList =
        (headText statement.child.text (some statement.parent.text)).toList ++ ['\x7b'] := by
    simp [headText, Statement.found]
  rw [addParent, old, new]
  induction parts with
  | nil => rfl
  | cons part parts ih =>
    rw [give]
    rw [write, List.flatMap_cons, ← write]
    split
    next awaits =>
      -- The text begins with the head that is looked for.
      obtain ⟨b, rfl, same⟩ := Part.awaits_eq_true awaits
      have text (parent : Option String) (rest : List Char) : (b.write parent).toList ++ rest =
          ((headText statement.child.text parent).toList ++ ['\x7b']) ++
            (b.body.toList ++ '\x7d' :: ';' :: rest) := by
        simp [Block.write, same]
      rw [Part.write, Option.map_none, text, ← openHead, replaceFirst_here (by simp [openHead])]
      exact (text (some statement.parent.text) _).symm
    next other =>
      rw [(clear_part (by simpa using other)).replaceFirst, ih, write, write, List.flatMap_cons]

/-- All statements together give all parents. -/
theorem addParents_write (parts : List Part) (statements : List Statement) :
    (statements.map Statement.found).foldl addParent (write "// " parts) =
      write "// " (statements.foldl give parts) := by
  induction statements generalizing parts with
  | nil => rfl
  | cons statement statements ih =>
    rw [List.map_cons, List.foldl_cons, addParent_write, ih, List.foldl_cons]

/-! ## Arrays -/

theorem arrayAttribute_eq_some {s x rest : List Char} (reads : arrayAttribute s = some (x, rest)) :
    ∃ word type, s = word ++ (type ++ ("[]".toList ++ rest)) ∧
      word.map foldCase = "attribute ".toList ∧ type ≠ [] ∧ (∀ c ∈ type, isWord c = true) ∧
      x = "attribute ".toList ++ frozen type := by
  simp only [arrayAttribute, bind_apply, Option.bind_eq_some_iff] at reads
  obtain ⟨⟨_, s₁⟩, readsWord, ⟨type, s₂⟩, readsType, ⟨_, s₃⟩, readsMark, same⟩ := reads
  obtain ⟨rfl, rfl⟩ := Prod.mk.inj (Option.some.inj same)
  obtain ⟨word, rfl, folded⟩ := eq_append_of_exactlyFolded readsWord
  obtain ⟨rfl, nonempty, chars⟩ := eq_append_of_takeWhile1 readsType
  obtain rfl := eq_append_of_exactly readsMark
  exact ⟨word, type, rfl, folded, nonempty, chars, rfl⟩

theorem arrayOf_eq_some {type s x rest : List Char} (reads : arrayOf type s = some (x, rest)) :
    ∃ word, s = word ++ ("[]".toList ++ rest) ∧ word.map foldCase = type ∧ x = frozen type := by
  simp only [arrayOf, bind_apply, Option.bind_eq_some_iff] at reads
  obtain ⟨⟨_, t⟩, readsWord, same⟩ := reads
  obtain ⟨rfl, rfl⟩ := Prod.mk.inj (Option.some.inj same)
  obtain ⟨whole, rfl, folded⟩ := eq_append_of_exactlyFolded readsWord
  obtain ⟨word, brackets, rfl, named, folded⟩ := List.map_eq_append_iff.mp folded
  obtain ⟨c, brackets, rfl, opening, folded⟩ := List.map_eq_cons_iff.mp folded
  obtain ⟨d, brackets, rfl, closing, folded⟩ := List.map_eq_cons_iff.mp folded
  obtain rfl := List.map_eq_nil_iff.mp folded
  rw [eq_of_foldCase opening (by decide), eq_of_foldCase closing (by decide)]
  exact ⟨word, List.append_assoc .., named, rfl⟩

/-- Where no square bracket is closed at once there are no arrays. -/
theorem freezeArrays_of_missing {s : List Char} (missing : ¬ "[]".toList <:+: s) :
    freezeArrays s = s := by
  have attributes {s t x : List Char} (found : arrayAttribute s = some (x, t)) :
      "[]".toList <:+: s := by
    obtain ⟨word, type, rfl, -⟩ := arrayAttribute_eq_some found
    exact ⟨word ++ type, t, by simp⟩
  have arrays (type : List Char) {s t x : List Char} (found : arrayOf type s = some (x, t)) :
      "[]".toList <:+: s := by
    obtain ⟨word, rfl, -⟩ := arrayOf_eq_some found
    exact ⟨word, t, by simp⟩
  simp only [freezeArrays, replaceAll_of_missing attributes missing,
    replaceAll_of_missing (arrays _) missing]

theorem noArray_write (parts : List Part) : ¬ "[]".toList <:+: write "// " parts := by
  have lacks {s : List Char} (missing : '[' ∉ s) : Clear "[]".toList s := clear_of_missing missing
  refine (Clear.flatMap fun part _ => ?_).absent (by simp)
  cases part with
  | interface b parent =>
    have head : '[' ∉ (headText b.name.text (parent.map Name.text)).toList :=
      not_mem_headText b.name parent (by decide) (by decide)
    have body : Clear "[]".toList (b.body.toList ++ ['\x7d']) :=
      clear_of_stop (by decide) b.noArray
    have whole := ((lacks head).append (lacks (s := ['\x7b']) (by decide))).append
      (body.append (lacks (s := [';']) (by decide)))
    simpa [Part.write, Block.write] using whole
  | passage p =>
    have text : Clear "[]".toList (p.text.toList ++ [';']) := clear_of_stop (by decide) p.noArray
    simpa [Part.write] using text
  | statement s =>
    have word (name : Name) : '[' ∉ name.text.toList := name.lacks (by decide)
    exact lacks (by simp [Part.write, Statement.text, word])
  | gap g =>
    exact lacks fun member => absurd (List.all_eq_true.mp g.blank '[' member) (by decide)

/-- A document is mended to the one whose statements are comments and have given their parents. -/
theorem mend_write (parts : List Part) :
    freezeArrays (inheritImplemented (write "" parts)) = write "// " (inherited parts) := by
  rw [inheritImplemented_write, addParents_write, inherited,
    freezeArrays_of_missing (noArray_write _)]

end IdlTypings.Dialect.Emscripten
