import Mathlib
import IdlTypings.Grammar.Token
import IdlTypings.Text.Space
import IdlTypings.Proofs.ParserRules

/-! # Texts laid out from tokens

A document is written as tokens with blanks between them.  `spell` puts tokens down under a
`Layout`, which chooses the blanks, and the readers of single tokens take them up again:

* `keyword_same` and `keyword_other`, a word of the grammar against the word that stands there;
* `symbol_mark` for marks, `identifier_word` for names, `stringLiteral_literal` for strings;
* `constValue_zero` for the one number that is written;
* `sepBy1_separated` for items with separators, and `many_statements` for statements in a row.

A reader looks at one token and the start of the next, so these equations ask no more than that
`Opens` holds of what follows.
-/

namespace IdlTypings.Grammar

open IdlTypings.Parser

/-! ## Tokens and layouts -/

/-- The marks of a written document. -/
inductive Mark where
  | semicolon
  | colon
  | comma
  | equals
  | openBrace
  | closeBrace
  | openBracket
  | closeBracket
  | openParen
  | closeParen
  | openAngle
  | closeAngle

def Mark.char : Mark → Char
  | .semicolon => ';'
  | .colon => ':'
  | .comma => ','
  | .equals => '='
  | .openBrace => '\x7b'
  | .closeBrace => '\x7d'
  | .openBracket => '['
  | .closeBracket => ']'
  | .openParen => '('
  | .closeParen => ')'
  | .openAngle => '<'
  | .closeAngle => '>'

/-- A token of a written document. -/
inductive Token where
  | word (text : String)
  | mark (m : Mark)
  | literal (text : String)
  | zero

def Token.text : Token → List Char
  | .word text => text.toList
  | .mark m => [m.char]
  | .literal text => '\"' :: (text.toList ++ ['\"'])
  | .zero => ['0']

/-- A letter followed by letters, digits and low lines. -/
def isWord (text : String) : Bool :=
  match text.toList with
  | [] => false
  | c :: s => c.isAlpha && s.all fun d => d.isAlphanum || d == '_'

/-- A way to lay tokens out: the blanks between each token and the tokens that are still to come,
    and the word for the type of no value.  A word runs on into whatever is not a mark, so there a
    blank is needed. -/
structure Layout where
  gap : Token → List Token → List Char
  blank : ∀ t ts, ∀ c ∈ gap t ts, isBlank c = true
  apart : ∀ text t ts, (∀ m, t ≠ .mark m) → gap (.word text) (t :: ts) ≠ []
  last : ∀ t, gap t [] = []
  void : String
  void_word : void = "void" ∨ void = "undefined"

/-- One blank between neighbours. -/
def Layout.spaced : Layout where
  gap _ ts := if ts.isEmpty then [] else [' ']
  blank := by
    intro _ ts c member
    cases ts with
    | nil => simp at member
    | cons t ts => simp_all [isBlank]
  apart := by simp
  last _ := rfl
  void := "undefined"
  void_word := .inr rfl

/-- The text of some tokens. -/
def spell (layout : Layout) : List Token → List Char
  | [] => []
  | t :: ts => t.text ++ (layout.gap t ts ++ spell layout ts)

/-- A word that stands first begins with a letter; every other token can be told from a blank
    anyway. -/
def Opens : List Token → Prop
  | .word text :: _ => isWord text = true
  | _ => True

variable {layout : Layout} {ts : List Token}

@[simp] theorem opens_nil : Opens [] := trivial

@[simp] theorem opens_word (text : String) : Opens (.word text :: ts) ↔ isWord text = true := .rfl

@[simp] theorem opens_mark (m : Mark) (ts : List Token) : Opens (.mark m :: ts) := trivial

@[simp] theorem opens_literal (text : String) : Opens (.literal text :: ts) := trivial

@[simp] theorem opens_zero : Opens (.zero :: ts) := trivial

/-! ## Characters of words and marks -/

theorem isWord_cons {text : String} (word : isWord text = true) :
    ∃ c s, text.toList = c :: s ∧ c.isAlpha = true ∧ ∀ d ∈ c :: s, isNameChar d = true := by
  unfold isWord at word
  cases chars : text.toList with
  | nil => simp [chars] at word
  | cons c s =>
    simp only [chars, Bool.and_eq_true, List.all_eq_true, Bool.or_eq_true] at word
    refine ⟨c, s, rfl, word.1, ?_⟩
    intro d member
    rcases List.mem_cons.mp member with rfl | member
    · simp [isNameChar, Char.isAlphanum, word.1]
    · rcases word.2 d member with alphanum | low
      · simp [isNameChar, alphanum]
      · simp [isNameChar, low]

/-- A character that is no white space and begins no comment. -/
def isSolid (c : Char) : Bool :=
  !Text.isSpace c && c != '/'

@[simp] theorem Mark.char_eq :
    Mark.char .semicolon = ';' ∧ Mark.char .colon = ':' ∧ Mark.char .comma = ',' ∧
      Mark.char .equals = '=' ∧ Mark.char .openBrace = '\x7b' ∧ Mark.char .closeBrace = '\x7d' ∧
      Mark.char .openBracket = '[' ∧ Mark.char .closeBracket = ']' ∧ Mark.char .openParen = '(' ∧
      Mark.char .closeParen = ')' ∧ Mark.char .openAngle = '<' ∧ Mark.char .closeAngle = '>' := by
  decide

theorem Mark.char_cases (m : Mark) :
    isSolid m.char = true ∧ isNameChar m.char = false ∧ m.char ≠ '?' := by
  cases m <;> decide

@[simp] theorem isNameChar_signs :
    isNameChar ';' = false ∧ isNameChar ':' = false ∧ isNameChar ',' = false ∧
      isNameChar '=' = false ∧ isNameChar '\x7b' = false ∧ isNameChar '\x7d' = false ∧
      isNameChar '[' = false ∧ isNameChar ']' = false ∧ isNameChar '(' = false ∧
      isNameChar ')' = false ∧ isNameChar '<' = false ∧ isNameChar '>' = false ∧
      isNameChar '?' = false := by
  decide

theorem isNameChar_of_blank {c : Char} (blank : isBlank c = true) : isNameChar c = false := by
  simp only [isBlank, Bool.or_eq_true, beq_iff_eq] at blank
  rcases blank with ((rfl | rfl) | rfl) | rfl <;> decide

theorem isSpace_of_blank {c : Char} (blank : isBlank c = true) : Text.isSpace c = true := by
  simp only [isBlank, Bool.or_eq_true, beq_iff_eq] at blank
  rcases blank with ((rfl | rfl) | rfl) | rfl <;> decide

theorem isSolid_of_nameChar {c : Char} (nameChar : isNameChar c = true) : isSolid c = true := by
  -- No white space has a number in this range.
  have range : 45 ≤ c.toNat ∧ c.toNat ≤ 122 := by
    simp only [isNameChar, Char.isAlphanum, Char.isAlpha, Char.isUpper, Char.isLower, Char.isDigit,
      Bool.or_eq_true, Bool.and_eq_true, decide_eq_true_eq, beq_iff_eq, ge_iff_le,
      UInt32.le_iff_toNat_le] at nameChar
    rcases nameChar with (((upper | lower) | digit) | rfl) | rfl
    · exact ⟨Nat.le_trans (by decide) upper.1, Nat.le_trans upper.2 (by decide)⟩
    · exact ⟨Nat.le_trans (by decide) lower.1, lower.2⟩
    · exact ⟨Nat.le_trans (by decide) digit.1, Nat.le_trans digit.2 (by decide)⟩
    · decide
    · decide
  have notSpace : Text.isSpace c = false := by
    simp [Text.isSpace]
    omega
  have notSlash : c ≠ '/' := by
    rintro rfl
    exact absurd nameChar (by decide)
  simp [isSolid, notSpace, notSlash]

/-- The first character of a text of tokens is solid. -/
theorem spell_solid (opens : Opens ts) : ∀ c ∈ (spell layout ts).head?, isSolid c = true := by
  intro c head
  match ts with
  | [] => simp [spell] at head
  | .word text :: ts =>
    obtain ⟨d, s, chars, -, all⟩ := isWord_cons opens
    obtain rfl : d = c := by simpa [spell, Token.text, chars] using head
    exact isSolid_of_nameChar (all d List.mem_cons_self)
  | .mark m :: ts =>
    obtain rfl : m.char = c := by simpa [spell, Token.text] using head
    exact m.char_cases.1
  | .literal text :: ts =>
    obtain rfl : '\"' = c := by simpa [spell, Token.text] using head
    decide
  | .zero :: ts =>
    obtain rfl : '0' = c := by simpa [spell, Token.text] using head
    decide

/-! ## Blanks -/

theorem blank?_blank {c : Char} (blank : isBlank c = true) (s : List Char) :
    blank? (c :: s) = some s := by
  have notSlash : c ≠ '/' := by
    rintro rfl
    exact absurd blank (by decide)
  rw [blank?]
  · simp [blank]
  · rintro t rfl
    exact absurd rfl notSlash
  · rintro t rfl
    exact absurd rfl notSlash

theorem blank?_solid {s : List Char} (solid : ∀ c ∈ s.head?, isSolid c = true) :
    blank? s = none := by
  cases s with
  | nil => rfl
  | cons c s =>
    have first := solid c rfl
    simp only [isSolid, Bool.and_eq_true, Bool.not_eq_true', bne_iff_ne] at first
    have notBlank : isBlank c = false := by
      cases blank : isBlank c with
      | false => rfl
      | true => exact absurd (isSpace_of_blank blank) (by simp [first.1])
    rw [blank?]
    · simp [notBlank]
    · rintro t rfl
      exact absurd rfl first.2
    · rintro t rfl
      exact absurd rfl first.2

theorem skipBlanksWithin_append {gap : List Char} (blank : ∀ c ∈ gap, isBlank c = true)
    {s : List Char} (solid : ∀ c ∈ s.head?, isSolid c = true) {bound : List Char}
    (enough : gap.length ≤ bound.length) : skipBlanksWithin bound (gap ++ s) = s := by
  induction gap generalizing bound with
  | nil =>
    cases bound with
    | nil => rfl
    | cons d bound => simp [skipBlanksWithin, blank?_solid solid]
  | cons c gap ih =>
    cases bound with
    | nil => simp at enough
    | cons d bound =>
      simp only [List.forall_mem_cons, List.length_cons, Nat.add_le_add_iff_right] at blank enough
      simp [skipBlanksWithin, blank?_blank blank.1, ih blank.2 enough]

theorem skipBlanks_gap (opens : Opens ts) (t : Token) :
    skipBlanks (layout.gap t ts ++ spell layout ts) = spell layout ts :=
  skipBlanksWithin_append (layout.blank t ts) (spell_solid opens) (by simp)

theorem skipBlanks_spell (opens : Opens ts) : skipBlanks (spell layout ts) = spell layout ts :=
  skipBlanksWithin_append (List.forall_mem_nil _) (spell_solid opens) (by simp)

variable {α : Type}

/-- A token is read where its characters are. -/
theorem token_spell {p : Parser α} {t : Token} {x : α} (first : Opens (t :: ts)) (opens : Opens ts)
    (reads : p (t.text ++ (layout.gap t ts ++ spell layout ts)) =
      some (x, layout.gap t ts ++ spell layout ts)) :
    token p (spell layout (t :: ts)) = some (x, spell layout ts) := by
  simp only [token, blanks, bind_apply, skipBlanks_spell first, Option.bind_some]
  rw [spell, reads]
  simp [skipBlanks_gap opens]

theorem token_none {p : Parser α} (opens : Opens ts) (fails : p (spell layout ts) = none) :
    token p (spell layout ts) = none := by
  simp [token, blanks, skipBlanks_spell opens, fails]

/-! ## Words -/

/-- A word ends where its characters end. -/
theorem ends_word (layout : Layout) (ts : List Token) (text : String) :
    ∀ c ∈ (layout.gap (.word text) ts ++ spell layout ts).head?, isNameChar c = false := by
  intro c head
  cases gap : layout.gap (.word text) ts with
  | cons d s =>
    obtain rfl : d = c := by simpa [gap] using head
    exact isNameChar_of_blank (layout.blank (.word text) ts d (by simp [gap]))
  | nil =>
    rw [gap, List.nil_append] at head
    -- Without a blank only a mark may follow a word.
    match ts with
    | [] => simp [spell] at head
    | .mark m :: ts =>
      obtain rfl : m.char = c := by simpa [spell, Token.text] using head
      exact m.char_cases.2.1
    | .word _ :: ts | .literal _ :: ts | .zero :: ts =>
      exact absurd gap (layout.apart text _ ts (by simp))

theorem notFollowedBy_ended {s : List Char} (ended : ∀ c ∈ s.head?, isNameChar c = false) :
    notFollowedBy isNameChar s = some ((), s) := by
  cases s with
  | nil => rfl
  | cons c s => simp [notFollowedBy, ended c rfl]

/-- A word of the grammar is not read where another run of name characters stands, even one that it
    begins. -/
theorem exactly_run {w : String} (isWord_w : isWord w = true) {run s : List Char}
    (all : ∀ c ∈ run, isNameChar c = true) (ended : ∀ c ∈ s.head?, isNameChar c = false)
    (different : run ≠ w.toList) :
    (do exactly w.toList; notFollowedBy isNameChar : Parser Unit) (run ++ s) = none := by
  rw [bind_apply]
  cases found : exactly w.toList (run ++ s) with
  | none => rfl
  | some reading =>
    obtain ⟨⟨⟩, t⟩ := reading
    -- The run that stands there is the longest one, so it is longer than `w`.
    have longest : (run ++ s).takeWhile isNameChar = run := by
      have taken := takeWhile_run all ended
      simp only [Parser.takeWhile, Option.some.injEq, Prod.mk.injEq] at taken
      exact taken.1
    obtain ⟨c, others, chars, -, all⟩ := isWord_cons isWord_w
    rw [eq_append_of_exactly found, chars, List.takeWhile_append_of_pos all] at longest
    cases t with
    | nil =>
      rw [List.takeWhile_nil, List.append_nil, ← chars] at longest
      exact absurd longest.symm different
    | cons d t =>
      by_cases more : isNameChar d = true
      · simp [notFollowedBy, more]
      · rw [List.takeWhile_cons_of_neg more, List.append_nil, ← chars] at longest
        exact absurd longest.symm different

theorem exactly_other {w text : String} {s : List Char} (isWord_w : isWord w = true)
    (word : isWord text = true) (ended : ∀ c ∈ s.head?, isNameChar c = false)
    (different : text ≠ w) :
    (do exactly w.toList; notFollowedBy isNameChar : Parser Unit) (text.toList ++ s) = none := by
  obtain ⟨c, others, chars, -, all⟩ := isWord_cons word
  exact exactly_run isWord_w (chars ▸ all) ended fun same => different (String.toList_injective same)

theorem keyword_same {w : String} (word : isWord w = true) (opens : Opens ts) :
    keyword w (spell layout (.word w :: ts)) = some ((), spell layout ts) := by
  refine token_spell word opens ?_
  rw [bind_apply, Token.text, exactly_append]
  exact notFollowedBy_ended (ends_word layout ts w)

theorem keyword_other {w text : String} (isWord_w : isWord w = true) (word : isWord text = true)
    (different : text ≠ w) :
    keyword w (spell layout (.word text :: ts)) = none :=
  token_none word (exactly_other isWord_w word (ends_word layout ts text) different)

/-- Only a word is read as a word of the grammar. -/
theorem keyword_of_head {w : String} (word : isWord w = true) (opens : Opens ts)
    (head : ∀ c ∈ (spell layout ts).head?, isNameChar c = false) :
    keyword w (spell layout ts) = none := by
  refine token_none opens ?_
  obtain ⟨c, s, chars, -, all⟩ := isWord_cons word
  cases text : spell layout ts with
  | nil => simp [chars]
  | cons d t =>
    have different : c ≠ d := by
      rintro rfl
      exact absurd (all c List.mem_cons_self) (by simp [head c (by simp [text])])
    simp [chars, different]

@[simp] theorem keyword_nil {w : String} (word : isWord w = true) :
    keyword w (spell layout []) = none :=
  keyword_of_head word trivial (by simp [spell])

@[simp] theorem keyword_mark {w : String} (word : isWord w = true) (m : Mark) :
    keyword w (spell layout (.mark m :: ts)) = none :=
  keyword_of_head word trivial (by simp [spell, Token.text, m.char_cases])

/-- A word of the grammar, against the word that stands there. -/
theorem keyword_word {w text : String} (isWord_w : isWord w = true) (word : isWord text = true)
    (opens : Opens ts) :
    keyword w (spell layout (.word text :: ts)) =
      if text = w then some ((), spell layout ts) else none := by
  split_ifs with same
  · subst same
    exact keyword_same word opens
  · exact keyword_other isWord_w word same

/-! ## Marks -/

@[simp] theorem symbol_mark {sign : String} (single : sign.toList.length = 1) (m : Mark)
    (opens : Opens ts) :
    symbol sign (spell layout (.mark m :: ts)) =
      if sign.toList = [m.char] then some ((), spell layout ts) else none := by
  obtain ⟨c, chars⟩ := List.length_eq_one_iff.mp single
  split_ifs with same
  · exact token_spell trivial opens (by simp [same, Token.text])
  · have different : c ≠ m.char := by
      rintro rfl
      exact same chars
    exact token_none trivial (by simp [spell, Token.text, chars, different])

/-- A mark, or the sign of a null type, is not read where something else begins. -/
theorem symbol_of_head {sign : String} (notName : sign.toList.all isNameChar = false)
    (opens : Opens ts) (head : ∀ c ∈ (spell layout ts).head?, c ∉ sign.toList) :
    symbol sign (spell layout ts) = none := by
  refine token_none opens ?_
  cases chars : sign.toList with
  | nil => simp [chars] at notName
  | cons d s =>
    cases text : spell layout ts with
    | nil => simp
    | cons c t =>
      have different : d ≠ c := by
        rintro rfl
        exact absurd (head d (by simp [text])) (by simp [chars])
      simp [different]

@[simp] theorem symbol_nil {sign : String} (notName : sign.toList.all isNameChar = false) :
    symbol sign (spell layout []) = none :=
  symbol_of_head notName trivial (by simp [spell])

@[simp] theorem symbol_word {sign : String} (single : sign.toList.length = 1)
    (notName : sign.toList.all isNameChar = false) {text : String} (word : isWord text = true) :
    symbol sign (spell layout (.word text :: ts)) = none := by
  refine symbol_of_head notName word ?_
  obtain ⟨d, sole⟩ := List.length_eq_one_iff.mp single
  obtain ⟨c, s, chars, -, all⟩ := isWord_cons word
  have nameChar := all c List.mem_cons_self
  simp only [spell, Token.text, chars, sole] at notName ⊢
  rintro _ ⟨⟩ member
  obtain rfl : c = d := by simpa using member
  simp [nameChar] at notName

@[simp] theorem symbol_literal {sign : String} (notName : sign.toList.all isNameChar = false)
    (notQuote : '\"' ∉ sign.toList) (text : String) :
    symbol sign (spell layout (.literal text :: ts)) = none :=
  symbol_of_head notName trivial (by simpa [spell, Token.text] using notQuote)

/-! ## Names and literals -/

/-- Reading letters and then name characters is reading name characters. -/
theorem takeWhile_letters (s : List Char) :
    s.takeWhile Char.isAlpha ++ (s.dropWhile Char.isAlpha).takeWhile isNameChar =
      s.takeWhile isNameChar ∧
    (s.dropWhile Char.isAlpha).dropWhile isNameChar = s.dropWhile isNameChar := by
  induction s with
  | nil => simp
  | cons c s ih =>
    by_cases letter : c.isAlpha = true
    · have nameChar : isNameChar c = true := by simp [isNameChar, Char.isAlphanum, letter]
      simp [letter, nameChar, ih.1, ih.2]
    · simp [letter]

/-- What a name is read from, behind the low line that escapes it. -/
theorem name_letters {c : Char} {others s : List Char} (letter : c.isAlpha = true)
    (all : ∀ d ∈ others, isNameChar d = true) (ended : ∀ d ∈ s.head?, isNameChar d = false) :
    (do
      let head ← takeWhile1 Char.isAlpha
      let tail ← Parser.takeWhile isNameChar
      return String.ofList (head ++ tail) : Parser String) (c :: (others ++ s)) =
        some (String.ofList (c :: others), s) := by
  have run := takeWhile_run all ended
  have letters := takeWhile_letters (others ++ s)
  simp only [Parser.takeWhile, Option.some.injEq, Prod.mk.injEq] at run
  rw [run.1, run.2] at letters
  simp [takeWhile1, letter, Parser.takeWhile, letters.1, letters.2, -String.ofList_append,
    -String.ofList_cons]

/-- What a name is read from. -/
theorem name_word {text : String} {s : List Char} (word : isWord text = true)
    (ended : ∀ c ∈ s.head?, isNameChar c = false) :
    (do
      let _ ← present (exactly ['_'])
      let head ← takeWhile1 Char.isAlpha
      let tail ← Parser.takeWhile isNameChar
      return String.ofList (head ++ tail) : Parser String) (text.toList ++ s) = some (text, s) := by
  obtain ⟨c, others, chars, letter, all⟩ := isWord_cons word
  have notLow : ¬ '_' = c := by
    rintro rfl
    exact absurd letter (by decide)
  have whole : String.ofList (c :: others) = text := by rw [← chars, String.ofList_toList]
  have bare : present (exactly ['_']) (c :: (others ++ s)) = some (false, c :: (others ++ s)) := by
    simp [notLow]
  rw [chars, List.cons_append, bind_apply, bare, Option.bind_some,
    name_letters letter (fun d member => all d (List.mem_cons_of_mem c member)) ended, whole]

@[simp] theorem identifier_word {text : String} (word : isWord text = true) (opens : Opens ts) :
    identifier (spell layout (.word text :: ts)) = some (text, spell layout ts) :=
  token_spell word opens (name_word word (ends_word layout ts text))

theorem identifier_of_head (opens : Opens ts)
    (head : ∀ c ∈ (spell layout ts).head?, c.isAlpha = false ∧ c ≠ '_') :
    identifier (spell layout ts) = none := by
  refine token_none opens ?_
  cases text : spell layout ts with
  | nil => simp [takeWhile1]
  | cons c t =>
    have first := head c (by simp [text])
    simp [takeWhile1, first.1, first.2.symm]

@[simp] theorem identifier_nil : identifier (spell layout []) = none :=
  identifier_of_head trivial (by simp [spell])

@[simp] theorem identifier_mark (m : Mark) :
    identifier (spell layout (.mark m :: ts)) = none :=
  identifier_of_head trivial (by cases m <;> simp [spell, Token.text, Mark.char])

@[simp] theorem identifier_literal (text : String) :
    identifier (spell layout (.literal text :: ts)) = none :=
  identifier_of_head trivial (by simp [spell, Token.text])

@[simp] theorem stringLiteral_literal {text : String} (plain : '\"' ∉ text.toList) (opens : Opens ts) :
    stringLiteral (spell layout (.literal text :: ts)) = some (text, spell layout ts) := by
  refine token_spell trivial opens ?_
  have inside : ∀ c ∈ text.toList, (c != '\"') = true := by
    intro c member
    simp only [bne_iff_ne]
    rintro rfl
    exact plain member
  simp [Token.text, Parser.takeWhile, List.takeWhile_append_of_pos inside,
    List.dropWhile_append_of_pos inside]

/-! ## The number -/

/-- What stands after the number: a blank or the mark at its end. -/
def afterZero : List Char := [' ', '\t', '\r', '\n', ';']

theorem spell_zero (layout : Layout) (ts : List Token) :
    ∃ c ∈ afterZero, ∃ s,
      layout.gap .zero (.mark .semicolon :: ts) ++ spell layout (.mark .semicolon :: ts) = c :: s := by
  cases gap : layout.gap .zero (.mark .semicolon :: ts) with
  | nil => exact ⟨';', by decide, _, rfl⟩
  | cons c s =>
    have blank := layout.blank .zero (.mark .semicolon :: ts) c (by simp [gap])
    simp only [isBlank, Bool.or_eq_true, beq_iff_eq] at blank
    refine ⟨c, ?_, _, rfl⟩
    rcases blank with ((rfl | rfl) | rfl) | rfl <;> decide

theorem floatDigits_zero {c : Char} (after : c ∈ afterZero) (s : List Char) :
    floatDigits ('0' :: c :: s) = none := by
  fin_cases after <;> simp [floatDigits, oneOf?, pointed, exponent, takeWhile1, Parser.takeWhile]

theorem hexDigits_zero {c : Char} (after : c ∈ afterZero) (s : List Char) :
    hexDigits ('0' :: c :: s) = none := by
  fin_cases after <;> simp [hexDigits, oneOf?]

theorem octDigits_zero {c : Char} (after : c ∈ afterZero) (s : List Char) :
    octDigits ('0' :: c :: s) = some (['0'], c :: s) := by
  fin_cases after <;> simp [octDigits, oneOf?, Parser.takeWhile]

/-- The number is an octal one without digits after its zero. -/
theorem constValue_zero (layout : Layout) (ts : List Token) :
    constValue (spell layout (.zero :: .mark .semicolon :: ts)) =
      some (.integer (.oct "0"), spell layout (.mark .semicolon :: ts)) := by
  obtain ⟨c, after, s, text⟩ := spell_zero layout ts
  have whole : spell layout (.zero :: .mark .semicolon :: ts) = '0' :: c :: s := by
    rw [spell, text]
    rfl
  -- All other forms of constants are tried first.
  have noWord : ∀ w ∈ ["true", "false", "-Infinity", "Infinity", "NaN"],
      keyword w (spell layout (.zero :: .mark .semicolon :: ts)) = none := by
    intro w member
    refine token_none trivial ?_
    rw [whole]
    fin_cases member <;> simp
  have noFloat : token floatDigits (spell layout (.zero :: .mark .semicolon :: ts)) = none :=
    token_none trivial (by rw [whole, floatDigits_zero after])
  have noDec : token decDigits (spell layout (.zero :: .mark .semicolon :: ts)) = none :=
    token_none trivial (by rw [whole]; simp [decDigits, oneOf?])
  have noHex : token hexDigits (spell layout (.zero :: .mark .semicolon :: ts)) = none :=
    token_none trivial (by rw [whole, hexDigits_zero after])
  have oct : token octDigits (spell layout (.zero :: .mark .semicolon :: ts)) =
      some (['0'], spell layout (.mark .semicolon :: ts)) :=
    token_spell trivial (by simp) (by rw [text]; exact octDigits_zero after s)
  simp only [List.forall_mem_cons] at noWord
  simp [constValue, booleanLiteral, floatLiteral, integerLiteral, noWord, noFloat, noDec, noHex, oct]

/-! ## Items with separators -/

theorem length_spell_le (layout : Layout) (t : Token) (ts : List Token) :
    (spell layout ts).length ≤ (spell layout (t :: ts)).length := by
  simp only [spell, List.length_append]
  omega

theorem length_spell_append (layout : Layout) (ts rest : List Token) :
    (spell layout rest).length ≤ (spell layout (ts ++ rest)).length := by
  induction ts with
  | nil => exact Nat.le_refl _
  | cons t ts ih => exact Nat.le_trans ih (length_spell_le layout t (ts ++ rest))

theorem fits_cons {t : Token} {n : Nat} (fits : (spell layout (t :: ts)).length ≤ n) :
    (spell layout ts).length ≤ n :=
  Nat.le_trans (length_spell_le layout t ts) fits

theorem fits_append {rest : List Token} {n : Nat} (fits : (spell layout (ts ++ rest)).length ≤ n) :
    (spell layout rest).length ≤ n :=
  Nat.le_trans (length_spell_append layout ts rest) fits

theorem length_spell_mark (layout : Layout) (m : Mark) (ts : List Token) :
    (spell layout ts).length < (spell layout (.mark m :: ts)).length := by
  simp only [spell, Token.text, List.length_append, List.length_singleton]
  omega

/-- A separator: a token and the parser that reads it. -/
structure Separates (layout : Layout) (t : Token) (sep : Parser Unit) : Prop where
  reads : ∀ {ts}, Opens ts → sep (spell layout (t :: ts)) = some ((), spell layout ts)
  nonempty : t.text ≠ []

theorem separates_comma : Separates layout (.mark .comma) (symbol ",") where
  reads opens := by simp [opens]
  nonempty := by simp [Token.text]

variable {β : Type} {follow : List Token → Prop} {rest : List Token}

/-- A parser reads the tokens of an item in a text of at most `n` characters, whatever follows
    that does not go on with the item. -/
def ReadsItem (layout : Layout) (follow : List Token → Prop) (n : Nat) (p : Parser α)
    (lower : α → β) (item : β → List Token) (x : β) : Prop :=
  ∀ rest, follow rest → (spell layout (item x ++ rest)).length ≤ n →
    ∃ form, p (spell layout (item x ++ rest)) = some (form, spell layout rest) ∧ lower form = x

/-- Some items with a separator between neighbours. -/
def separated (sep : Token) (item : β → List Token) : List β → List Token
  | [] => []
  | x :: xs => item x ++ xs.flatMap fun y => sep :: item y

theorem follow_separated {t : Token} (separator : ∀ ts, follow (t :: ts)) (item : β → List Token)
    (xs : List β) (ends : follow rest) : follow (xs.flatMap (fun y => t :: item y) ++ rest) := by
  cases xs with
  | nil => exact ends
  | cons x xs => exact separator _

theorem rounds_separated {t : Token} {sep : Parser Unit} (separates : Separates layout t sep)
    (separator : ∀ ts, follow (t :: ts)) {n : Nat} {p : Parser α} {lower : α → β}
    {item : β → List Token} {xs : List β}
    (reads : ∀ x ∈ xs, ReadsItem layout follow n p lower item x)
    (opens : ∀ x ∈ xs, ∀ ts, Opens (item x ++ ts)) (ends : follow rest)
    (fits : (spell layout (xs.flatMap (fun y => t :: item y) ++ rest)).length ≤ n) :
    ∃ forms, Rounds (do sep; p) (spell layout (xs.flatMap (fun y => t :: item y) ++ rest)) forms
        (spell layout rest) ∧ forms.map lower = xs := by
  induction xs with
  | nil => exact ⟨[], .done, rfl⟩
  | cons x xs ih =>
    simp only [List.forall_mem_cons] at reads opens
    rw [List.flatMap_cons, List.append_assoc, List.cons_append] at fits ⊢
    have inner := fits_cons fits
    obtain ⟨form, read, lowered⟩ := reads.1 _ (follow_separated separator item xs ends) inner
    obtain ⟨forms, rounds, all⟩ := ih reads.2 opens.2 (fits_append inner)
    refine ⟨form :: forms, .round ?_ ?_ rounds, by simp [lowered, all]⟩
    · rw [bind_apply, separates.reads (opens.1 _), Option.bind_some]
      exact read
    -- The separator alone makes the text shorter.
    · have shorter := length_spell_append layout (item x)
        (xs.flatMap (fun y => t :: item y) ++ rest)
      have nonempty := List.length_pos_iff.mpr separates.nonempty
      rw [spell, List.length_append, List.length_append]
      omega

theorem opens_separated (item : β → List Token) {x : β} (opens : ∀ ts, Opens (item x ++ ts))
    (sep : Token) (xs : List β) (rest : List Token) : Opens (separated sep item (x :: xs) ++ rest) := by
  rw [separated, List.append_assoc]
  exact opens _

/-- One or more items are read up to what separates no more of them. -/
theorem sepBy1_separated {t : Token} {sep : Parser Unit} (separates : Separates layout t sep)
    (separator : ∀ ts, follow (t :: ts)) {n : Nat} {p : Parser α} {lower : α → β}
    {item : β → List Token} {x : β} {xs : List β}
    (reads : ∀ y ∈ x :: xs, ReadsItem layout follow n p lower item y)
    (opens : ∀ y ∈ x :: xs, ∀ ts, Opens (item y ++ ts)) (ends : follow rest)
    (last : sep (spell layout rest) = none)
    (fits : (spell layout (separated t item (x :: xs) ++ rest)).length ≤ n) :
    ∃ forms, sepBy1 p sep (spell layout (separated t item (x :: xs) ++ rest)) =
        some (forms, spell layout rest) ∧ forms.map lower = x :: xs := by
  simp only [List.forall_mem_cons] at reads opens
  rw [separated, List.append_assoc] at fits ⊢
  obtain ⟨form, read, lowered⟩ := reads.1 _ (follow_separated separator item xs ends) fits
  obtain ⟨forms, rounds, all⟩ := rounds_separated separates separator reads.2 opens.2 ends
    (fits_append fits)
  exact ⟨form :: forms, sepBy1_of_rounds read rounds last, by simp [lowered, all]⟩

/-! ## Statements in a row -/

/-- A parser reads a statement, which ends in a semicolon, in a text of at most `n` characters. -/
structure ReadsStatement (layout : Layout) (n : Nat) (p : Parser α) (lower : α → β)
    (item : β → List Token) (x : β) : Prop where
  reads : ReadsItem layout Opens n p lower item x
  opens : ∀ ts, Opens (item x ++ ts)
  closed : (item x).getLast? = some (.mark .semicolon)

theorem ReadsStatement.shorter {n : Nat} {p : Parser α} {lower : α → β} {item : β → List Token}
    {x : β} (statement : ReadsStatement layout n p lower item x) (rest : List Token) :
    (spell layout rest).length < (spell layout (item x ++ rest)).length := by
  obtain ⟨us, tokens⟩ := List.getLast?_eq_some_iff.mp statement.closed
  rw [tokens, List.append_assoc]
  exact Nat.lt_of_lt_of_le (length_spell_mark layout .semicolon rest)
    (length_spell_append layout us _)

theorem opens_statements {item : β → List Token} {xs : List β}
    (opens : ∀ x ∈ xs, ∀ ts, Opens (item x ++ ts)) (ends : Opens rest) :
    Opens (xs.flatMap item ++ rest) := by
  cases xs with
  | nil => exact ends
  | cons x xs =>
    rw [List.flatMap_cons, List.append_assoc]
    exact opens x List.mem_cons_self _

/-- Any number of statements are read up to what is no more a statement. -/
theorem many_statements {n : Nat} {p : Parser α} {lower : α → β} {item : β → List Token}
    {xs : List β} (statements : ∀ x ∈ xs, ReadsStatement layout n p lower item x)
    (ends : Opens rest) (last : p (spell layout rest) = none)
    (fits : (spell layout (xs.flatMap item ++ rest)).length ≤ n) :
    ∃ forms, many p (spell layout (xs.flatMap item ++ rest)) = some (forms, spell layout rest) ∧
      forms.map lower = xs := by
  have rounds : ∃ forms, Rounds p (spell layout (xs.flatMap item ++ rest)) forms (spell layout rest) ∧
      forms.map lower = xs := by
    induction xs with
    | nil => exact ⟨[], .done, rfl⟩
    | cons x xs ih =>
      -- What follows a statement is the next statement or the end, and both open with a token.
      simp only [List.forall_mem_cons] at statements
      obtain ⟨statement, others⟩ := statements
      rw [List.flatMap_cons, List.append_assoc] at fits ⊢
      have opens := opens_statements (fun y member => (others y member).opens) ends
      obtain ⟨form, read, lowered⟩ := statement.reads _ opens fits
      obtain ⟨forms, rounds, all⟩ :=
        ih others (fits_append fits)
      exact ⟨form :: forms, .round read (statement.shorter _) rounds, by simp [lowered, all]⟩
  obtain ⟨forms, rounds, all⟩ := rounds
  exact ⟨forms, many_of_rounds rounds last, all⟩

/-! ## White space around a text -/

/-- Trimming takes off what is white space and nothing of a text that begins and ends in other
    characters. -/
theorem trim_around {before text after : List Char}
    (leading : ∀ c ∈ before, Text.isSpace c = true) (trailing : ∀ c ∈ after, Text.isSpace c = true)
    (first : ∀ c ∈ text.head?, Text.isSpace c = false)
    (last : ∀ c ∈ text.getLast?, Text.isSpace c = false) :
    Text.trim (before ++ (text ++ after)) = text := by
  have trailing' : ∀ c ∈ after.reverse, Text.isSpace c = true := by simpa using trailing
  rw [Text.trim, Text.trimStart, List.dropWhile_append_of_pos leading, Text.trimEnd]
  cases text with
  | nil => simp [List.dropWhile_eq_nil_iff.mpr trailing]
  | cons c text =>
    have start : (c :: text ++ after).dropWhile Text.isSpace = c :: text ++ after := by
      simp [first c rfl]
    rw [start, List.reverse_append, List.dropWhile_append_of_pos trailing']
    -- From behind, trimming stops at the last character of the text.
    cases reversed : (c :: text).reverse with
    | nil => simp at reversed
    | cons d others =>
      have final : Text.isSpace d = false := by
        refine last d ?_
        rw [List.getLast?_eq_head?_reverse, reversed]
        rfl
      rw [List.dropWhile_cons_of_neg (by simp [final]), ← reversed, List.reverse_reverse]

/-- A text of tokens ends in its last mark. -/
theorem getLast?_spell (layout : Layout) (ts : List Token) (m : Mark) :
    (spell layout (ts ++ [.mark m])).getLast? = some m.char := by
  induction ts with
  | nil => simp [spell, Token.text, layout.last]
  | cons t ts ih => simp [spell, List.getLast?_append, ih]

end IdlTypings.Grammar
