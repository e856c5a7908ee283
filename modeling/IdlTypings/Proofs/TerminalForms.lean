import Mathlib
import IdlTypings.Grammar.Document
import IdlTypings.Proofs.SpelledTokens
import IdlTypings.Proofs.StatementBounds

/-! # Literals and other forms without brackets

A law about all texts that the grammar reads needs a proof for each production.  The productions in
which no other form can be nested are gone through once, here, and a law is proved for all of them by
one induction.

* `Lexeme` singles out the parsers of characters that stay on their line: digits, signs and the like.
* `Terminal` singles out the forms made of such tokens and of words of the grammar.

The flag of both is set for a parser that reads something.
-/

namespace IdlTypings.Grammar

open IdlTypings.Parser

variable {α β : Type} {eats eats' : Bool}

/-! ## Characters on a line -/

/-- A class of flat characters without the line feed. -/
def isLineClass (test : Char → Bool) : Bool :=
  isFlatClass test && !test '\n'

/-- A parser of flat characters on one line. -/
inductive Lexeme : {α : Type} → (eats : Bool) → Parser α → Prop where
  | pure {α : Type} (x : α) : Lexeme false (pure x)
  | satisfy {test : Char → Bool} (line : isLineClass test = true) : Lexeme true (satisfy test)
  | takeWhile {test : Char → Bool} (line : isLineClass test = true) :
      Lexeme false (Parser.takeWhile test)
  | notFollowedBy (test : Char → Bool) : Lexeme false (notFollowedBy test)
  | bind {α β : Type} {eats eats' : Bool} {p : Parser α} {f : α → Parser β} (first : Lexeme eats p)
      (second : ∀ x, Lexeme eats' (f x)) : Lexeme (eats || eats') (p >>= f)
  | orElse {α : Type} {eats eats' : Bool} {p q : Parser α} (first : Lexeme eats p)
      (second : Lexeme eats' q) : Lexeme (eats && eats') (p <|> q)

theorem Lexeme.takeWhile1 {test : Char → Bool} (line : isLineClass test = true) :
    Lexeme true (takeWhile1 test) :=
  .bind (.satisfy line) fun _ => .bind (.takeWhile line) fun _ => .pure _

theorem isLineClass_char {c : Char} (flat : isFlat c = true) (other : c ≠ '\n') :
    isLineClass (c == ·) = true := by
  simp_all [isLineClass, isFlatClass, isFlat, isPlain]

theorem Lexeme.exactly {c : Char} {cs : List Char}
    (line : ((c :: cs).all fun c => isFlat c && c != '\n') = true) :
    Lexeme true (Parser.exactly (c :: cs)) := by
  induction cs generalizing c with
  | nil =>
    simp only [List.all_cons, List.all_nil, Bool.and_true, Bool.and_eq_true, bne_iff_ne] at line
    rw [exactly_cons]
    exact .bind (.satisfy (isLineClass_char line.1 line.2)) fun _ => .pure ()
  | cons c' cs ih =>
    rw [List.all_cons, Bool.and_eq_true, Bool.and_eq_true, bne_iff_ne] at line
    rw [exactly_cons]
    exact .bind (.satisfy (isLineClass_char line.1.1 line.1.2)) fun _ => ih line.2

theorem Lexeme.text {text : String} {c : Char} {cs : List Char} (chars : text.toList = c :: cs)
    (line : (text.toList.all fun c => isFlat c && c != '\n') = true) :
    Lexeme true (Parser.exactly text.toList) := by
  rw [chars] at line ⊢
  exact .exactly line

theorem lexeme_oneOf? {choices : List Char} (line : isLineClass choices.contains = true) :
    Lexeme false (oneOf? choices) :=
  .orElse (.bind (.satisfy line) fun _ => .pure _) (.pure _)

theorem lexeme_exponent : Lexeme true exponent :=
  .bind (.satisfy (by decide)) fun _ =>
  .bind (lexeme_oneOf? (by decide)) fun _ =>
  .bind (.takeWhile1 (by decide)) fun _ =>
  .pure _

theorem lexeme_pointed : Lexeme true pointed :=
  .orElse
    (.bind (.takeWhile1 (by decide)) fun _ =>
      .bind (.exactly (by decide)) fun _ =>
      .bind (.takeWhile (by decide)) fun _ =>
      .pure _)
    (.bind (.takeWhile (by decide)) fun _ =>
      .bind (.exactly (by decide)) fun _ =>
      .bind (.takeWhile1 (by decide)) fun _ =>
      .pure _)

theorem lexeme_floatDigits : Lexeme true floatDigits :=
  .orElse
    (.bind (lexeme_oneOf? (by decide)) fun _ =>
      .bind lexeme_pointed fun _ =>
      .bind (.orElse lexeme_exponent (.pure _)) fun _ =>
      .pure _)
    (.bind (lexeme_oneOf? (by decide)) fun _ =>
      .bind (.takeWhile1 (by decide)) fun _ =>
      .bind lexeme_exponent fun _ =>
      .pure _)

theorem lexeme_decDigits : Lexeme true decDigits :=
  .bind (lexeme_oneOf? (by decide)) fun _ =>
  .bind (.satisfy (by decide)) fun _ =>
  .bind (.takeWhile (by decide)) fun _ =>
  .pure _

theorem lexeme_hexDigits : Lexeme true hexDigits :=
  .bind (lexeme_oneOf? (by decide)) fun _ =>
  .bind (.exactly (by decide)) fun _ =>
  .bind (.satisfy (by decide)) fun _ =>
  .bind (.takeWhile (by decide)) fun _ =>
  .pure _

theorem lexeme_octDigits : Lexeme true octDigits :=
  .bind (lexeme_oneOf? (by decide)) fun _ =>
  .bind (.exactly (by decide)) fun _ =>
  .bind (.takeWhile (by decide)) fun _ =>
  .pure _

/-! ## Terminal forms -/

/-- The characters that the words of `typedef string AString;` begin with, and its semicolon. -/
abbrev borderChars : List Char :=
  ['t', 's', 'A', ';']

/-- A word that `typedef string AString;` does not have. -/
def isForeignWord (w : String) : Bool :=
  decide (isWord w = true ∧ w ∉ ["typedef", "string", "AString"])

theorem isFlatText_of_isWord {w : String} (word : isWord w = true) : isFlatText w = true := by
  obtain ⟨c, cs, chars, -, all⟩ := isWord_cons word
  have flat : ∀ d ∈ c :: cs, isFlat d = true := by
    intro d member
    have apart {b : Char} (refused : isNameChar b = false) : d ≠ b := by
      rintro rfl
      rw [all d member] at refused
      cases refused
    simp [isFlat, isPlain, apart (b := ';') (by decide), apart (b := '\x7b') (by decide),
      apart (b := '\x7d') (by decide), apart (b := '\"') (by decide), apart (b := '/') (by decide),
      apart (b := '[') (by decide), apart (b := ']') (by decide)]
  simpa [isFlatText, chars] using flat

/-- A form of words of the grammar and of tokens of characters.  None of them begins the statement
    `typedef string AString;` or one of its parts. -/
inductive Terminal : {α : Type} → (eats : Bool) → Parser α → Prop where
  | pure {α : Type} (x : α) : Terminal false (pure x)
  | failure {α : Type} {eats : Bool} : Terminal eats (failure : Parser α)
  | token {α : Type} {p : Parser α} (lexeme : Lexeme true p)
      (foreign : ∀ c ∈ borderChars, ∀ s, p (c :: s) = none) : Terminal true (token p)
  | keyword {w : String} (foreign : isForeignWord w = true) : Terminal true (keyword w)
  | bind {α β : Type} {eats eats' : Bool} {p : Parser α} {f : α → Parser β}
      (first : Terminal eats p) (second : ∀ x, Terminal eats' (f x)) :
      Terminal (eats || eats') (p >>= f)
  | orElse {α : Type} {eats eats' : Bool} {p q : Parser α} (first : Terminal eats p)
      (second : Terminal eats' q) : Terminal (eats && eats') (p <|> q)

theorem Terminal.word {w : String} (foreign : isForeignWord w = true) (x : α) :
    Terminal true (do Grammar.keyword w; return x) :=
  .bind (.keyword foreign) fun _ => .pure x

theorem Terminal.present {p : Parser α} (part : Terminal eats p) :
    Terminal false (Parser.present p) := by
  have weak := Terminal.orElse (part.bind fun _ => .pure true) (.pure false)
  rw [Bool.and_false] at weak
  exact weak

/-! ### Literals -/

/-- No number begins there. -/
theorem no_number {c : Char} (first : c ∈ borderChars) :
    c.isDigit = false ∧ '-' ≠ c ∧ '.' ≠ c ∧ '0' ≠ c ∧ ('1' ≤ c && c ≤ '9') = false := by
  simp only [List.mem_cons, List.not_mem_nil, or_false] at first
  rcases first with rfl | rfl | rfl | rfl <;> decide

theorem terminal_floatLiteral : Terminal true floatLiteral := by
  refine .orElse (.bind (.token lexeme_floatDigits ?digits) fun _ => .pure _) <|
    .orElse (.bind (.token (.bind (.text rfl (by decide)) fun _ => .notFollowedBy _) ?negative)
      fun _ => .pure _) <|
    .orElse (.word (by decide) _) (.word (by decide) _)
  case digits =>
    intro c first s
    obtain ⟨digit, minus, point, -⟩ := no_number first
    simp [floatDigits, oneOf?, pointed, takeWhile1, Parser.takeWhile, digit, minus.symm, point]
  case negative =>
    intro c first s
    simp [(no_number first).2.1]

theorem terminal_integerLiteral : Terminal true integerLiteral := by
  refine .orElse (.bind (.token lexeme_decDigits ?dec) fun _ => .pure _) <|
    .orElse (.bind (.token lexeme_hexDigits ?hex) fun _ => .pure _) <|
    .bind (.token lexeme_octDigits ?oct) fun _ => .pure _
  case dec =>
    intro c first s
    obtain ⟨-, minus, -, -, digit⟩ := no_number first
    simp [decDigits, oneOf?, minus.symm, -Bool.and_eq_true, digit]
  case hex =>
    intro c first s
    obtain ⟨-, minus, -, zero, -⟩ := no_number first
    simp [hexDigits, oneOf?, minus.symm, zero]
  case oct =>
    intro c first s
    obtain ⟨-, minus, -, zero, -⟩ := no_number first
    simp [octDigits, oneOf?, minus.symm, zero]

theorem terminal_booleanLiteral : Terminal true booleanLiteral :=
  .orElse (.word (by decide) _) (.word (by decide) _)

theorem terminal_constValue : Terminal true constValue :=
  .orElse (.bind terminal_booleanLiteral fun _ => .pure _) <|
  .orElse (.bind terminal_floatLiteral fun _ => .pure _) <|
  .orElse (.bind terminal_integerLiteral fun _ => .pure _) <|
  .word (by decide) _

/-! ### Types -/

theorem terminal_nullable : Terminal false nullable := by
  refine .present (.token (.exactly (by decide)) fun c first s => ?_)
  have other : '?' ≠ c := by
    rintro rfl
    exact absurd first (by decide)
  simp [other]

theorem terminal_integerType : Terminal true integerType :=
  .orElse
    (.bind (.present (.keyword (by decide))) fun _ =>
      .bind (.keyword (by decide)) fun _ =>
      .word (by decide) _) <|
  .orElse (.bind (.present (.keyword (by decide))) fun _ => .word (by decide) _) <|
  .bind (.present (.keyword (by decide))) fun _ => .word (by decide) _

theorem terminal_floatType : Terminal true floatType :=
  .orElse (.bind (.present (.keyword (by decide))) fun _ => .word (by decide) _) <|
  .bind (.present (.keyword (by decide))) fun _ => .word (by decide) _

/-- A word of the grammar for a type, and an optional `?`. -/
theorem terminal_typeWord {w : String} {f : Bool → β} (foreign : isForeignWord w = true) :
    Terminal true (do keyword w; return f (← nullable)) :=
  .bind (.keyword foreign) fun _ => .bind terminal_nullable fun _ => .pure _

theorem terminal_builtInOf (bs : List BuiltIn) : Terminal true (builtInOf bs) := by
  induction bs with
  | nil => exact .failure
  | cons b bs ih =>
    have foreign : isForeignWord b.spelling = true := by cases b <;> decide
    exact .orElse (terminal_typeWord foreign) ih

/-! ### Marks of members -/

theorem terminal_attributeModifier : Terminal true attributeModifier :=
  .orElse (.word (by decide) _) <|
  .orElse (.word (by decide) _) <|
  .word (by decide) _

theorem terminal_operationModifier : Terminal true operationModifier :=
  .orElse (.word (by decide) _) (.word (by decide) _)

theorem terminal_special : Terminal true special :=
  .orElse (.word (by decide) _) <|
  .orElse (.word (by decide) _) <|
  .orElse (.word (by decide) _) <|
  .word (by decide) _

theorem terminal_asyncIterable : Terminal true asyncIterable :=
  .bind (.keyword (by decide)) fun _ => .keyword (by decide)

end IdlTypings.Grammar
