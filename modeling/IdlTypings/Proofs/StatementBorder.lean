import Mathlib
import IdlTypings.Proofs.DocumentAppend
import IdlTypings.Proofs.InterfaceHeads

/-! # A statement that begins on a new line

Any text may stand before a line feed and a `Tail`: a text whose first statement names a type.  What
a parser of the grammar can do at that border depends on how far it has come.

* `Tail.At i s` gives the place of a parser that has `s` left: at place 0 something is left of the
  text before the border, at place `k + 1` the tail is left without its first `k` words.
* `Tail.Moves a b` says of a parser that it goes from the places up to `a` to places up to `b`, and
  never back.  It has a law for each combinator.
* `Tail.Seals a` says that a parser which begins at a place up to `a` only succeeds in front of the
  border, and then passes no word of the tail.  The tokens that are no words of the tail do, so the
  brackets do, and so does a statement: `seals_definitionForm`.

A comment cannot hide the border: a line comment ends there, and no block comment ends behind it.
-/

namespace IdlTypings.Grammar

open IdlTypings.Parser

variable {α β : Type} {s t : List Char}

/-! ## Places -/

/-- What follows the first statement of a text that names a type first.  No string and no block
    comment ends in it. -/
structure Tail where
  rest : List Char
  plain : ∀ c ∈ rest, c ≠ '\"' ∧ c ≠ '*'

/-- What is left of the text without its first words. -/
@[irreducible] def Tail.left (tail : Tail) : Nat → List Char
  | 0 => "typedef".toList ++ ' ' ::
      ("string".toList ++ ' ' :: ("AString".toList ++ ';' :: tail.rest))
  | 1 => "string".toList ++ ' ' :: ("AString".toList ++ ';' :: tail.rest)
  | 2 => "AString".toList ++ ';' :: tail.rest
  | _ => ';' :: tail.rest

/-- The place of a parser that has a text left. -/
inductive Tail.At (tail : Tail) : Nat → List Char → Prop where
  | before {s own : List Char} {c : Char}
      (stands : skipBlanks s = c :: own ++ '\n' :: tail.left 0) : At tail 0 s
  | within {s : List Char} {k : Nat} (few : k ≤ 3) (stands : skipBlanks s = tail.left k) :
      At tail (k + 1) s

namespace Tail

variable {tail : Tail}

/-- Before its semicolon the statement is left at one of its words. -/
theorem left_word (tail : Tail) {k : Nat} (few : k < 3) :
    ∃ w ∈ ["typedef", "string", "AString"], ∃ s, tail.left k = w.toList ++ s ∧
      isWord w = true ∧ (∀ c ∈ s.head?, isNameChar c = false) ∧
      skipBlanks s = tail.left (k + 1) := by
  have blank : isNameChar ' ' = false := by decide
  have semicolon : isNameChar ';' = false ∧ isSolid ';' = true := by decide
  interval_cases k
  · rw [left, left]
    exact ⟨_, by simp, _, rfl, by decide, by simp [blank], skipBlanks_word (by decide) _⟩
  · rw [left, left]
    exact ⟨_, by simp, _, rfl, by decide, by simp [blank], skipBlanks_word (by decide) _⟩
  · rw [left, left]
    · exact ⟨_, by simp, _, rfl, by decide, by simp [semicolon],
        skipBlanks_of_none (blank?_solid (by simp [semicolon]))⟩
    all_goals omega

theorem left_three (tail : Tail) : tail.left 3 = ';' :: tail.rest := by
  rw [left] <;> omega

theorem left_cons (tail : Tail) (k : Nat) :
    ∃ c ∈ borderChars, ∃ s, tail.left k = c :: s := by
  match k with
  | 0 => exact ⟨'t', by simp, _, by rw [left]; rfl⟩
  | 1 => exact ⟨'s', by simp, _, by rw [left]; rfl⟩
  | 2 => exact ⟨'A', by simp, _, by rw [left]; rfl⟩
  | _ + 3 => exact ⟨';', by simp, tail.rest, by rw [left] <;> omega⟩

theorem skipBlanks_left (tail : Tail) (k : Nat) : skipBlanks (tail.left k) = tail.left k := by
  have solid : borderChars.all isSolid = true := by decide
  obtain ⟨c, first, s, text⟩ := tail.left_cons k
  rw [text]
  exact skipBlanks_of_none (blank?_solid (by simpa using List.all_eq_true.mp solid c first))

theorem left_zero (tail : Tail) : tail.left 0 = "typedef string AString;".toList ++ tail.rest := by
  rw [left]
  rfl

theorem plain_left (tail : Tail) : ∀ c ∈ tail.left 0, c ≠ '\"' ∧ c ≠ '*' := by
  have words : ("typedef string AString;".toList.all fun c => c != '\"' && c != '*') = true := by
    decide
  rw [left_zero]
  refine List.forall_mem_append.mpr ⟨fun c member => ?_, tail.plain⟩
  simpa using List.all_eq_true.mp words c member

theorem At.le {i : Nat} (at_ : tail.At i s) : i ≤ 4 := by
  cases at_ with
  | before _ => exact Nat.zero_le _
  | within few _ => omega

/-! ## Blanks at the border -/

theorem afterLine?_border (own : List Char) (found : afterLine? (own ++ '\n' :: s) = some t) :
    (∃ own', t = own' ++ '\n' :: s) ∨ t = s := by
  induction own with
  | nil =>
    cases found
    exact .inr rfl
  | cons c own ih =>
    rw [List.cons_append, afterLine?] at found
    split at found
    next =>
      cases found
      exact .inl ⟨own, rfl⟩
    next => exact ih found

theorem afterBlock?_of_not_mem (missing : '*' ∉ s) : afterBlock? s = none := by
  fun_induction afterBlock? s with
  | case1 rest => simp at missing
  | case2 c rest _ ih => exact ih (by simp_all)
  | case3 => rfl

/-- A character before the border, when it is no line feed. -/
theorem cons_of_border {own rest : List Char} {c : Char} (other : c ≠ '\n')
    (text : own ++ '\n' :: s = c :: rest) : ∃ own', own = c :: own' := by
  cases own with
  | nil => exact absurd (List.cons.inj text).1.symm other
  | cons d own => exact ⟨own, by rw [(List.cons.inj text).1]⟩

/-- A block comment that ends, ends before the border. -/
theorem afterBlock?_border (missing : '*' ∉ s) (own : List Char)
    (found : afterBlock? (own ++ '\n' :: s) = some t) : ∃ own', t = own' ++ '\n' :: s := by
  induction own with
  | nil =>
    rw [List.nil_append, afterBlock?_of_not_mem (by simpa using missing)] at found
    cases found
  | cons c own ih =>
    by_cases ends : ∃ own', c = '*' ∧ own = '/' :: own'
    · obtain ⟨own', rfl, rfl⟩ := ends
      cases found
      exact ⟨own', rfl⟩
    · rw [List.cons_append, afterBlock?] at found
      · exact ih found
      · intro rest star text
        obtain ⟨own', slash⟩ := cons_of_border (by decide) text
        exact ends ⟨own', star, slash⟩

theorem blank?_border (missing : '*' ∉ s) (own : List Char)
    (found : blank? (own ++ '\n' :: s) = some t) : (∃ own', t = own' ++ '\n' :: s) ∨ t = s := by
  cases own with
  | nil =>
    cases found
    exact .inr rfl
  | cons c own =>
    by_cases line : ∃ own', c = '/' ∧ own = '/' :: own'
    · obtain ⟨own', rfl, rfl⟩ := line
      exact afterLine?_border own' found
    by_cases block : ∃ own', c = '/' ∧ own = '*' :: own'
    · obtain ⟨own', rfl, rfl⟩ := block
      exact .inl (afterBlock?_border missing own' found)
    rw [List.cons_append, blank?] at found
    · split at found
      next =>
        cases found
        exact .inl ⟨own, rfl⟩
      next => cases found
    · intro rest slash text
      obtain ⟨own', second⟩ := cons_of_border (by decide) text
      exact line ⟨own', slash, second⟩
    · intro rest slash text
      obtain ⟨own', second⟩ := cons_of_border (by decide) text
      exact block ⟨own', slash, second⟩

/-- In front of the border the blanks lead to a character before it or to the tail. -/
theorem at_border (tail : Tail) (own : List Char) :
    ∃ j ≤ 1, tail.At j (own ++ '\n' :: tail.left 0) := by
  have noStar : '*' ∉ tail.left 0 := fun member => (tail.plain_left _ member).2 rfl
  -- The induction is over what is left before the border.
  induction size : own.length using Nat.strong_induction_on generalizing own with
  | _ n ih =>
    cases found : blank? (own ++ '\n' :: tail.left 0) with
    | none =>
      cases own with
      | nil => cases found
      | cons c own => exact ⟨0, by omega, .before (skipBlanks_of_none found)⟩
    | some t =>
      have skips := skipBlanks_of_some found
      have shorter := length_blank? found
      rcases blank?_border noStar own found with ⟨own', rfl⟩ | rfl
      · simp only [List.length_append] at shorter
        obtain ⟨j, few, stands⟩ := ih own'.length (by omega) own' rfl
        refine ⟨j, few, ?_⟩
        cases stands with
        | before stands => exact .before (skips.trans stands)
        | within inside stands => exact .within inside (skips.trans stands)
      · exact ⟨1, by omega, .within (Nat.zero_le _) (skips.trans (tail.skipBlanks_left 0))⟩

theorem At.skipBlanks {i : Nat} (stands : tail.At i s) : tail.At i (skipBlanks s) := by
  cases stands with
  | before stands => exact .before (by rw [skipBlanks_skipBlanks, stands])
  | within few stands => exact .within few (by rw [skipBlanks_skipBlanks, stands])

/-! ## Characters before the border -/

/-- A parser that does not pass the border. -/
def Stops (tail : Tail) (p : Parser α) : Prop :=
  ∀ ⦃own t : List Char⦄ ⦃x : α⦄, p (own ++ '\n' :: tail.left 0) = some (x, t) →
    ∃ own', t = own' ++ '\n' :: tail.left 0

section

variable {p q : Parser α}

theorem stops_pure (x : α) : tail.Stops (pure x) := by
  intro own t y found
  cases found
  exact ⟨own, rfl⟩

theorem stops_bind {f : α → Parser β} (first : tail.Stops p) (second : ∀ x, tail.Stops (f x)) :
    tail.Stops (p >>= f) := by
  intro own t y found
  rw [bind_apply, Option.bind_eq_some_iff] at found
  obtain ⟨⟨x, u⟩, reads, others⟩ := found
  obtain ⟨own', rfl⟩ := first reads
  exact second x others

theorem stops_orElse (first : tail.Stops p) (second : tail.Stops q) : tail.Stops (p <|> q) := by
  intro own t x found
  rw [orElse_apply, Option.or_eq_some_iff] at found
  rcases found with found | ⟨-, found⟩
  · exact first found
  · exact second found

theorem stops_satisfy {test : Char → Bool} (refuses : test '\n' = false) :
    tail.Stops (satisfy test) := by
  intro own t x found
  cases own with
  | nil => simp [refuses] at found
  | cons c own =>
    rw [List.cons_append, satisfy_cons] at found
    split at found
    next =>
      cases found
      exact ⟨own, rfl⟩
    next => cases found

theorem stops_exactly {cs : List Char} (missing : '\n' ∉ cs) : tail.Stops (exactly cs) := by
  induction cs with
  | nil => exact stops_pure ()
  | cons c cs ih =>
    rw [List.mem_cons, not_or] at missing
    rw [exactly_cons]
    exact stops_bind (stops_satisfy (by simpa using Ne.symm missing.1)) fun _ => ih missing.2

theorem stops_takeWhile {test : Char → Bool} (refuses : test '\n' = false) :
    tail.Stops (Parser.takeWhile test) := by
  intro own t x found
  obtain ⟨-, rfl⟩ : _ ∧ (own ++ '\n' :: tail.left 0).dropWhile test = t := by
    simpa [Parser.takeWhile] using found
  rw [List.dropWhile_append]
  split
  · exact ⟨[], by simp [refuses]⟩
  · exact ⟨_, rfl⟩

theorem stops_takeWhile1 {test : Char → Bool} (refuses : test '\n' = false) :
    tail.Stops (takeWhile1 test) :=
  stops_bind (stops_satisfy refuses) fun _ =>
  stops_bind (stops_takeWhile refuses) fun _ =>
  stops_pure _

theorem stops_notFollowedBy (test : Char → Bool) : tail.Stops (notFollowedBy test) := by
  intro own t x found
  cases text : own ++ '\n' :: tail.left 0 with
  | nil => simp at text
  | cons c rest =>
    rw [text, notFollowedBy] at found
    split at found
    next => cases found
    next =>
      cases found
      exact ⟨own, text.symm⟩

/-- A string that is closed, is closed before the border. -/
theorem stops_quoted : tail.Stops (do
    exactly ['\"']
    let body ← Parser.takeWhile (· != '\"')
    exactly ['\"']
    return String.ofList body) := by
  refine stops_bind (stops_exactly (by decide)) fun _ => ?_
  intro own t x found
  rw [quoted_apply] at found
  -- The tail has no quote, so a closing one stands before the border.
  have noQuote : ('\n' :: tail.left 0).dropWhile (· != '\"') = [] := by
    rw [List.dropWhile_eq_nil_iff]
    intro c member
    rcases List.mem_cons.mp member with rfl | member
    · rfl
    · simpa using (tail.plain_left c member).1
  rw [List.dropWhile_append, noQuote] at found
  cases closes : own.dropWhile (· != '\"') with
  | nil =>
    rw [closes] at found
    cases found
  | cons c rest =>
    rw [closes] at found
    cases found
    exact ⟨rest, rfl⟩

end

/-! ## Parsers at the border -/

/-- A parser that goes from the places up to `a` to places up to `b`, and never back. -/
def Moves (tail : Tail) (a b : Nat) (p : Parser α) : Prop :=
  ∀ ⦃i : Nat⦄ ⦃s t : List Char⦄ ⦃x : α⦄, i ≤ a → tail.At i s → p s = some (x, t) →
    ∃ j, tail.At j t ∧ i ≤ j ∧ j ≤ b

/-- A parser that, from the places up to `a`, only succeeds in front of the border, and then passes
    no word behind it. -/
def Seals (tail : Tail) (a : Nat) (p : Parser α) : Prop :=
  ∀ ⦃i : Nat⦄ ⦃s t : List Char⦄ ⦃x : α⦄, i ≤ a → tail.At i s → p s = some (x, t) →
    i = 0 ∧ ∃ j ≤ 1, tail.At j t

/-- A parser that passes at most `n` words behind the border. -/
def Takes (tail : Tail) (n : Nat) (p : Parser α) : Prop :=
  ∀ ⦃a : Nat⦄, 1 ≤ a → tail.Moves a (a + n) p

section

variable {a b c n m : Nat} {p q : Parser α}

theorem Moves.mono (moves : tail.Moves a b p) (further : b ≤ c) : tail.Moves a c p := by
  intro i s t x few stands found
  obtain ⟨j, stands', forth, le⟩ := moves few stands found
  exact ⟨j, stands', forth, Nat.le_trans le further⟩

theorem Seals.mono (seals : tail.Seals b p) (fewer : a ≤ b) : tail.Seals a p :=
  fun _ _ _ _ few => seals (Nat.le_trans few fewer)

theorem Seals.moves (seals : tail.Seals a p) (some : 1 ≤ b) : tail.Moves a b p := by
  intro i s t x few stands found
  obtain ⟨rfl, j, le, stands'⟩ := seals few stands found
  exact ⟨j, stands', Nat.zero_le _, Nat.le_trans le some⟩

/-- There are no places behind the semicolon. -/
theorem Seals.takes (seals : tail.Seals 4 p) : tail.Takes n p :=
  fun _ some _ _ _ _ _ stands => seals.moves (Nat.le_trans some (Nat.le_add_right _ _)) stands.le stands

theorem Seals.tracks (seals : tail.Seals 4 p) : tail.Moves 4 4 p :=
  seals.moves (by decide)

theorem Takes.tracks (takes : tail.Takes n p) : tail.Moves 4 4 p := by
  intro i s t x few stands found
  obtain ⟨j, stands', forth, -⟩ := takes (by omega) few stands found
  exact ⟨j, stands', forth, stands'.le⟩

theorem moves_pure (x : α) (fewer : a ≤ b) : tail.Moves a b (pure x) := by
  intro i s t y few stands found
  cases found
  exact ⟨i, stands, Nat.le_refl _, Nat.le_trans few fewer⟩

theorem moves_bind {f : α → Parser β} (first : tail.Moves a b p)
    (second : ∀ x, tail.Moves b c (f x)) : tail.Moves a c (p >>= f) := by
  intro i s u y few stands found
  rw [bind_apply, Option.bind_eq_some_iff] at found
  obtain ⟨⟨x, t⟩, reads, others⟩ := found
  obtain ⟨j, stands', forth, few'⟩ := first few stands reads
  obtain ⟨k, stands'', forth', few''⟩ := second x few' stands' others
  exact ⟨k, stands'', Nat.le_trans forth forth', few''⟩

theorem moves_orElse (first : tail.Moves a b p) (second : tail.Moves a b q) :
    tail.Moves a b (p <|> q) := by
  intro i s t x few stands found
  rw [orElse_apply, Option.or_eq_some_iff] at found
  rcases found with found | ⟨-, found⟩
  · exact first few stands found
  · exact second few stands found

theorem moves_optional (part : tail.Moves a a p) : tail.Moves a a (optional p) :=
  moves_orElse (moves_bind part fun x => moves_pure (some x) (Nat.le_refl _))
    (moves_pure none (Nat.le_refl _))

theorem moves_manyWithin (round : tail.Moves a a p) (bound : List Char) :
    tail.Moves a a (manyWithin p bound) := by
  induction bound with
  | nil => exact moves_pure [] (Nat.le_refl _)
  | cons _ bound ih =>
    exact moves_orElse
      (moves_bind round fun _ => moves_bind ih fun _ => moves_pure _ (Nat.le_refl _))
      (moves_pure _ (Nat.le_refl _))

theorem moves_many (round : tail.Moves a a p) : tail.Moves a a (many p) :=
  fun _ _ _ _ few stands found => moves_manyWithin round _ few stands found

theorem moves_sepBy1 {sep : Parser Unit} (item : tail.Moves a a p) (separates : tail.Moves a a sep) :
    tail.Moves a a (sepBy1 p sep) :=
  moves_bind item fun _ =>
  moves_bind (moves_many (moves_bind separates fun _ => item)) fun _ =>
  moves_pure _ (Nat.le_refl _)

theorem moves_sepBy {sep : Parser Unit} (item : tail.Moves a a p) (separates : tail.Moves a a sep) :
    tail.Moves a a (sepBy p sep) :=
  moves_orElse (moves_sepBy1 item separates) (moves_pure _ (Nat.le_refl _))

/-- What follows a parser that seals begins in front of the tail. -/
theorem seals_bind {f : α → Parser β} (first : tail.Seals a p)
    (second : ∀ x, tail.Moves 1 1 (f x)) : tail.Seals a (p >>= f) := by
  intro i s u y few stands found
  rw [bind_apply, Option.bind_eq_some_iff] at found
  obtain ⟨⟨x, t⟩, reads, others⟩ := found
  obtain ⟨rfl, j, few', stands'⟩ := first few stands reads
  obtain ⟨k, stands'', -, few''⟩ := second x few' stands' others
  exact ⟨rfl, k, few'', stands''⟩

theorem seals_then {f : α → Parser β} (first : tail.Seals a p)
    (second : ∀ x, tail.Takes 0 (f x)) : tail.Seals a (p >>= f) :=
  seals_bind first fun x => second x (Nat.le_refl 1)

/-- A parser that seals has everything before it in front of the border. -/
theorem seals_after {f : α → Parser β} (first : tail.Moves a b p)
    (second : ∀ x, tail.Seals b (f x)) : tail.Seals a (p >>= f) := by
  intro i s u y few stands found
  rw [bind_apply, Option.bind_eq_some_iff] at found
  obtain ⟨⟨x, t⟩, reads, others⟩ := found
  obtain ⟨j, stands', forth, few'⟩ := first few stands reads
  obtain ⟨rfl, k, few'', stands''⟩ := second x few' stands' others
  exact ⟨Nat.le_zero.mp forth, k, few'', stands''⟩

theorem seals_orElse (first : tail.Seals a p) (second : tail.Seals a q) :
    tail.Seals a (p <|> q) := by
  intro i s t x few stands found
  rw [orElse_apply, Option.or_eq_some_iff] at found
  rcases found with found | ⟨-, found⟩
  · exact first few stands found
  · exact second few stands found

theorem seals_firstOf {ps : List (Parser α)} (each : ∀ p ∈ ps, tail.Seals a p) :
    tail.Seals a (firstOf ps) := by
  induction ps with
  | nil =>
    intro i s t x few stands found
    cases found
  | cons p ps ih =>
    rw [List.forall_mem_cons] at each
    rw [firstOf_cons]
    exact seals_orElse each.1 (ih each.2)

theorem takes_pure (x : α) : tail.Takes 0 (pure x) :=
  fun _ _ => moves_pure x (Nat.le_refl _)

theorem takes_bind {f : α → Parser β} (first : tail.Takes n p) (second : ∀ x, tail.Takes m (f x)) :
    tail.Takes (n + m) (p >>= f) := by
  intro a some
  rw [← Nat.add_assoc]
  exact moves_bind (first some) fun x => second x (by omega)

theorem takes_orElse (first : tail.Takes n p) (second : tail.Takes n q) :
    tail.Takes n (p <|> q) :=
  fun _ some => moves_orElse (first some) (second some)

/-- Whether a part is there is decided without passing a word, if the part seals. -/
theorem takes_optional (seals : tail.Seals 4 p) : tail.Takes 0 (optional p) :=
  takes_orElse (takes_bind seals.takes fun x => takes_pure (some x)) (takes_pure none)

theorem takes_present (seals : tail.Seals 4 p) : tail.Takes 0 (present p) :=
  takes_orElse (takes_bind seals.takes fun _ => takes_pure true) (takes_pure false)

end

/-! ## Tokens -/

section

variable {p : Parser α}

theorem seals_token_before (stops : tail.Stops p) : tail.Seals 0 (token p) := by
  intro i s t x few stands found
  cases stands with
  | within _ _ => omega
  | before stands =>
    simp only [token, blanks, bind_apply, Option.bind_some, stands, pure_apply,
      Option.bind_eq_some_iff, Option.some.injEq, Prod.mk.injEq] at found
    obtain ⟨⟨y, u⟩, reads, -, rfl⟩ := found
    obtain ⟨own, rfl⟩ := stops reads
    obtain ⟨j, le, stands'⟩ := tail.at_border own
    exact ⟨rfl, j, le, stands'.skipBlanks⟩

/-- A token that none of the words of the tail begins, nor its semicolon. -/
theorem seals_token (stops : tail.Stops p) (foreign : ∀ k ≤ 3, p (tail.left k) = none) :
    tail.Seals 4 (token p) := by
  intro i s t x few stands found
  cases stands with
  | before stands => exact seals_token_before stops (Nat.le_refl 0) (.before stands) found
  | within inside stands =>
    rw [← ignoresBlanks_token, stands,
      token_missing (tail.skipBlanks_left _ ▸ blank?_skipBlanks _) (foreign _ inside)] at found
    cases found

/-- A token that begins with none of the characters that the words of the tail begin with. -/
theorem seals_token_of_first (stops : tail.Stops p)
    (foreign : ∀ c ∈ borderChars, ∀ s, p (c :: s) = none) : tail.Seals 4 (token p) := by
  refine seals_token stops fun k _ => ?_
  obtain ⟨c, first, s, text⟩ := tail.left_cons k
  rw [text]
  exact foreign c first s

end

/-- A mark that is found nowhere in the first statement of the tail. -/
def isForeignMark (mark : String) : Bool :=
  match mark.toList with
  | [] => false
  | c :: cs => decide (c ∉ borderChars ∧ '\n' ∉ c :: cs)

theorem seals_symbol {mark : String} (foreign : isForeignMark mark = true) :
    tail.Seals 4 (symbol mark) := by
  rw [isForeignMark] at foreign
  rw [symbol]
  cases chars : mark.toList with
  | nil => simp [chars] at foreign
  | cons c cs =>
    rw [chars] at foreign
    obtain ⟨other, oneLine⟩ := of_decide_eq_true foreign
    refine seals_token_of_first (stops_exactly oneLine) fun d first s => ?_
    have different : c ≠ d := fun same => other (same ▸ first)
    rw [exactly_cons_cons, if_neg different]

theorem stops_word {w : String} (word : isWord w = true) :
    tail.Stops (do exactly w.toList; notFollowedBy isNameChar) := by
  obtain ⟨c, cs, chars, -, all⟩ := isWord_cons word
  refine stops_bind (stops_exactly fun member => ?_) fun _ => stops_notFollowedBy _
  rw [chars] at member
  exact absurd (all _ member) (by decide)

theorem seals_keyword {w : String} (foreign : isForeignWord w = true) :
    tail.Seals 4 (keyword w) := by
  obtain ⟨word, other⟩ := of_decide_eq_true foreign
  refine seals_token (stops_word word) fun k few => ?_
  by_cases last : k = 3
  · subst last
    obtain ⟨c, cs, chars, -, all⟩ := isWord_cons word
    have noMark : c ≠ ';' := by
      rintro rfl
      exact absurd (all _ List.mem_cons_self) (by decide)
    simp [left_three, chars, noMark]
  · obtain ⟨v, member, s, text, isWord_v, ended, -⟩ := tail.left_word (k := k) (by omega)
    rw [text]
    exact exactly_other word isWord_v ended fun same => other (same ▸ member)

/-- The semicolon is read in front of the border or at the end of the statement. -/
theorem seals_semicolon : tail.Seals 3 (symbol ";") := by
  intro i s t x few stands found
  cases stands with
  | before stands =>
    exact seals_token_before (stops_exactly (by decide)) (Nat.le_refl 0) (.before stands) found
  | @within _ k inside stands =>
    obtain ⟨w, -, s', text, word, -, -⟩ := tail.left_word (k := k) (by omega)
    obtain ⟨c, cs, chars, -, all⟩ := isWord_cons word
    have other : ';' ≠ c := by
      rintro rfl
      exact absurd (all _ List.mem_cons_self) (by decide)
    rw [symbol, ← ignoresBlanks_token, stands, text,
      token_missing (blank?_word word s') (by simp [chars, other])] at found
    cases found

theorem takes_identifier : tail.Takes 1 identifier := by
  intro a some i s t x few stands found
  cases stands with
  | before stands =>
    -- A name that begins before the border has no character of it.
    have stops : tail.Stops (do
        let _ ← present (exactly ['_'])
        let head ← takeWhile1 Char.isAlpha
        let tail ← Parser.takeWhile isNameChar
        return String.ofList (head ++ tail)) :=
      stops_bind
        (stops_orElse (stops_bind (stops_exactly (by decide)) fun _ => stops_pure _)
          (stops_pure _)) fun _ =>
      stops_bind (stops_takeWhile1 (by decide)) fun _ =>
      stops_bind (stops_takeWhile (by decide)) fun _ =>
      stops_pure _
    obtain ⟨-, j, le, stands'⟩ :=
      seals_token_before stops (Nat.le_refl 0) (.before stands) found
    exact ⟨j, stands', Nat.zero_le _, by omega⟩
  | @within _ k inside stands =>
    rw [identifier, ← ignoresBlanks_token, stands, ← identifier] at found
    by_cases last : k = 3
    · subst last
      rw [left_three, identifier_none (by decide)] at found
      cases found
    · obtain ⟨w, -, s', text, word, ended, next⟩ := tail.left_word (k := k) (by omega)
      rw [text, identifier_text word ended, next] at found
      cases found
      exact ⟨k + 2, .within (by omega) (tail.skipBlanks_left _), by omega, by omega⟩

end Tail

end IdlTypings.Grammar
