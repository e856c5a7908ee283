import Mathlib
import IdlTypings.Grammar.Document
import IdlTypings.Proofs.ParserRules

/-! # How far a statement reaches

A statement ends at its first semicolon outside curly brackets, strings and comments.  What stands
behind that semicolon has no part in how the statement is read, and neither has the number of
levels of the grammar, as long as there are more of them than characters.

* `Region` is what a text can be in the middle of: something that has an end, and brackets which are
  closed before that end.  `Region.Inside` says that the text comes to the end.
* `Bounded` is the case of a statement, which a semicolon ends.
* `Steady` compares a parser on a text of a region with another one, of more levels, on the text
  with more after it: both fail, or both read the same and stay in front of the end.
* `Closing` is the same for a parser that reads the semicolon of a statement too.

`Steady` has a law for each combinator of parsers and for each token.  A production is steady when
its parts are, by the laws for the combinators it is made with.
-/

namespace IdlTypings.Grammar

open IdlTypings.Parser

variable {α β : Type} {more s t : List Char}

/-! ## Blanks -/

theorem afterLine?_append (found : afterLine? s = some t) (more : List Char) :
    afterLine? (s ++ more) = some (t ++ more) := by
  induction s with
  | nil => simp [afterLine?] at found
  | cons c s ih =>
    rw [List.cons_append, afterLine?]
    rw [afterLine?] at found
    split at found
    · simp_all
    · simp_all

/-- A line feed is looked for behind what stands on one line. -/
theorem afterLine?_skip (missing : '\n' ∉ s) (rest : List Char) :
    afterLine? (s ++ rest) = afterLine? rest := by
  induction s with
  | nil => rfl
  | cons c s ih =>
    rw [List.mem_cons, not_or] at missing
    have other : c ≠ '\n' := Ne.symm missing.1
    rw [List.cons_append, afterLine?, if_neg (by simpa using other), ih missing.2]

theorem afterLine?_line (missing : '\n' ∉ s) (rest : List Char) :
    afterLine? (s ++ '\n' :: rest) = some rest := by
  rw [afterLine?_skip missing]
  rfl

theorem afterLine?_suffix (found : afterLine? s = some t) : t <:+ s := by
  induction s with
  | nil => cases found
  | cons c s ih =>
    rw [afterLine?] at found
    split at found
    next =>
      cases found
      exact List.suffix_cons _ _
    next => exact (ih found).trans (List.suffix_cons c s)

theorem afterBlock?_append (found : afterBlock? s = some t) (more : List Char) :
    afterBlock? (s ++ more) = some (t ++ more) := by
  fun_induction afterBlock? s with
  | case1 rest => simp_all [afterBlock?]
  | case2 c rest other ih =>
    rw [List.cons_append, afterBlock?]
    · exact ih found
    · intro closed star slash
      cases rest with
      | nil => simp [afterBlock?] at found
      | cons e rest =>
        simp only [List.cons_append, List.cons.injEq] at slash
        exact other rest star (by rw [slash.1])
  | case3 => simp at found

theorem afterBlock?_suffix (found : afterBlock? s = some t) : t <:+ s := by
  fun_induction afterBlock? s with
  | case1 rest =>
    cases found
    exact (List.suffix_cons _ _).trans (List.suffix_cons _ _)
  | case2 c rest other ih => exact (ih found).trans (List.suffix_cons c rest)
  | case3 => cases found

theorem blank?_cons {c : Char} (notSlash : c ≠ '/') (s : List Char) :
    blank? (c :: s) = if isBlank c then some s else none := by
  rw [blank?]
  · intro rest slash
    exact absurd slash notSlash
  · intro rest slash
    exact absurd slash notSlash

theorem ne_slash_of_blank {c : Char} (blank : isBlank c = true) : c ≠ '/' := by
  rintro rfl
  exact absurd blank (by decide)

/-- A blank that is found is complete, so it is found with anything after it. -/
theorem blank?_append (found : blank? s = some t) (more : List Char) :
    blank? (s ++ more) = some (t ++ more) := by
  fun_cases blank? s with
  | case1 rest => exact afterLine?_append found more
  | case2 rest => exact afterBlock?_append found more
  | case3 c rest _ _ blank =>
    have notSlash := ne_slash_of_blank blank
    rw [blank?_cons notSlash, if_pos blank] at found
    rw [List.cons_append, blank?_cons notSlash, if_pos blank, Option.some.inj found]
  | case4 c rest noLine noBlock solid =>
    rw [blank?] at found
    · simp [solid] at found
    · exact noLine
    · exact noBlock
  | case5 => simp [blank?] at found

/-- A blank takes at least the first character of the text. -/
theorem blank?_takes (found : blank? s = some t) : ∃ c rest, s = c :: rest ∧ t <:+ rest := by
  fun_cases blank? s with
  | case1 rest => exact ⟨_, _, rfl, (afterLine?_suffix found).trans (List.suffix_cons _ _)⟩
  | case2 rest => exact ⟨_, _, rfl, (afterBlock?_suffix found).trans (List.suffix_cons _ _)⟩
  | case3 c rest _ _ blank =>
    rw [blank?_cons (ne_slash_of_blank blank), if_pos blank] at found
    exact ⟨c, rest, rfl, (Option.some.inj found) ▸ List.suffix_rfl⟩
  | case4 c rest noLine noBlock solid =>
    rw [blank?] at found
    · simp [solid] at found
    · exact noLine
    · exact noBlock
  | case5 => cases found

theorem blank?_suffix (found : blank? s = some t) : t <:+ s := by
  obtain ⟨c, rest, rfl, left⟩ := blank?_takes found
  exact left.trans (List.suffix_cons c rest)

theorem length_blank? (found : blank? s = some t) : t.length < s.length := by
  obtain ⟨c, rest, rfl, left⟩ := blank?_takes found
  exact Nat.lt_succ_of_le left.length_le

theorem skipBlanksWithin_eq {bound : List Char} (enough : s.length ≤ bound.length) :
    skipBlanksWithin bound s = skipBlanks s := by
  -- Every blank takes a character of the text, so any bound of that length is never reached.
  suffices same : ∀ {bound bound' s : List Char}, s.length ≤ bound.length →
      s.length ≤ bound'.length → skipBlanksWithin bound s = skipBlanksWithin bound' s from
    same enough (Nat.le_refl _)
  intro bound
  induction bound with
  | nil =>
    intro bound' s enough _
    obtain rfl := List.eq_nil_of_length_eq_zero (Nat.le_zero.mp enough)
    cases bound' <;> rfl
  | cons b bound ih =>
    intro bound' s enough enough'
    cases bound' with
    | nil =>
      obtain rfl := List.eq_nil_of_length_eq_zero (Nat.le_zero.mp enough')
      rfl
    | cons b' bound' =>
      rw [skipBlanksWithin, skipBlanksWithin]
      cases found : blank? s with
      | none => rfl
      | some rest =>
        have shorter := length_blank? found
        simp only [List.length_cons] at enough enough'
        exact ih (by omega) (by omega)

theorem skipBlanks_of_none (solid : blank? s = none) : skipBlanks s = s := by
  cases s with
  | nil => rfl
  | cons c s => rw [skipBlanks, skipBlanksWithin, solid]

theorem skipBlanks_of_some (found : blank? s = some t) : skipBlanks s = skipBlanks t := by
  cases s with
  | nil => simp [blank?] at found
  | cons c s =>
    have shorter := length_blank? found
    rw [skipBlanks, skipBlanksWithin, found]
    exact skipBlanksWithin_eq (by simp only [List.length_cons] at shorter; omega)

/-- Blanks are passed one at a time, up to a text that begins with none. -/
theorem skipBlanks_induction {motive : List Char → List Char → Prop}
    (solid : ∀ {s}, blank? s = none → motive s s)
    (blank : ∀ {s t}, blank? s = some t → motive t (skipBlanks t) → motive s (skipBlanks t))
    (s : List Char) : motive s (skipBlanks s) := by
  induction size : s.length using Nat.strong_induction_on generalizing s with
  | _ n ih =>
    cases found : blank? s with
    | none =>
      rw [skipBlanks_of_none found]
      exact solid found
    | some t =>
      rw [skipBlanks_of_some found]
      exact blank found (ih t.length (size ▸ length_blank? found) t rfl)

theorem blank?_skipBlanks (s : List Char) : blank? (skipBlanks s) = none :=
  skipBlanks_induction (motive := fun _ rest => blank? rest = none) (fun solid => solid)
    (fun _ solid => solid) s

@[simp] theorem skipBlanks_skipBlanks (s : List Char) : skipBlanks (skipBlanks s) = skipBlanks s :=
  skipBlanks_of_none (blank?_skipBlanks s)

theorem skipBlanks_suffix (s : List Char) : skipBlanks s <:+ s :=
  skipBlanks_induction (motive := fun s rest => rest <:+ s) (fun _ => List.suffix_rfl)
    (fun found inside => inside.trans (blank?_suffix found)) s

theorem length_skipBlanks (s : List Char) : (skipBlanks s).length ≤ s.length :=
  (skipBlanks_suffix s).length_le

/-- The blanks of a text are passed whatever follows it. -/
theorem skipBlanks_append (s more : List Char) :
    skipBlanks (s ++ more) = skipBlanks (skipBlanks s ++ more) :=
  skipBlanks_induction (motive := fun s rest => skipBlanks (s ++ more) = skipBlanks (rest ++ more))
    (fun _ => rfl)
    (fun found ih => by rw [skipBlanks_of_some (blank?_append found more), ih]) s

/-! ## Regions -/

/-- A character that is neither a semicolon, nor a curly bracket, nor the start of a string or of a
    comment. -/
def isPlain (c : Char) : Bool :=
  c != ';' && c != '\x7b' && c != '\x7d' && c != '\"' && c != '/'

/-- A plain character that is no square bracket. -/
def isFlat (c : Char) : Bool :=
  isPlain c && c != '[' && c != ']'

def isFlatClass (test : Char → Bool) : Bool :=
  [';', '\x7b', '\x7d', '\"', '/', '[', ']'].all fun c => !test c

/-- What a character does on the way to an end: it is the end, the way goes on inside a number of
    brackets, or the way is lost. -/
inductive Move where
  | ends
  | goes (depth : Nat)
  | strays

/-- A bracket that closes one of those around it. -/
def Move.closing : Nat → Move
  | 0 => .strays
  | depth + 1 => .goes depth

/-- What a text can be in the middle of: something with an end, and with brackets that are closed
    before it.  The depth is the number of the brackets that count.  Strings and comments are passed
    as a whole, so their first characters are no moves. -/
structure Region where
  move : Nat → Char → Move
  /-- The depth behind a curly bracket that opens. -/
  curly : Nat → Nat
  /-- The depth behind a square bracket that opens. -/
  square : Nat → Nat
  flat {c : Char} (flat : isFlat c = true) (d : Nat) : move d c = .goes d
  quote (d : Nat) : move d '\"' = .strays
  slash (d : Nat) : move d '/' = .strays
  openCurly (d : Nat) : move d '\x7b' = .goes (curly d)
  closeCurly (d : Nat) : move (curly d) '\x7d' = .goes d
  openSquare (d : Nat) : move d '[' = .goes (square d)
  closeSquare (d : Nat) : move (square d) ']' = .goes d

/-- A text of a region, inside a number of brackets, that comes to the end of the region. -/
inductive Region.Inside (R : Region) : Nat → List Char → Prop where
  | here {d : Nat} {c : Char} {s : List Char} (ends : R.move d c = .ends) : R.Inside d (c :: s)
  | further {d e : Nat} {c : Char} {s : List Char} (goes : R.move d c = .goes e)
      (rest : R.Inside e s) : R.Inside d (c :: s)
  | string {d : Nat} {s t : List Char} (ends : s.dropWhile (· != '\"') = '\"' :: t)
      (rest : R.Inside d t) : R.Inside d ('\"' :: s)
  | comment {d : Nat} {s t : List Char} (ends : blank? ('/' :: s) = some t)
      (rest : R.Inside d t) : R.Inside d ('/' :: s)

theorem isFlat_of_class {test : Char → Bool} {c : Char} (flat : isFlatClass test = true)
    (accepted : test c = true) : isFlat c = true := by
  simp only [isFlatClass, List.all_cons, List.all_nil, Bool.and_true, Bool.not_eq_true',
    Bool.and_eq_true] at flat
  obtain ⟨semicolon, opening, closing, quote, slash, openSquare, closeSquare⟩ := flat
  have apart {b : Char} (refused : test b = false) : c ≠ b := by
    rintro rfl
    simp [refused] at accepted
  simp [isFlat, isPlain, apart semicolon, apart opening, apart closing, apart quote, apart slash,
    apart openSquare, apart closeSquare]

theorem isPlain_of_flat {c : Char} (flat : isFlat c = true) : isPlain c = true := by
  rw [isFlat, Bool.and_eq_true, Bool.and_eq_true] at flat
  exact flat.1.1

section

variable {R : Region} {d : Nat}

theorem Region.not_inside_nil : ¬ R.Inside d [] := by
  intro inside
  cases inside

theorem Region.inside_further {e : Nat} {c : Char} (goes : R.move d c = .goes e) :
    R.Inside e s ↔ R.Inside d (c :: s) := by
  constructor
  · exact .further goes
  · intro inside
    cases inside with
    | here ends => simp [ends] at goes
    | further goes' rest =>
      obtain rfl : _ = e := by simpa [goes'] using goes
      exact rest
    | string _ _ => simp [R.quote] at goes
    | comment _ _ => simp [R.slash] at goes

theorem Region.inside_flat {c : Char} (flat : isFlat c = true) :
    R.Inside d s ↔ R.Inside d (c :: s) :=
  inside_further (R.flat flat d)

/-- A string that a text of a region begins with is closed. -/
theorem Region.inside_string :
    R.Inside d ('\"' :: s) ↔ ∃ t, s.dropWhile (· != '\"') = '\"' :: t ∧ R.Inside d t := by
  constructor
  · intro inside
    cases inside with
    | string ends rest => exact ⟨_, ends, rest⟩
    | here ends => simp [R.quote] at ends
    | further goes _ => simp [R.quote] at goes
  · rintro ⟨t, ends, rest⟩
    exact .string ends rest

theorem Region.inside_comment :
    R.Inside d ('/' :: s) ↔ ∃ t, blank? ('/' :: s) = some t ∧ R.Inside d t := by
  constructor
  · intro inside
    cases inside with
    | comment ends rest => exact ⟨_, ends, rest⟩
    | here ends => simp [R.slash] at ends
    | further goes _ => simp [R.slash] at goes
  · rintro ⟨t, ends, rest⟩
    exact .comment ends rest

theorem Region.inside_blank (found : blank? s = some t) : R.Inside d t ↔ R.Inside d s := by
  cases s with
  | nil => simp [blank?] at found
  | cons c s =>
    by_cases slash : c = '/'
    · subst slash
      rw [Region.inside_comment, found]
      simp
    · rw [blank?_cons slash] at found
      split at found
      next blank =>
        rw [← Option.some.inj found]
        exact Region.inside_flat (isFlat_of_class (by decide) blank)
      next => cases found

/-- A text of a region that does not begin with a blank begins with none whatever follows it, since
    its comments are closed. -/
theorem Region.blank?_append (inside : R.Inside d s) (solid : blank? s = none) (more : List Char) :
    blank? (s ++ more) = none := by
  cases s with
  | nil => exact absurd inside Region.not_inside_nil
  | cons c s =>
    by_cases slash : c = '/'
    · subst slash
      obtain ⟨t, ends, -⟩ := Region.inside_comment.mp inside
      simp [solid] at ends
    · rw [blank?_cons slash] at solid
      rw [List.cons_append, blank?_cons slash]
      split at solid
      next => cases solid
      next notBlank => rw [if_neg notBlank]

theorem Region.inside_skipBlanks (s : List Char) : R.Inside d (skipBlanks s) ↔ R.Inside d s :=
  skipBlanks_induction (motive := fun s rest => R.Inside d rest ↔ R.Inside d s) (fun _ => .rfl)
    (fun found ih => ih.trans (Region.inside_blank found)) s

theorem Region.skipBlanks_append (inside : R.Inside d s) (more : List Char) :
    skipBlanks (s ++ more) = skipBlanks s ++ more := by
  rw [Grammar.skipBlanks_append]
  exact skipBlanks_of_none
    (Region.blank?_append ((inside_skipBlanks s).mpr inside) (blank?_skipBlanks s) more)

end

/-! ## Texts in the middle of a statement -/

/-- The region of a statement, which its semicolon ends. -/
def Region.statement : Region where
  move d c :=
    if c = ';' then if d = 0 then .ends else .goes d
    else if c = '\x7b' then .goes (d + 1)
    else if c = '\x7d' then .closing d
    else if c = '\"' ∨ c = '/' then .strays
    else .goes d
  curly d := d + 1
  square d := d
  flat flat d := by simp_all [isFlat, isPlain]
  quote _ := rfl
  slash _ := rfl
  openCurly _ := rfl
  closeCurly _ := rfl
  openSquare _ := rfl
  closeSquare _ := rfl

/-- A text in the middle of a statement, inside a number of curly brackets, that comes to the
    semicolon which ends the statement. -/
abbrev Bounded : Nat → List Char → Prop :=
  Region.statement.Inside

section

variable {d : Nat} {c : Char}

theorem bounded_here : Bounded 0 (';' :: s) :=
  .here rfl

theorem bounded_plain (plain : isPlain c = true) : Bounded d s ↔ Bounded d (c :: s) :=
  Region.inside_further (by simp_all [Region.statement, isPlain])

theorem bounded_inside : Bounded (d + 1) s ↔ Bounded (d + 1) (';' :: s) :=
  Region.inside_further rfl

theorem bounded_opening : Bounded (d + 1) s ↔ Bounded d ('\x7b' :: s) :=
  Region.inside_further rfl

theorem bounded_closing : Bounded d s ↔ Bounded (d + 1) ('\x7d' :: s) :=
  Region.inside_further rfl

theorem bounded_skipBlanks (s : List Char) : Bounded d (skipBlanks s) ↔ Bounded d s :=
  Region.inside_skipBlanks s

end

/-! ## Parsers that stay in front of the end -/

/-- On a text shorter than `n` inside `d` brackets of a region, `p` does what `q` does on the text
    with `more` after it, and what is left is inside `e` brackets.  If the flag is set, something is
    read. -/
structure Steady (R : Region) (more : List Char) (n : Nat) (eats : Bool) (d e : Nat)
    (p q : Parser α) : Prop where
  reads {s t : List Char} {x : α} (short : s.length < n) (found : p s = some (x, t)) :
    t.length + eats.toNat ≤ s.length ∧ (R.Inside e t ↔ R.Inside d s) ∧
      (R.Inside d s → q (s ++ more) = some (x, t ++ more))
  fails {s : List Char} (short : s.length < n) (missing : p s = none) (bounded : R.Inside d s) :
    q (s ++ more) = none

section

variable {R : Region} {n d e k : Nat} {eats eats' : Bool} {p q p' q' : Parser α}

theorem Steady.mono {m : Nat} (steady : Steady R more n eats d e p q) (fewer : m ≤ n) :
    Steady R more m eats d e p q where
  reads short := steady.reads (Nat.lt_of_lt_of_le short fewer)
  fails short := steady.fails (Nat.lt_of_lt_of_le short fewer)

theorem steady_pure (x : α) : Steady R more n false d d (pure x) (pure x) where
  reads {s t y} _ found := by
    obtain ⟨rfl, rfl⟩ : x = y ∧ s = t := by simpa using found
    exact ⟨Nat.le_refl _, .rfl, fun _ => rfl⟩
  fails _ missing := by simp at missing

theorem steady_failure : Steady R more n eats d e (failure : Parser α) failure where
  reads _ found := by cases found
  fails _ _ _ := rfl

/-- Steps in a row.  Behind a step that reads something, the text is shorter. -/
theorem steady_bind_within {m : Nat} {f g : α → Parser β} (first : Steady R more n eats d e p q)
    (second : ∀ x, Steady R more m eats' e k (f x) (g x)) (within : n ≤ m + eats.toNat) :
    Steady R more n (eats || eats') d k (p >>= f) (q >>= g) where
  reads {s u y} short found := by
    rw [bind_apply, Option.bind_eq_some_iff] at found
    obtain ⟨⟨x, t⟩, firstReads, secondReads⟩ := found
    obtain ⟨used, bounded, same⟩ := first.reads short firstReads
    have short' : t.length < m := by omega
    obtain ⟨used', bounded', same'⟩ := (second x).reads short' secondReads
    refine ⟨?_, bounded'.trans bounded, fun inside => ?_⟩
    -- If one of the steps has read something, both together have.
    · cases eats <;> simp_all <;> omega
    · rw [bind_apply, same inside]
      exact same' (bounded.mpr inside)
  fails {s} short missing inside := by
    rw [bind_apply] at missing ⊢
    cases firstReads : p s with
    | none => rw [first.fails short firstReads inside, Option.bind_none]
    | some found =>
      obtain ⟨x, t⟩ := found
      obtain ⟨used, bounded, same⟩ := first.reads short firstReads
      -- The first step reads the same from both texts, so it is the second one that fails.
      rw [firstReads, Option.bind_some] at missing
      rw [same inside, Option.bind_some]
      exact (second x).fails (by omega) missing (bounded.mpr inside)

theorem steady_bind {f g : α → Parser β} (first : Steady R more n eats d e p q)
    (second : ∀ x, Steady R more n eats' e k (f x) (g x)) :
    Steady R more n (eats || eats') d k (p >>= f) (q >>= g) :=
  steady_bind_within first second (by omega)

theorem steady_orElse (first : Steady R more n eats d e p q)
    (second : Steady R more n eats' d e p' q') :
    Steady R more n (eats && eats') d e (p <|> p') (q <|> q') where
  reads {s t x} short found := by
    rw [orElse_apply] at found ⊢
    cases firstReads : p s with
    | some result =>
      obtain ⟨y, u⟩ := result
      obtain ⟨rfl, rfl⟩ : y = x ∧ u = t := by simpa [firstReads] using found
      obtain ⟨used, bounded, same⟩ := first.reads short firstReads
      have weaker : (eats && eats').toNat ≤ eats.toNat := Bool.toNat_le_toNat (Bool.and_le_left eats eats')
      exact ⟨by omega, bounded, fun inside => by rw [same inside, Option.some_or]⟩
    | none =>
      -- The second choice is taken with `more` after the text only because the first one fails
      -- there too.
      rw [firstReads, Option.none_or] at found
      obtain ⟨used, bounded, same⟩ := second.reads short found
      have weaker : (eats && eats').toNat ≤ eats'.toNat := Bool.toNat_le_toNat (Bool.and_le_right eats eats')
      refine ⟨by omega, bounded, fun inside => ?_⟩
      rw [first.fails short firstReads inside, Option.none_or, same inside]
  fails {s} short missing inside := by
    rw [orElse_apply] at missing ⊢
    obtain ⟨firstFails, secondFails⟩ := Option.or_eq_none_iff.mp missing
    rw [first.fails short firstFails inside, second.fails short secondFails inside, Option.none_or]

theorem firstOf_cons (p : Parser α) (ps : List (Parser α)) :
    firstOf (p :: ps) = (p <|> firstOf ps) := by
  funext s
  rw [firstOf_cons_apply, orElse_apply]

theorem steady_firstOf {ps qs : List (Parser α)}
    (steady : List.Forall₂ (Steady R more n true d e) ps qs) :
    Steady R more n true d e (firstOf ps) (firstOf qs) := by
  induction steady with
  | nil => exact steady_failure
  | cons first _ ih =>
    rw [firstOf_cons, firstOf_cons]
    exact steady_orElse first ih

theorem steady_optional (steady : Steady R more n eats d d p q) :
    Steady R more n false d d (optional p) (optional q) := by
  have weak := steady_orElse (steady_bind steady fun x => steady_pure (some x)) (steady_pure none)
  rw [Bool.and_false] at weak
  exact weak

theorem steady_present (steady : Steady R more n eats d d p q) :
    Steady R more n false d d (present p) (present q) := by
  have weak := steady_orElse (steady_bind steady fun _ => steady_pure true) (steady_pure false)
  rw [Bool.and_false] at weak
  exact weak

/-! ### Repetition -/

theorem steady_manyWithin (steady : Steady R more n true d d p q) {bound bound' : List Char}
    (enough : s.length ≤ bound.length) (enough' : (s ++ more).length ≤ bound'.length)
    (short : s.length < n) :
    ∃ xs t, manyWithin p bound s = some (xs, t) ∧ t.length ≤ s.length ∧
      (R.Inside d t ↔ R.Inside d s) ∧
      (R.Inside d s → manyWithin q bound' (s ++ more) = some (xs, t ++ more)) := by
  -- Each round uses up one character of both bounds and at least one of the text.
  induction bound generalizing s bound' with
  | nil =>
    obtain rfl := List.eq_nil_of_length_eq_zero (Nat.le_zero.mp enough)
    exact ⟨[], [], rfl, Nat.le_refl _, .rfl, fun inside => absurd inside Region.not_inside_nil⟩
  | cons b bound ih =>
    cases found : p s with
    | none =>
      refine ⟨[], s, by simp [manyWithin, found], Nat.le_refl _, .rfl, fun inside => ?_⟩
      have fails := steady.fails short found inside
      cases bound' <;> simp [manyWithin, fails]
    | some result =>
      obtain ⟨x, t⟩ := result
      obtain ⟨used, bounded, same⟩ := steady.reads short found
      simp only [Bool.toNat_true] at used
      cases bound' with
      | nil =>
        simp only [List.length_append, List.length_nil] at enough'
        omega
      | cons b' bound' =>
        simp only [List.length_cons, List.length_append] at enough enough'
        obtain ⟨xs, u, rounds, shorter, bounded', same'⟩ :=
          @ih t bound' (by omega) (by rw [List.length_append]; omega) (by omega)
        refine ⟨x :: xs, u, by simp [manyWithin, found, rounds], by omega,
          bounded'.trans bounded, fun inside => ?_⟩
        simp [manyWithin, same inside, same' (bounded.mpr inside)]

/-- A repetition is steady when every round reads something. -/
theorem steady_many (steady : Steady R more n true d d p q) :
    Steady R more n false d d (many p) (many q) where
  reads {s t xs} short found := by
    obtain ⟨ys, u, rounds, shorter, bounded, same⟩ :=
      steady_manyWithin steady (Nat.le_refl s.length) (Nat.le_refl _) short
    rw [many, rounds] at found
    cases found
    exact ⟨shorter, bounded, same⟩
  fails {s} short missing := by
    obtain ⟨ys, u, rounds, -⟩ :=
      steady_manyWithin steady (Nat.le_refl s.length) (Nat.le_refl _) short
    rw [many, rounds] at missing
    cases missing

theorem steady_sepBy1 {sep sep' : Parser Unit} (steady : Steady R more n true d d p q)
    (separates : Steady R more n true d d sep sep') :
    Steady R more n true d d (sepBy1 p sep) (sepBy1 q sep') :=
  steady_bind steady fun _ =>
    steady_bind (steady_many (steady_bind separates fun _ => steady)) fun _ => steady_pure _

theorem steady_sepBy {sep sep' : Parser Unit} (steady : Steady R more n true d d p q)
    (separates : Steady R more n true d d sep sep') :
    Steady R more n false d d (sepBy p sep) (sepBy q sep') :=
  steady_orElse (steady_sepBy1 steady separates) (steady_pure _)

/-! ### Characters -/

/-- One character, behind which the text is inside `e` brackets. -/
theorem steady_satisfy_of_moves {test : Char → Bool}
    (moves : ∀ c, test c = true → ∀ s, R.Inside e s ↔ R.Inside d (c :: s)) :
    Steady R more n true d e (satisfy test) (satisfy test) where
  reads {s t x} _ found := by
    cases s with
    | nil => cases found
    | cons c s =>
      rw [satisfy_cons] at found
      split at found
      next accepted =>
        cases found
        exact ⟨Nat.le_refl _, moves x accepted t, fun _ => by simp [accepted]⟩
      next => cases found
  fails {s} _ missing inside := by
    cases s with
    -- At the end of a text the first character of `more` might do, but no region ends there.
    | nil => exact absurd inside Region.not_inside_nil
    | cons c s =>
      rw [satisfy_cons] at missing
      split at missing
      next => cases missing
      next refused => simp [refused]

theorem steady_satisfy {test : Char → Bool} (flat : isFlatClass test = true) :
    Steady R more n true d d (satisfy test) (satisfy test) :=
  steady_satisfy_of_moves fun _ accepted _ => Region.inside_flat (isFlat_of_class flat accepted)

theorem exactly_cons (c : Char) (cs : List Char) :
    exactly (c :: cs) = (do let _ ← satisfy (c == ·); exactly cs) := by
  funext s
  cases s with
  | nil => rfl
  | cons b s => by_cases same : c = b <;> simp [same]

theorem steady_exactly {c : Char} {cs : List Char} (flat : (c :: cs).all isFlat = true) :
    Steady R more n true d d (exactly (c :: cs)) (exactly (c :: cs)) := by
  induction cs generalizing c with
  | nil =>
    rw [exactly_cons]
    refine steady_bind (steady_satisfy_of_moves fun b same s => ?_) fun _ => steady_pure ()
    obtain rfl : c = b := by simpa using same
    exact Region.inside_flat (by simpa using flat)
  | cons c' cs ih =>
    rw [exactly_cons]
    rw [List.all_cons, Bool.and_eq_true] at flat
    refine steady_bind (steady_satisfy_of_moves fun b same s => ?_) fun _ => ih flat.2
    obtain rfl : c = b := by simpa using same
    exact Region.inside_flat flat.1

/-- One of the characters that are not flat. -/
theorem steady_exactly_one {c : Char} (moves : ∀ s, R.Inside e s ↔ R.Inside d (c :: s)) :
    Steady R more n true d e (exactly [c]) (exactly [c]) := by
  rw [exactly_cons]
  refine steady_bind (steady_satisfy_of_moves fun b same s => ?_) fun _ => steady_pure ()
  obtain rfl : c = b := by simpa using same
  exact moves s

theorem Region.inside_dropWhile {test : Char → Bool} (flat : isFlatClass test = true)
    (s : List Char) : R.Inside d (s.dropWhile test) ↔ R.Inside d s := by
  induction s with
  | nil => exact .rfl
  | cons c s ih =>
    rw [List.dropWhile_cons]
    split
    next accepted => exact ih.trans (Region.inside_flat (isFlat_of_class flat accepted))
    next => exact .rfl

/-- A run of characters that stops inside a text is the same whatever follows the text. -/
theorem takeWhile_append_of_stops {test : Char → Bool} (stops : s.dropWhile test ≠ [])
    (more : List Char) :
    Parser.takeWhile test (s ++ more) = some (s.takeWhile test, s.dropWhile test ++ more) := by
  induction s with
  | nil => exact absurd rfl stops
  | cons c s ih =>
    rw [List.dropWhile_cons] at stops
    rw [Parser.takeWhile, List.cons_append, List.takeWhile_cons, List.dropWhile_cons,
      List.takeWhile_cons, List.dropWhile_cons]
    split at stops
    next accepted =>
      obtain ⟨taken, left⟩ : (s ++ more).takeWhile test = s.takeWhile test ∧
          (s ++ more).dropWhile test = s.dropWhile test ++ more := by
        simpa [Parser.takeWhile] using ih stops
      simp [accepted, taken, left]
    next refused => simp [refused]

theorem quote_of_dropWhile {c : Char} (left : s.dropWhile (· != '\"') = c :: t) : c = '\"' := by
  have stopped := List.head?_dropWhile_not (· != '\"') s
  simpa [left] using stopped

theorem steady_takeWhile {test : Char → Bool} (flat : isFlatClass test = true) :
    Steady R more n false d d (Parser.takeWhile test) (Parser.takeWhile test) where
  reads {s t x} _ found := by
    obtain ⟨rfl, rfl⟩ : s.takeWhile test = x ∧ s.dropWhile test = t := by
      simpa [Parser.takeWhile] using found
    have bounded := Region.inside_dropWhile (R := R) (d := d) flat s
    refine ⟨(List.dropWhile_suffix test).length_le, bounded, fun inside => ?_⟩
    apply takeWhile_append_of_stops
    intro empty
    rw [empty] at bounded
    exact Region.not_inside_nil (bounded.mpr inside)
  fails _ missing := by cases missing

theorem steady_takeWhile1 {test : Char → Bool} (flat : isFlatClass test = true) :
    Steady R more n true d d (takeWhile1 test) (takeWhile1 test) :=
  steady_bind (steady_satisfy flat) fun _ =>
  steady_bind (steady_takeWhile flat) fun _ =>
  steady_pure _

theorem steady_notFollowedBy (test : Char → Bool) :
    Steady R more n false d d (notFollowedBy test) (notFollowedBy test) where
  reads {s t x} _ found := by
    cases s with
    -- Nothing follows at the end of a text, where `more` might begin with the character.
    | nil =>
      cases found
      exact ⟨Nat.le_refl _, .rfl, fun inside => absurd inside Region.not_inside_nil⟩
    | cons c s =>
      rw [notFollowedBy] at found
      split at found
      next => cases found
      next refused =>
        cases found
        exact ⟨Nat.le_refl _, .rfl, fun _ => by simp [notFollowedBy, refused]⟩
  fails {s} _ missing inside := by
    cases s with
    | nil => exact absurd inside Region.not_inside_nil
    | cons c s =>
      rw [notFollowedBy] at missing
      split at missing
      next accepted => simp [notFollowedBy, accepted]
      next => cases missing

/-! ### Tokens -/

theorem steady_blanks : Steady R more n false d d blanks blanks where
  reads {s t x} _ found := by
    obtain rfl : skipBlanks s = t := by simpa [blanks] using found
    refine ⟨length_skipBlanks s, Region.inside_skipBlanks s, fun inside => ?_⟩
    rw [blanks, Region.skipBlanks_append inside]
  fails _ missing := by cases missing

theorem steady_token (steady : Steady R more n true d e p q) :
    Steady R more n true d e (token p) (token q) :=
  steady_bind steady_blanks fun _ =>
    steady_bind steady fun _ => steady_bind steady_blanks fun _ => steady_pure _

/-- A mark or a word of flat characters. -/
def isFlatText (text : String) : Bool :=
  !text.toList.isEmpty && text.toList.all isFlat

theorem steady_text {text : String} (flat : isFlatText text = true) :
    Steady R more n true d d (exactly text.toList) (exactly text.toList) := by
  rw [isFlatText, Bool.and_eq_true] at flat
  cases chars : text.toList with
  | nil => simp [chars] at flat
  | cons c cs =>
    rw [chars] at flat
    exact steady_exactly flat.2

theorem steady_symbol {mark : String} (flat : isFlatText mark = true) :
    Steady R more n true d d (symbol mark) (symbol mark) :=
  steady_token (steady_text flat)

theorem steady_keyword {word : String} (flat : isFlatText word = true) :
    Steady R more n true d d (keyword word) (keyword word) :=
  steady_token (steady_bind (steady_text flat) fun _ => steady_notFollowedBy _)

theorem steady_identifier : Steady R more n true d d identifier identifier :=
  steady_token <|
    steady_bind (steady_present (steady_exactly (by decide))) fun _ =>
    steady_bind (steady_takeWhile1 (by decide)) fun _ =>
    steady_bind (steady_takeWhile (by decide)) fun _ =>
    steady_pure _

/-- The text behind an opening quote up to the closing one, which must be there. -/
theorem quoted_apply (s : List Char) :
    (do
      let body ← Parser.takeWhile (· != '\"')
      exactly ['\"']
      return String.ofList body : Parser String) s =
      match s.dropWhile (· != '\"') with
      | [] => none
      | _ :: t => some (String.ofList (s.takeWhile (· != '\"')), t) := by
  cases left : s.dropWhile (· != '\"') with
  | nil => simp [Parser.takeWhile, left]
  | cons c t => simp [Parser.takeWhile, left, quote_of_dropWhile left]

/-- A string is read as a whole, whatever stands in it. -/
theorem steady_stringLiteral : Steady R more n true d d stringLiteral stringLiteral := by
  refine steady_token ⟨?_, ?_⟩
  · intro s t x _ found
    cases s with
    | nil => cases found
    | cons c s =>
      rw [bind_apply, exactly_cons_cons] at found
      split at found
      next quote =>
        subst c
        rw [exactly_nil, Option.bind_some, quoted_apply] at found
        cases left : s.dropWhile (· != '\"') with
        | nil => simp [left] at found
        | cons c t' =>
          obtain rfl := quote_of_dropWhile left
          obtain ⟨rfl, rfl⟩ : String.ofList (s.takeWhile (· != '\"')) = x ∧ t' = t := by
            simpa [left] using found
          have shorter := (List.dropWhile_suffix (l := s) (· != '\"')).length_le
          rw [left] at shorter
          refine ⟨?_, ?_, fun _ => ?_⟩
          · simp only [List.length_cons, Bool.toNat_true] at shorter ⊢
            omega
          · rw [Region.inside_string, left]
            simp
          · have stops : s.dropWhile (· != '\"') ≠ [] := by simp [left]
            simp [takeWhile_append_of_stops stops more, left]
      next => cases found
  · intro s _ missing inside
    cases s with
    | nil => exact absurd inside Region.not_inside_nil
    | cons c s =>
      by_cases quote : '\"' = c
      · -- A text of a region closes its string, so there is nothing that could be missing.
        subst c
        obtain ⟨t, ends, -⟩ := Region.inside_string.mp inside
        rw [bind_apply, exactly_cons_cons, if_pos rfl, exactly_nil, Option.bind_some, quoted_apply,
          ends] at missing
        cases missing
      · rw [bind_apply, List.cons_append, exactly_cons_cons, if_neg quote, Option.bind_none]

theorem steady_openCurly : Steady R more n true d (R.curly d) (symbol "\x7b") (symbol "\x7b") :=
  steady_token (steady_exactly_one fun _ => Region.inside_further (R.openCurly d))

theorem steady_closeCurly : Steady R more n true (R.curly d) d (symbol "\x7d") (symbol "\x7d") :=
  steady_token (steady_exactly_one fun _ => Region.inside_further (R.closeCurly d))

theorem steady_openSquare : Steady R more n true d (R.square d) (symbol "[") (symbol "[") :=
  steady_token (steady_exactly_one fun _ => Region.inside_further (R.openSquare d))

theorem steady_closeSquare : Steady R more n true (R.square d) d (symbol "]") (symbol "]") :=
  steady_token (steady_exactly_one fun _ => Region.inside_further (R.closeSquare d))

/-- Inside curly brackets a semicolon ends no statement. -/
theorem steady_semicolon :
    Steady .statement more n true (d + 1) (d + 1) (symbol ";") (symbol ";") :=
  steady_token (steady_exactly_one fun _ => bounded_inside)

/-! ## Parsers that read the semicolon -/

/-- On a text shorter than `n`, `p` does what `q` does on the text with `more` after it: both read up
    to the semicolon that bounds the text, and the blanks behind it. -/
structure Closing (more : List Char) (n : Nat) (p q : Parser α) : Prop where
  closes {s t : List Char} {x : α} (short : s.length < n) (found : p s = some (x, t)) :
    ∃ rest, t = skipBlanks rest ∧ rest.length < s.length ∧ Bounded 0 s ∧
      q (s ++ more) = some (x, skipBlanks (rest ++ more))
  fails {s : List Char} (short : s.length < n) (missing : p s = none) (bounded : Bounded 0 s) :
    q (s ++ more) = none

theorem symbol_semicolon (s : List Char) :
    symbol ";" s =
      match skipBlanks s with
      | ';' :: rest => some ((), skipBlanks rest)
      | _ => none := by
  have mark : ";".toList = [';'] := rfl
  rw [symbol, mark, token, bind_apply, blanks, Option.bind_some, bind_apply]
  cases skipBlanks s with
  | nil => rfl
  | cons c rest =>
    by_cases semicolon : ';' = c
    · subst c
      simp [blanks]
    · simp only [exactly_cons_cons, semicolon, if_false, Option.bind_none]
      split
      next => simp_all
      next => rfl

theorem closing_closed (steady : Steady .statement more n true 0 0 p q) :
    Closing more n (closed p) (closed q) where
  closes {s t x} short found := by
    rw [closed, bind_apply, Option.bind_eq_some_iff] at found
    obtain ⟨⟨y, u⟩, reads, found⟩ := found
    obtain ⟨used, bounded, same⟩ := steady.reads short reads
    rw [bind_apply, symbol_semicolon] at found
    split at found
    next rest semicolon =>
      obtain ⟨rfl, rfl⟩ : y = x ∧ skipBlanks rest = t := by simpa using found
      have shorter := length_skipBlanks u
      -- The semicolon bounds what is left in front of it, and with that the whole text.
      have inside : Bounded 0 u := by
        rw [← bounded_skipBlanks, semicolon]
        exact bounded_here
      rw [semicolon, List.length_cons] at shorter
      refine ⟨rest, rfl, by omega, bounded.mp inside, ?_⟩
      rw [closed, bind_apply, same (bounded.mp inside), Option.bind_some, bind_apply,
        symbol_semicolon, Region.skipBlanks_append inside, semicolon]
      rfl
    next => cases found
  fails {s} short missing inside := by
    rw [closed, bind_apply] at missing ⊢
    cases reads : p s with
    | none => rw [steady.fails short reads inside, Option.bind_none]
    | some found =>
      obtain ⟨x, u⟩ := found
      obtain ⟨used, bounded, same⟩ := steady.reads short reads
      have inside' : Bounded 0 u := bounded.mpr inside
      rw [reads, Option.bind_some, bind_apply, symbol_semicolon] at missing
      rw [same inside, Option.bind_some, bind_apply, symbol_semicolon,
        Region.skipBlanks_append inside']
      -- There is no semicolon behind what was read.  A bounded text has some other character there,
      -- so none comes up with `more` after it.
      split at missing
      next => simp at missing
      next other =>
        cases start : skipBlanks u with
        | nil =>
          rw [← bounded_skipBlanks, start] at inside'
          exact absurd inside' Region.not_inside_nil
        | cons c rest =>
          split
          next more semicolon =>
            rw [List.cons_append, List.cons.injEq] at semicolon
            exact absurd (start.trans (by rw [semicolon.1])) (other rest)
          next => rfl

theorem closing_bind {f g : α → Parser β} (first : Steady .statement more n eats 0 0 p q)
    (second : ∀ x, Closing more n (f x) (g x)) : Closing more n (p >>= f) (q >>= g) where
  closes {s t y} short found := by
    rw [bind_apply, Option.bind_eq_some_iff] at found
    obtain ⟨⟨x, u⟩, reads, found⟩ := found
    obtain ⟨used, bounded, same⟩ := first.reads short reads
    have short' : u.length < n := by omega
    obtain ⟨rest, left, shorter, inside, closes⟩ := (second x).closes short' found
    have shorter' : rest.length < s.length := by omega
    refine ⟨rest, left, shorter', bounded.mp inside, ?_⟩
    rw [bind_apply, same (bounded.mp inside), Option.bind_some, closes]
  fails {s} short missing inside := by
    rw [bind_apply] at missing ⊢
    cases reads : p s with
    | none => rw [first.fails short reads inside, Option.bind_none]
    | some found =>
      obtain ⟨x, u⟩ := found
      obtain ⟨used, bounded, same⟩ := first.reads short reads
      rw [reads, Option.bind_some] at missing
      rw [same inside, Option.bind_some]
      exact (second x).fails (by omega) missing (bounded.mpr inside)

theorem closing_map (f : α → β) (closing : Closing more n p q) :
    Closing more n (p >>= fun x => pure (f x)) (q >>= fun x => pure (f x)) where
  closes {s t y} short found := by
    rw [bind_apply, Option.bind_eq_some_iff] at found
    obtain ⟨⟨x, u⟩, reads, found⟩ := found
    obtain ⟨rfl, rfl⟩ : f x = y ∧ u = t := by simpa using found
    obtain ⟨rest, left, shorter, inside, closes⟩ := closing.closes short reads
    refine ⟨rest, left, shorter, inside, ?_⟩
    rw [bind_apply, closes]
    rfl
  fails {s} short missing inside := by
    rw [bind_apply] at missing ⊢
    cases reads : p s with
    | none => rw [closing.fails short reads inside, Option.bind_none]
    | some found => simp [reads] at missing

theorem closing_firstOf {ps qs : List (Parser α)}
    (closing : List.Forall₂ (Closing more n) ps qs) :
    Closing more n (firstOf ps) (firstOf qs) := by
  induction closing with
  | nil => exact ⟨fun _ found => (by cases found), fun _ _ _ => rfl⟩
  | @cons p q ps qs first _ ih =>
    refine ⟨?_, ?_⟩
    · intro s t x short found
      rw [firstOf_cons_apply] at found
      cases reads : p s with
      | some result =>
        obtain rfl : result = (x, t) := by simpa [reads] using found
        obtain ⟨rest, left, shorter, inside, closes⟩ := first.closes short reads
        exact ⟨rest, left, shorter, inside, by rw [firstOf_cons_apply, closes, Option.some_or]⟩
      | none =>
        -- A form that fails on a bounded text fails with `more` after it, so a later one is still
        -- reached.
        rw [reads, Option.none_or] at found
        obtain ⟨rest, left, shorter, inside, closes⟩ := ih.closes short found
        refine ⟨rest, left, shorter, inside, ?_⟩
        rw [firstOf_cons_apply, first.fails short reads inside, Option.none_or, closes]
    · intro s short missing inside
      rw [firstOf_cons_apply] at missing ⊢
      obtain ⟨firstFails, othersFail⟩ := Option.or_eq_none_iff.mp missing
      rw [first.fails short firstFails inside, ih.fails short othersFail inside, Option.none_or]

end

end IdlTypings.Grammar
