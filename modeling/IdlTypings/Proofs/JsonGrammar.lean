import Mathlib
import IdlTypings.Proofs.JsonText

/-! # The grammar of JSON text

What stands at the start of a text, said without a reader.  A relation of this module takes a text, a
value and the text behind it.

* `Parts` is a row of parts with commas between them and blanks around them, `Enclosed` such a row
  between two marks, `EntryAt` a key with its value.
* `ValueAt levels` is a value whose arrays and objects nest at most so many levels.
* `Holds` is a whole text: one value, and blanks around it.

The readers agree with the relations: `array_ok_iff` and `object_ok_iff` for every step that reads
one part at a time, and from them `value_ok_iff`.
-/

namespace IdlTypings.Json

variable {α σ : Type} {s t : List Char}

/-- A text behind its blanks. -/
def solid (s : List Char) : List Char :=
  s.dropWhile Reader.isBlank

/-! ## Relations -/

/-- Parts with commas between them, up to a closing mark. -/
inductive Parts (part : List Char → α → List Char → Prop) (close : Char) :
    List Char → List α → List Char → Prop where
  | last {s t rest : List Char} {x : α} (reads : part (solid s) x t)
      (ends : solid t = close :: rest) : Parts part close s [x] rest
  | more {s t u rest : List Char} {x : α} {xs : List α} (reads : part (solid s) x t)
      (comma : solid t = ',' :: u) (others : Parts part close u xs rest) :
      Parts part close s (x :: xs) rest

/-- Any number of parts between two marks. -/
inductive Enclosed (part : List Char → α → List Char → Prop) (opening close : Char) :
    List Char → List α → List Char → Prop where
  | none {s rest : List Char} (ends : solid s = close :: rest) :
      Enclosed part opening close (opening :: s) [] rest
  | some {s rest : List Char} {xs : List α} (parts : Parts part close s xs rest) :
      Enclosed part opening close (opening :: s) xs rest

/-- A colon, and a part behind it. -/
def ColonAt (part : List Char → α → List Char → Prop) (s : List Char) (x : α) (t : List Char) :
    Prop :=
  ∃ u, solid s = ':' :: u ∧ part (solid u) x t

/-- A key, a colon and a value. -/
def EntryAt (value : List Char → Json → List Char → Prop) (s : List Char)
    (entry : String × Json) (t : List Char) : Prop :=
  ∃ u, Reader.stringText s = some (entry.1, u) ∧ ColonAt value u entry.2 t

/-- A value without parts. -/
inductive ScalarAt : List Char → Json → List Char → Prop where
  | null {t : List Char} : ScalarAt ("null".toList ++ t) .null t
  | bool {t : List Char} (b : Bool) : ScalarAt ((if b then "true" else "false").toList ++ t) (.bool b) t
  | string {s t : List Char} {text : String} (reads : Reader.stringText s = some (text, t)) :
      ScalarAt s (.string text) t
  | number {s t : List Char} {n : Number} (reads : numberText s = some (n, t)) :
      ScalarAt s (.number n) t

/-- A value that nests at most the given number of levels. -/
def ValueAt : (levels : Nat) → List Char → Json → List Char → Prop
  | levels + 1, s, .array items, t => Enclosed (ValueAt levels) '[' ']' s items t
  | levels + 1, s, .object entries, t => Enclosed (EntryAt (ValueAt levels)) '\x7b' '\x7d' s entries t
  | _, s, value, t => ScalarAt s value t

/-- A text that holds a value and nothing else. -/
def Holds (text : List Char) (value : Json) : Prop :=
  ∃ rest, ValueAt Reader.maxDepth (solid text) value rest ∧ solid rest = []

/-! ## Texts get shorter -/

/-- A parser that leaves no longer text than it was given. -/
def Shrinks (p : Parser α) : Prop :=
  ∀ ⦃s t : List Char⦄ ⦃x : α⦄, p s = some (x, t) → t.length ≤ s.length

section

variable {β : Type} {p q : Parser α}

theorem shrinks_pure (x : α) : Shrinks (pure x) := by
  intro s t y found
  cases found
  exact Nat.le_refl _

theorem shrinks_failure : Shrinks (failure : Parser α) := by
  intro s t x found
  cases found

theorem shrinks_bind {f : α → Parser β} (first : Shrinks p) (second : ∀ x, Shrinks (f x)) :
    Shrinks (p >>= f) := by
  intro s u y found
  rw [Parser.bind_apply, Option.bind_eq_some_iff] at found
  obtain ⟨⟨x, t⟩, reads, others⟩ := found
  exact Nat.le_trans (second x others) (first reads)

theorem shrinks_orElse (first : Shrinks p) (second : Shrinks q) : Shrinks (p <|> q) := by
  intro s t x found
  rw [Parser.orElse_apply, Option.or_eq_some_iff] at found
  rcases found with found | ⟨-, found⟩
  · exact first found
  · exact second found

theorem shrinks_satisfy (test : Char → Bool) : Shrinks (Parser.satisfy test) := by
  intro s t x found
  cases s with
  | nil => cases found
  | cons c s =>
    rw [Parser.satisfy_cons] at found
    split at found
    next =>
      cases found
      exact Nat.le_succ _
    next => cases found

theorem shrinks_exactly (cs : List Char) : Shrinks (Parser.exactly cs) := by
  intro s t x found
  rw [Parser.eq_append_of_exactly found, List.length_append]
  exact Nat.le_add_left _ _

theorem shrinks_takeWhile1 (test : Char → Bool) : Shrinks (Parser.takeWhile1 test) := by
  intro s t x found
  rw [(Parser.eq_append_of_takeWhile1 found).1, List.length_append]
  exact Nat.le_add_left _ _

theorem shrinks_notFollowedBy (test : Char → Bool) : Shrinks (Parser.notFollowedBy test) := by
  intro s t x found
  cases s with
  | nil =>
    cases found
    exact Nat.le_refl _
  | cons c s =>
    rw [Parser.notFollowedBy] at found
    split at found
    next => cases found
    next =>
      cases found
      exact Nat.le_refl _

theorem shrinks_present (shrinks : Shrinks p) : Shrinks (Parser.present p) :=
  shrinks_orElse (shrinks_bind shrinks fun _ => shrinks_pure _) (shrinks_pure _)

theorem shrinks_map (f : α → β) (shrinks : Shrinks p) : Shrinks (f <$> p) :=
  shrinks_bind shrinks fun _ => shrinks_pure _

theorem shrinks_manyWithin (shrinks : Shrinks p) (bound : List Char) :
    Shrinks (Parser.manyWithin p bound) := by
  induction bound with
  | nil => exact shrinks_pure []
  | cons _ bound ih =>
    exact shrinks_orElse (shrinks_bind shrinks fun _ => shrinks_bind ih fun _ => shrinks_pure _)
      (shrinks_pure [])

theorem shrinks_hexUnit : Shrinks Reader.hexUnit := by
  intro s t x found
  match s with
  | a :: b :: c :: d :: rest =>
    simp only [Reader.hexUnit, Option.bind_eq_bind, Option.bind_eq_some_iff] at found
    obtain ⟨_, -, _, -, _, -, _, -, same⟩ := found
    cases same
    simp only [List.length_cons]
    omega

theorem shrinks_unicodeEscape : Shrinks Reader.unicodeEscape := by
  refine shrinks_bind shrinks_hexUnit fun unit => ?_
  split_ifs
  · refine shrinks_bind (shrinks_exactly _) fun _ => shrinks_bind shrinks_hexUnit fun low => ?_
    split_ifs
    · exact shrinks_pure _
    · exact shrinks_failure
  · exact shrinks_failure
  · exact shrinks_pure _

theorem shrinks_stringChar : Shrinks Reader.stringChar := by
  refine shrinks_orElse (shrinks_bind (shrinks_exactly _) fun _ => ?_) (shrinks_satisfy _)
  refine shrinks_bind (shrinks_satisfy _) fun c => ?_
  split
  case h_9 => exact shrinks_unicodeEscape
  case h_10 => exact shrinks_failure
  all_goals exact shrinks_pure _

theorem shrinks_stringText : Shrinks Reader.stringText :=
  shrinks_bind (shrinks_exactly _) fun _ =>
  shrinks_bind (fun _ _ _ found => shrinks_manyWithin shrinks_stringChar _ found) fun _ =>
  shrinks_bind (shrinks_exactly _) fun _ =>
  shrinks_pure _

theorem shrinks_wholeDigits : Shrinks wholeDigits := by
  refine shrinks_bind (shrinks_takeWhile1 _) fun digits => ?_
  split_ifs
  · exact shrinks_failure
  · exact shrinks_pure digits

theorem shrinks_exponentPart : Shrinks exponentPart := by
  have sign : Shrinks ((do Parser.exactly ['-']; return true) <|>
      (do Parser.exactly ['+']; return false) <|> pure false : Parser Bool) :=
    shrinks_orElse (shrinks_bind (shrinks_exactly _) fun _ => shrinks_pure _) <|
    shrinks_orElse (shrinks_bind (shrinks_exactly _) fun _ => shrinks_pure _) (shrinks_pure _)
  exact shrinks_bind (shrinks_satisfy _) fun _ =>
    shrinks_bind sign fun _ =>
    shrinks_bind (shrinks_takeWhile1 _) fun _ =>
    shrinks_pure _

theorem shrinks_numeral : Shrinks numeral := by
  have exponent : Shrinks ((some <$> exponentPart) <|> (do
      Parser.notFollowedBy (fun c => c == 'e' || c == 'E')
      return none) : Parser (Option (Bool × List Char))) :=
    shrinks_orElse (shrinks_map _ shrinks_exponentPart)
      (shrinks_bind (shrinks_notFollowedBy _) fun _ => shrinks_pure _)
  refine shrinks_bind (shrinks_present (shrinks_exactly _)) fun _ =>
    shrinks_bind shrinks_wholeDigits fun _ =>
    shrinks_bind (shrinks_present (shrinks_exactly _)) fun pointed => ?_
  cases pointed with
  | true =>
    exact shrinks_bind (shrinks_map _ (shrinks_takeWhile1 _)) fun _ =>
      shrinks_bind exponent fun _ => shrinks_pure _
  | false =>
    exact shrinks_bind (shrinks_pure _) fun _ => shrinks_bind exponent fun _ => shrinks_pure _

theorem shrinks_numberText : Shrinks numberText := by
  refine shrinks_bind shrinks_numeral fun n => ?_
  intro s t x found
  change (n.value.bind fun value => some (value, s)) = some (x, t) at found
  obtain ⟨value, -, same⟩ := Option.bind_eq_some_iff.mp found
  cases same
  exact Nat.le_refl _

end

theorem length_solid (s : List Char) : (solid s).length ≤ s.length :=
  (List.dropWhile_suffix _).length_le

theorem ScalarAt.length_le {value : Json} (stands : ScalarAt s value t) : t.length ≤ s.length := by
  cases stands with
  | null | bool b =>
    rw [List.length_append]
    exact Nat.le_add_left _ _
  | string reads => exact shrinks_stringText reads
  | number reads => exact shrinks_numberText reads

section

variable {part : List Char → α → List Char → Prop}
  (shrinks : ∀ {s t : List Char} {x : α}, part s x t → t.length ≤ s.length)

include shrinks

theorem Parts.length_lt {close : Char} {xs : List α} (parts : Parts part close s xs t) :
    t.length < s.length := by
  induction parts with
  | @last s t rest x reads ends =>
    have first := length_solid s
    have second := length_solid t
    have shorter := shrinks reads
    rw [ends, List.length_cons] at second
    omega
  | @more s t u rest x xs reads comma _ ih =>
    have first := length_solid s
    have second := length_solid t
    have shorter := shrinks reads
    rw [comma, List.length_cons] at second
    omega

theorem Enclosed.length_le {opening close : Char} {xs : List α}
    (enclosed : Enclosed part opening close s xs t) : t.length ≤ s.length := by
  cases enclosed with
  | @none s _ ends =>
    have shorter := length_solid s
    rw [ends, List.length_cons] at shorter
    rw [List.length_cons]
    omega
  | some parts =>
    have shorter := parts.length_lt shrinks
    rw [List.length_cons]
    omega

theorem ColonAt.length_le {x : α} (stands : ColonAt part s x t) : t.length ≤ s.length := by
  obtain ⟨u, colon, reads⟩ := stands
  have first := length_solid s
  have second := length_solid u
  have shorter := shrinks reads
  rw [colon, List.length_cons] at first
  omega

end

theorem Enclosed.head {part : List Char → α → List Char → Prop} {opening close : Char} {xs : List α}
    (enclosed : Enclosed part opening close s xs t) :
    s.head? = Option.some opening := by
  cases enclosed <;> rfl

theorem EntryAt.length_le {value : List Char → Json → List Char → Prop}
    (shrinks : ∀ {s t : List Char} {x : Json}, value s x t → t.length ≤ s.length)
    {entry : String × Json} (stands : EntryAt value s entry t) : t.length ≤ s.length := by
  obtain ⟨u, key, colon⟩ := stands
  exact Nat.le_trans (colon.length_le shrinks) (shrinks_stringText key)

theorem parts_solid {part : List Char → α → List Char → Prop} {close : Char} {xs : List α} :
    Parts part close (solid s) xs t ↔ Parts part close s xs t := by
  have twice : solid (solid s) = solid s := List.dropWhile_idempotent ..
  constructor
  · intro parts
    cases parts with
    | last reads ends => exact .last (twice ▸ reads) ends
    | more reads comma others => exact .more (twice ▸ reads) comma others
  · intro parts
    cases parts with
    | last reads ends => exact .last (twice.symm ▸ reads) ends
    | more reads comma others => exact .more (twice.symm ▸ reads) comma others

theorem valueAt_zero {value : Json} : ValueAt 0 s value t ↔ ScalarAt s value t := by
  cases value <;> rfl

theorem ScalarAt.valueAt {value : Json} (stands : ScalarAt s value t) (levels : Nat) :
    ValueAt levels s value t := by
  cases levels with
  | zero => exact valueAt_zero.mpr stands
  | succ levels =>
    cases value with
    | array items | object entries => cases stands
    | null | bool _ | number _ | string _ => exact stands

theorem ValueAt.length_le {levels : Nat} {value : Json} (stands : ValueAt levels s value t) :
    t.length ≤ s.length := by
  induction levels generalizing s value t with
  | zero => exact (valueAt_zero.mp stands).length_le
  | succ levels ih =>
    cases value with
    | array items => exact Enclosed.length_le ih stands
    | object entries => exact Enclosed.length_le (EntryAt.length_le ih) stands
    | null | bool _ | number _ | string _ => exact ScalarAt.length_le stands

/-! ## Readers -/

namespace Reader

variable {β : Type}

theorem bind_ok_iff {r : Reader α} {f : α → Reader β} {y : β} :
    (r >>= f) s = .ok (y, t) ↔ ∃ x u, r s = .ok (x, u) ∧ f x u = .ok (y, t) := by
  rw [bind_apply]
  cases r s with
  | error fault => simp [Except.bind]
  | ok found =>
    obtain ⟨x, u⟩ := found
    simp [Except.bind]

theorem ofParser_ok_iff {p : Parser α} {x : α} :
    ofParser p s = .ok (x, t) ↔ p s = some (x, t) := by
  rw [ofParser]
  cases p s with
  | none => simp
  | some found => simp

theorem afterColon_ok_iff {reader : Reader α} {x : α} :
    afterColon reader s = .ok (x, t) ↔ ColonAt (fun s x t => reader s = .ok (x, t)) s x t := by
  rw [afterColon, bind_ok (r := blanks) rfl, bind_ok_iff]
  constructor
  · rintro ⟨_, u, colon, others⟩
    rw [ofParser_ok_iff] at colon
    rw [bind_ok (r := blanks) rfl] at others
    exact ⟨u, Parser.eq_append_of_exactly colon, others⟩
  · rintro ⟨u, colon, reads⟩
    refine ⟨(), u, ?_, ?_⟩
    · change ofParser _ (solid s) = _
      rw [colon, ofParser_ok_iff]
      simp
    · rw [bind_ok (r := blanks) rfl]
      exact reads

section

variable {part : List Char → α → List Char → Prop} {f : σ → α → Except Fault σ}
  {state state' : σ}

/-- Behind a part comes a comma, and with it the next part, or the closing mark. -/
theorem next_ok_iff (close : Char) {again : Reader σ} {go : Option Char → Reader σ}
    (comma : go (some ',') = again) (ends : go (some close) = pure state)
    (other : ∀ c, c ≠ some ',' → c ≠ some close → go c = throw .malformed) (notComma : close ≠ ',') :
    (blanks >>= fun _ => next >>= go) s = .ok (state', t) ↔
      (∃ u, solid s = ',' :: u ∧ again u = .ok (state', t)) ∨
        (solid s = close :: t ∧ state = state') := by
  have refused (c : Option Char) (u : List Char) (notComma' : c ≠ some ',')
      (notClose : c ≠ some close) : go c u ≠ .ok (state', t) := by
    rw [other c notComma' notClose]
    intro found
    cases found
  rw [bind_ok (r := blanks) rfl, bind_ok (r := next) rfl]
  change go (solid s).head? (solid s).tail = _ ↔ _
  -- The text has ended, or a comma, the closing mark or something else comes next.
  cases solid s with
  | nil => simpa using refused none [] (by simp) (by simp)
  | cons c u =>
    rw [List.head?_cons, List.tail_cons]
    by_cases isComma : c = ','
    · subst isComma
      simp [comma, notComma.symm]
    · by_cases isClose : c = close
      · subst isClose
        simp only [ends, pure_apply, Except.ok.injEq, Prod.mk.injEq, List.cons.injEq, notComma,
          false_and, exists_false, false_or, true_and]
        exact and_comm
      · simpa [isComma, isClose] using refused (some c) u (by simpa using isComma) (by simpa using isClose)

theorem foldlM_cons_ok_iff {x : α} {xs : List α} :
    (x :: xs).foldlM f state = .ok state' ↔
      ∃ middle, f state x = .ok middle ∧ xs.foldlM f middle = .ok state' := by
  rw [List.foldlM_cons]
  cases f state x with
  | error fault => simp [bind, Except.bind]
  | ok middle => simp [bind, Except.bind]

/-- A loop that reads a part in each round, up to a closing mark, reads a row of parts. -/
theorem loop_ok_iff {loop : List Char → σ → Reader σ} {close : Char}
    (stops : ∀ state s, loop [] state s = .error .malformed)
    (round : ∀ {b bound state s state' t}, loop (b :: bound) state s = .ok (state', t) ↔
      ∃ middle u, (∃ x, part (solid s) x u ∧ f state x = .ok middle) ∧
        ((∃ v, solid u = ',' :: v ∧ loop bound middle v = .ok (state', t)) ∨
          (solid u = close :: t ∧ middle = state')))
    (shrinks : ∀ {s t x}, part s x t → t.length ≤ s.length) {bound : List Char}
    (enough : s.length ≤ bound.length) :
    loop bound state s = .ok (state', t) ↔
      ∃ xs, Parts part close s xs t ∧ xs.foldlM f state = .ok state' := by
  induction bound generalizing s state with
  | nil =>
    constructor
    · intro found
      rw [stops] at found
      cases found
    · rintro ⟨xs, parts, -⟩
      have shorter := parts.length_lt shrinks
      simp only [List.length_nil] at enough
      omega
  | cons b bound ih =>
    -- Every part is followed by a mark, so the text behind a comma is shorter.
    have rest {x : α} {u v : List Char} (reads : part (solid s) x u) (comma : solid u = ',' :: v) :
        v.length ≤ bound.length := by
      have first := length_solid s
      have second := length_solid u
      have shorter := shrinks reads
      rw [comma, List.length_cons] at second
      rw [List.length_cons] at enough
      omega
    rw [round]
    constructor
    · rintro ⟨middle, u, ⟨x, reads, taken⟩, ⟨v, comma, others⟩ | ⟨ends, rfl⟩⟩
      · obtain ⟨xs, parts, folded⟩ := (ih (rest reads comma)).mp others
        exact ⟨x :: xs, .more reads comma parts, foldlM_cons_ok_iff.mpr ⟨middle, taken, folded⟩⟩
      · exact ⟨[x], .last reads ends, foldlM_cons_ok_iff.mpr ⟨middle, taken, rfl⟩⟩
    · rintro ⟨xs, parts, folded⟩
      cases parts with
      | @last _ u _ x reads ends =>
        obtain ⟨middle, taken, done⟩ := foldlM_cons_ok_iff.mp folded
        cases done
        exact ⟨state', u, ⟨x, reads, taken⟩, .inr ⟨ends, rfl⟩⟩
      | @more _ u v _ x xs reads comma others =>
        obtain ⟨middle, taken, folded⟩ := foldlM_cons_ok_iff.mp folded
        exact ⟨middle, u, ⟨x, reads, taken⟩,
          .inl ⟨v, comma, (ih (rest reads comma)).mpr ⟨xs, others, folded⟩⟩⟩

/-- Behind an opening mark there is the closing mark or a row of parts. -/
theorem opened_ok_iff {loop : List Char → σ → Reader σ} (opening : Char) {close : Char}
    (rows : ∀ {s t}, loop s state s = .ok (state', t) ↔
      ∃ xs, Parts part close s xs t ∧ xs.foldlM f state = .ok state')
    (noPart : ∀ {s t x}, ¬ part (close :: s) x t) :
    (do
      blanks
      if (← peek) == some close then
        let _ ← next
        return state
      else
        loop (← get) state : Reader σ) s = .ok (state', t) ↔
      ∃ xs, Enclosed part opening close (opening :: s) xs t ∧ xs.foldlM f state = .ok state' := by
  rw [bind_ok (r := blanks) rfl, bind_ok (r := peek) rfl]
  change (if (solid s).head? == some close then
      next >>= fun _ => pure state
    else get >>= fun text => loop text state : Reader σ) (solid s) = _ ↔ _
  -- The closing mark is looked for first.  No part begins with it, so none is missed.
  by_cases closed : ∃ u, solid s = close :: u
  · obtain ⟨u, closed⟩ := closed
    rw [closed, if_pos (by simp)]
    change Except.ok (state, u) = _ ↔ _
    constructor
    · intro same
      cases same
      exact ⟨[], .none closed, rfl⟩
    · rintro ⟨xs, enclosed, folded⟩
      cases enclosed with
      | none ends =>
        cases folded
        rw [(List.cons.inj (closed.symm.trans ends)).2]
      | some parts =>
        cases parts with
        | last reads _ | more reads _ _ => exact absurd (closed ▸ reads) noPart
  · have notClosed : ((solid s).head? == some close) = false := by
      cases text : solid s with
      | nil => rfl
      | cons c u => simpa using fun same => closed ⟨u, by rw [text, same]⟩
    rw [notClosed, if_neg (by simp), bind_ok (r := get) rfl, rows]
    refine exists_congr fun xs => and_congr_left fun _ => ?_
    rw [parts_solid]
    constructor
    · exact .some
    · intro enclosed
      cases enclosed with
      | none ends => exact absurd ⟨_, ends⟩ closed
      | some parts => exact parts

/-- Between two marks there is nothing or a row of parts. -/
theorem enclosed_ok_iff {loop : List Char → σ → Reader σ} {opening close : Char}
    (rows : ∀ {s t}, loop s state s = .ok (state', t) ↔
      ∃ xs, Parts part close s xs t ∧ xs.foldlM f state = .ok state')
    (noPart : ∀ {s t x}, ¬ part (close :: s) x t) :
    (do
      ofParser (Parser.exactly [opening])
      blanks
      if (← peek) == some close then
        let _ ← next
        return state
      else
        loop (← get) state : Reader σ) s = .ok (state', t) ↔
      ∃ xs, Enclosed part opening close s xs t ∧ xs.foldlM f state = .ok state' := by
  rw [bind_ok_iff]
  constructor
  · rintro ⟨_, u, opens, others⟩
    rw [ofParser_ok_iff] at opens
    rw [Parser.eq_append_of_exactly opens]
    exact (opened_ok_iff opening rows noPart).mp others
  · rintro ⟨xs, enclosed, folded⟩
    cases enclosed with
    | @none u _ ends =>
      exact ⟨(), u, mark_cons opening u,
        (opened_ok_iff opening rows noPart).mpr ⟨[], .none ends, folded⟩⟩
    | @some u _ _ parts =>
      exact ⟨(), u, mark_cons opening u,
        (opened_ok_iff opening rows noPart).mpr ⟨xs, .some parts, folded⟩⟩

/-- An array is read when its items stand there and each of them is taken. -/
theorem array_ok_iff (part : List Char → α → List Char → Prop) (f : σ → α → Except Fault σ)
    {step : σ → Reader σ}
    (steps : ∀ {state state' s t}, step state s = .ok (state', t) ↔
      ∃ x, part s x t ∧ f state x = .ok state')
    (shrinks : ∀ {s t x}, part s x t → t.length ≤ s.length)
    (noPart : ∀ {s t x}, ¬ part (']' :: s) x t) :
    array step state s = .ok (state', t) ↔
      ∃ xs, Enclosed part '[' ']' s xs t ∧ xs.foldlM f state = .ok state' := by
  refine enclosed_ok_iff (fun {s t} => loop_ok_iff (fun _ _ => rfl) ?_ shrinks (Nat.le_refl _)) noPart
  intro b bound state s state' t
  rw [items, bind_ok (r := blanks) rfl, bind_ok_iff]
  refine exists_congr fun middle => exists_congr fun u => and_congr steps ?_
  refine next_ok_iff ']' rfl rfl (fun c notComma notClose => ?_) (by decide)
  split
  · exact absurd rfl notComma
  · exact absurd rfl notClose
  · rfl

end

/-- An object is read when its entries stand there and each of them is taken. -/
theorem object_ok_iff (value : List Char → Json → List Char → Prop)
    (f : σ → String × Json → Except Fault σ) {state state' : σ} {step : σ → String → Reader σ}
    (steps : ∀ {state key state' s t}, step state key s = .ok (state', t) ↔
      ∃ x, ColonAt value s x t ∧ f state (key, x) = .ok state')
    (shrinks : ∀ {s t x}, value s x t → t.length ≤ s.length) :
    object step state s = .ok (state', t) ↔
      ∃ xs, Enclosed (EntryAt value) '\x7b' '\x7d' s xs t ∧ xs.foldlM f state = .ok state' := by
  have noEntry {s t : List Char} {entry : String × Json} : ¬ EntryAt value ('\x7d' :: s) entry t := by
    rintro ⟨u, key, -⟩
    simp [stringText] at key
  refine enclosed_ok_iff
    (fun {s t} => loop_ok_iff (fun _ _ => rfl) ?_ (EntryAt.length_le shrinks) (Nat.le_refl _)) noEntry
  intro b bound state s state' t
  rw [entries, bind_ok (r := blanks) rfl, bind_ok_iff]
  refine Iff.trans (exists_congr fun key => exists_congr fun w => and_congr ofParser_ok_iff <|
    Iff.trans bind_ok_iff <| exists_congr fun middle => exists_congr fun u => and_congr steps <|
      next_ok_iff '\x7d' rfl rfl ?_ (by decide)) ?_
  · intro c notComma notClose
    split
    · exact absurd rfl notComma
    · exact absurd rfl notClose
    · rfl
  · constructor
    · rintro ⟨key, w, reads, middle, u, ⟨x, colon, taken⟩, others⟩
      exact ⟨middle, u, ⟨(key, x), ⟨w, reads, colon⟩, taken⟩, others⟩
    · rintro ⟨middle, u, ⟨⟨key, x⟩, ⟨w, reads, colon⟩, taken⟩, others⟩
      exact ⟨key, w, reads, middle, u, ⟨x, colon, taken⟩, others⟩

/-! ### Values -/

theorem stringText_head {text : String} (reads : stringText s = some (text, t)) :
    ∃ body, s = '\"' :: body := by
  cases s with
  | nil => simp [stringText] at reads
  | cons c body =>
    by_cases quote : '\"' = c
    · exact ⟨body, by rw [quote]⟩
    · simp [stringText, quote] at reads

theorem numberText_head {n : Number} (reads : numberText s = some (n, t)) :
    ∃ c body, s = c :: body ∧ (c = '-' ∨ c.isDigit = true) := by
  cases s with
  | nil => simp [numberText, numeral, wholeDigits, Parser.takeWhile1] at reads
  | cons c body =>
    refine ⟨c, body, rfl, ?_⟩
    by_contra other
    rw [not_or] at other
    have sign : '-' ≠ c := Ne.symm other.1
    simp [numberText, numeral, wholeDigits, Parser.takeWhile1, isDigit, sign, other.2] at reads

theorem word_some {word : List Char} {x value : Json}
    (found : (do Parser.exactly word; return x : Parser Json) s = some (value, t)) :
    x = value ∧ s = word ++ t := by
  rw [Parser.bind_apply, Option.bind_eq_some_iff] at found
  obtain ⟨_, reads, same⟩ := found
  cases same
  exact ⟨rfl, Parser.eq_append_of_exactly reads⟩

theorem scalar_ok_iff {value : Json} : scalar s = .ok (value, t) ↔ ScalarAt s value t := by
  rw [scalar, ofParser_ok_iff]
  constructor
  · intro found
    simp only [Parser.orElse_apply, Option.or_eq_some_iff] at found
    rcases found with null | ⟨-, yes | ⟨-, no | ⟨-, text | ⟨-, number⟩⟩⟩⟩
    · obtain ⟨rfl, rfl⟩ := word_some null
      exact .null
    · obtain ⟨rfl, rfl⟩ := word_some yes
      exact .bool true
    · obtain ⟨rfl, rfl⟩ := word_some no
      exact .bool false
    · obtain ⟨_, reads, same⟩ := Option.map_eq_some_iff.mp (Parser.map_apply .. ▸ text)
      cases same
      exact .string reads
    · obtain ⟨_, reads, same⟩ := Option.map_eq_some_iff.mp (Parser.map_apply .. ▸ number)
      cases same
      exact .number reads
  · intro stands
    cases stands with
    | null => simp
    | bool b => cases b <;> simp
    | string reads =>
      obtain ⟨body, rfl⟩ := stringText_head reads
      simp [reads]
    | number reads =>
      obtain ⟨c, body, rfl, first⟩ := numberText_head reads
      -- The alternatives before this one begin with characters that no number begins with.
      have noDigits : ['n', 't', 'f', '\"'].all (fun d => d != '-' && !d.isDigit) = true := by decide
      have other : ∀ d ∈ ['n', 't', 'f', '\"'], d ≠ c := by
        rintro d member rfl
        have noDigit := List.all_eq_true.mp noDigits d member
        rcases first with rfl | digit
        · simp at noDigit
        · simp [digit] at noDigit
      simp [stringText, other, reads]

theorem not_scalarAt {fault : Fault} (fails : scalar s = .error fault) {value : Json} :
    ¬ ScalarAt s value t := by
  intro stands
  rw [scalar_ok_iff.mpr stands] at fails
  cases fails

theorem not_valueAt_close {levels : Nat} {value : Json} : ¬ ValueAt levels (']' :: s) value t := by
  have fails : scalar (']' :: s) = .error .malformed :=
    ofParser_none
      (by simp [stringText, numberText, numeral, wholeDigits, Parser.takeWhile1, isDigit])
  intro stands
  cases levels with
  | zero => exact not_scalarAt fails (valueAt_zero.mp stands)
  | succ levels =>
    cases value with
    | array items | object entries => cases stands
    | null | bool _ | number _ | string _ => exact not_scalarAt fails stands

theorem foldlM_gather_all (xs gathered : List α) :
    xs.foldlM (fun gathered x => (.ok (x :: gathered) : Except Fault (List α))) gathered =
      .ok (xs.reverse ++ gathered) := by
  simpa using foldlM_fitting (fun _ => True) .malformed xs gathered

/-- An array of which every item is read by itself. -/
theorem gather_ok_iff (part : List Char → α → List Char → Prop) {item : Reader α}
    (reads : ∀ {s t x}, item s = .ok (x, t) ↔ part s x t)
    (shrinks : ∀ {s t x}, part s x t → t.length ≤ s.length)
    (noPart : ∀ {s t x}, ¬ part (']' :: s) x t) {xs : List α} :
    array (fun gathered => return (← item) :: gathered) [] s = .ok (xs, t) ↔
      Enclosed part '[' ']' s xs.reverse t := by
  rw [array_ok_iff part (fun gathered x => .ok (x :: gathered)) ?_ shrinks noPart]
  · simp only [foldlM_gather_all, List.append_nil, Except.ok.injEq, List.reverse_eq_iff]
    simp
  · intro gathered gathered' s t
    rw [bind_ok_iff]
    constructor
    · rintro ⟨x, u, taken, same⟩
      cases same
      exact ⟨x, reads.mp taken, rfl⟩
    · rintro ⟨x, stands, same⟩
      cases same
      exact ⟨x, t, reads.mpr stands, rfl⟩

theorem map_ok_iff {r : Except Fault α} {g : α → β} {y : β} :
    r.map g = .ok y ↔ ∃ x, r = .ok x ∧ g x = y := by
  cases r <;> simp [Except.map]

/-- An object of which every entry is read by itself. -/
theorem gatherEntries_ok_iff (value : List Char → Json → List Char → Prop) {item : Reader Json}
    (reads : ∀ {s t x}, item s = .ok (x, t) ↔ value s x t)
    (shrinks : ∀ {s t x}, value s x t → t.length ≤ s.length) {xs : List (String × Json)} :
    object (fun entries key => do
      let item ← afterColon item
      return (key, item) :: entries) [] s = .ok (xs, t) ↔
      Enclosed (EntryAt value) '\x7b' '\x7d' s xs.reverse t := by
  rw [object_ok_iff value (fun entries entry => .ok (entry :: entries)) ?_ shrinks]
  · simp only [foldlM_gather_all, List.append_nil, Except.ok.injEq, List.reverse_eq_iff]
    simp
  · intro entries key entries' s t
    simp only [bind_ok_iff, afterColon_ok_iff, reads]
    constructor
    · rintro ⟨x, u, stands, same⟩
      cases same
      exact ⟨x, stands, rfl⟩
    · rintro ⟨x, stands, same⟩
      cases same
      exact ⟨x, t, stands, rfl⟩

/-- A reader that looks whether an array, an object or something else comes next. -/
theorem peek_ok_iff {go : Option Char → Reader α} {onArray onObject otherwise : Reader α}
    (bracket : go (some '[') = onArray) (brace : go (some '\x7b') = onObject)
    (rest : ∀ c, c ≠ some '[' → c ≠ some '\x7b' → go c = otherwise) {x : α} :
    (peek >>= go) s = .ok (x, t) ↔
      (s.head? = some '[' ∧ onArray s = .ok (x, t)) ∨
        (s.head? = some '\x7b' ∧ onObject s = .ok (x, t)) ∨
          (s.head? ≠ some '[' ∧ s.head? ≠ some '\x7b' ∧ otherwise s = .ok (x, t)) := by
  rw [bind_ok (r := peek) rfl]
  by_cases isArray : s.head? = some '['
  · simp [isArray, bracket]
  · by_cases isObject : s.head? = some '\x7b'
    · simp [isObject, brace]
    · simp [isArray, isObject, rest _ isArray isObject]

theorem throw_not_ok {fault : Fault} {x : α} : (throw fault : Reader α) s ≠ .ok (x, t) := by
  intro found
  cases found

theorem scalarAt_head {value : Json} (stands : ScalarAt s value t) :
    s.head? ≠ some '[' ∧ s.head? ≠ some '\x7b' := by
  cases s with
  | nil => simp
  | cons c body =>
    constructor
    · intro isArray
      cases isArray
      exact not_scalarAt (scalar_bracket (.inl rfl) body) stands
    · intro isObject
      cases isObject
      exact not_scalarAt (scalar_bracket (.inr rfl) body) stands

/-- A value is read exactly where it stands. -/
theorem value_ok_iff {levels : Nat} {value : Json} :
    Reader.value levels s = .ok (value, t) ↔ ValueAt levels s value t := by
  induction levels generalizing s value t with
  | zero => exact scalar_ok_iff.trans valueAt_zero.symm
  | succ levels ih =>
    rw [Reader.value, peek_ok_iff rfl rfl
      (fun c notArray notObject => by split <;> [contradiction; contradiction; rfl])]
    constructor
    · rintro (⟨-, reads⟩ | ⟨-, reads⟩ | ⟨-, -, reads⟩)
      · obtain ⟨xs, u, found, same⟩ := bind_ok_iff.mp reads
        cases same
        exact (gather_ok_iff (ValueAt levels) ih ValueAt.length_le not_valueAt_close).mp found
      · obtain ⟨xs, u, found, same⟩ := bind_ok_iff.mp reads
        cases same
        exact (gatherEntries_ok_iff (ValueAt levels) ih ValueAt.length_le).mp found
      · exact (scalar_ok_iff.mp reads).valueAt _
    · intro stands
      cases value with
      -- The loops gather the parts in reverse.
      | array ys =>
        refine .inl ⟨Enclosed.head stands, bind_ok_iff.mpr ⟨ys.reverse, t, ?_, ?_⟩⟩
        · rw [gather_ok_iff (ValueAt levels) ih ValueAt.length_le not_valueAt_close,
            List.reverse_reverse]
          exact stands
        · rw [List.reverse_reverse]
          rfl
      | object ys =>
        refine .inr (.inl ⟨Enclosed.head stands, bind_ok_iff.mpr ⟨ys.reverse, t, ?_, ?_⟩⟩)
        · rw [gatherEntries_ok_iff (ValueAt levels) ih ValueAt.length_le, List.reverse_reverse]
          exact stands
        · rw [List.reverse_reverse]
          rfl
      | null | bool _ | number _ | string _ =>
        have opens := scalarAt_head stands
        exact .inr (.inr ⟨opens.1, opens.2, scalar_ok_iff.mpr stands⟩)

end Reader

/-- A text holds one value. -/
theorem Holds.unique {text : List Char} {value value' : Json} (holds : Holds text value)
    (holds' : Holds text value') : value = value' := by
  obtain ⟨rest, stands, -⟩ := holds
  obtain ⟨rest', stands', -⟩ := holds'
  cases (Reader.value_ok_iff.mpr stands).symm.trans (Reader.value_ok_iff.mpr stands')
  rfl

end IdlTypings.Json
