import Mathlib
import IdlTypings.Text.Parser

/-! # How parsers run

Equations that run a parser on a text one combinator at a time, so that the proofs about a grammar
never open the state monad:

* sequencing, choice and mapping, `bind_apply`, `orElse_apply`, `map_apply`;
* the readers of characters on a text whose start is known;
* `Rounds`, what a repetition does as a relation between texts, with `many_of_rounds` and
  `sepBy1_of_rounds`, which bring it back to the bounded loop.
-/

namespace IdlTypings.Parser

variable {α β : Type}

/-! ## Combinators -/

@[simp] theorem pure_apply (x : α) (s : List Char) : (pure x : Parser α) s = some (x, s) := rfl

@[simp] theorem bind_apply (p : Parser α) (f : α → Parser β) (s : List Char) :
    (p >>= f) s = (p s).bind fun found => f found.1 found.2 := rfl

@[simp] theorem map_apply (f : α → β) (p : Parser α) (s : List Char) :
    (f <$> p) s = (p s).map fun found => (f found.1, found.2) := by
  change (p s).bind (fun found => some (f found.1, found.2)) = _
  cases p s <;> rfl

@[simp] theorem orElse_apply (p q : Parser α) (s : List Char) :
    (p <|> q) s = (p s).or (q s) := by
  change (p s).orElse (fun _ => q s) = _
  cases p s <;> rfl

@[simp] theorem optional_apply (p : Parser α) (s : List Char) :
    (optional p) s = some (((p s).map Prod.fst), ((p s).map Prod.snd).getD s) := by
  change ((some <$> p) <|> pure none : Parser (Option α)) s = _
  cases h : p s <;> simp [h]

@[simp] theorem present_apply (p : Parser α) (s : List Char) :
    (present p) s = some ((p s).isSome, ((p s).map Prod.snd).getD s) := by
  cases h : p s <;> simp [present, h]

theorem firstOf_nil_apply (s : List Char) : firstOf ([] : List (Parser α)) s = none := rfl

theorem firstOf_cons_apply (p : Parser α) (ps : List (Parser α)) (s : List Char) :
    firstOf (p :: ps) s = (p s).or (firstOf ps s) := by
  rw [firstOf]
  cases p s <;> rfl

/-! ## Characters -/

@[simp] theorem satisfy_nil (test : Char → Bool) : satisfy test [] = none := rfl

@[simp] theorem satisfy_cons (test : Char → Bool) (c : Char) (s : List Char) :
    satisfy test (c :: s) = if test c then some (c, s) else none := rfl

@[simp] theorem exactly_nil (s : List Char) : exactly [] s = some ((), s) := rfl

@[simp] theorem exactly_cons_nil (c : Char) (cs : List Char) : exactly (c :: cs) [] = none := rfl

@[simp] theorem exactly_cons_cons (c : Char) (cs : List Char) (d : Char) (s : List Char) :
    exactly (c :: cs) (d :: s) = if c = d then exactly cs s else none := by
  by_cases h : c = d <;> simp [exactly, h]

theorem exactly_append (cs s : List Char) : exactly cs (cs ++ s) = some ((), s) := by
  induction cs with
  | nil => rfl
  | cons c cs ih => simp [ih]

/-- Where the given characters are found, the text begins with them. -/
theorem eq_append_of_exactly {cs s t : List Char} {u : Unit} (h : exactly cs s = some (u, t)) :
    s = cs ++ t := by
  induction cs generalizing s with
  | nil =>
    simp only [exactly_nil, Option.some.injEq, Prod.mk.injEq] at h
    exact h.2
  | cons c cs ih =>
    cases s with
    | nil => simp at h
    | cons d s =>
      simp only [exactly_cons_cons] at h
      split at h
      · subst d
        rw [List.cons_append, ih h]
      · cases h

/-- A run of characters ends where a character is not of its kind. -/
theorem takeWhile_run {test : Char → Bool} {run rest : List Char} (all : ∀ c ∈ run, test c = true)
    (ends : ∀ c ∈ rest.head?, test c = false) :
    takeWhile test (run ++ rest) = some (run, rest) := by
  rw [takeWhile, List.takeWhile_append_of_pos all, List.dropWhile_append_of_pos all]
  cases rest with
  | nil => simp
  | cons c rest => simp [ends c rfl]

theorem takeWhile1_run {test : Char → Bool} {run rest : List Char} (nonempty : run ≠ [])
    (all : ∀ c ∈ run, test c = true) (ends : ∀ c ∈ rest.head?, test c = false) :
    takeWhile1 test (run ++ rest) = some (run, rest) := by
  obtain ⟨c, run, rfl⟩ := List.exists_cons_of_ne_nil nonempty
  rw [List.forall_mem_cons] at all
  simp [takeWhile1, all.1, takeWhile_run all.2 ends]

/-- A run that is read is not empty and of its kind. -/
theorem eq_append_of_takeWhile1 {test : Char → Bool} {s run t : List Char}
    (found : takeWhile1 test s = some (run, t)) :
    s = run ++ t ∧ run ≠ [] ∧ ∀ c ∈ run, test c = true := by
  cases s with
  | nil => simp [takeWhile1] at found
  | cons c s =>
    cases first : test c with
    | false => simp [takeWhile1, first] at found
    | true =>
      obtain ⟨rfl, rfl⟩ : c :: s.takeWhile test = run ∧ s.dropWhile test = t := by
        simpa [takeWhile1, takeWhile, first] using found
      refine ⟨by simp, by simp, ?_⟩
      rw [List.forall_mem_cons]
      exact ⟨first, fun d => List.mem_takeWhile_imp⟩

/-! ## Repetition -/

/-- Rounds of a parser from one text to another.  Every round leaves a shorter text. -/
inductive Rounds (p : Parser α) : List Char → List α → List Char → Prop where
  | done {s : List Char} : Rounds p s [] s
  | round {s t u : List Char} {x : α} {xs : List α} (reads : p s = some (x, t))
      (shorter : t.length < s.length) (rest : Rounds p t xs u) : Rounds p s (x :: xs) u

theorem Rounds.one {p : Parser α} {s t : List Char} {x : α} (reads : p s = some (x, t))
    (shorter : t.length < s.length) : Rounds p s [x] t :=
  .round reads shorter .done

theorem Rounds.append {p : Parser α} {s t u : List Char} {xs ys : List α}
    (first : Rounds p s xs t) (second : Rounds p t ys u) : Rounds p s (xs ++ ys) u := by
  induction first with
  | done => exact second
  | round reads shorter _ ih => exact .round reads shorter (ih second)

/-- One round more in front, which reads a text of its own. -/
theorem Rounds.cons {p : Parser α} {text t u : List Char} {x : α} {xs : List α}
    (reads : p (text ++ t) = some (x, t)) (nonempty : text ≠ []) (rest : Rounds p t xs u) :
    Rounds p (text ++ t) (x :: xs) u := by
  have longer := List.length_pos_iff.mpr nonempty
  exact .round reads (by rw [List.length_append]; omega) rest

/-- One round more behind a separator. -/
theorem Rounds.separated {p : Parser α} {sep text t u : List Char} {x : α} {xs : List α}
    (reads : p (text ++ t) = some (x, t)) (nonempty : sep ≠ [])
    (rest : Rounds (do exactly sep; p) t xs u) :
    Rounds (do exactly sep; p) (sep ++ (text ++ t)) (x :: xs) u := by
  have whole : (do exactly sep; p : Parser α) (sep ++ text ++ t) = some (x, t) := by
    rw [List.append_assoc, bind_apply, exactly_append]
    exact reads
  rw [← List.append_assoc]
  exact .cons whole (by simp [nonempty]) rest

/-- What is written one thing after the other is read in as many rounds. -/
theorem rounds_flatMap {p : Parser α} {write : α → List Char}
    (reads : ∀ x rest, p (write x ++ rest) = some (x, rest)) (nonempty : ∀ x, write x ≠ [])
    (xs : List α) (rest : List Char) : Rounds p (xs.flatMap write ++ rest) xs rest := by
  induction xs with
  | nil => exact .done
  | cons x xs ih =>
    rw [List.flatMap_cons, List.append_assoc]
    exact .cons (reads x _) (nonempty x) ih

theorem Rounds.length_le {p : Parser α} {s t : List Char} {xs : List α} (h : Rounds p s xs t) :
    xs.length + t.length ≤ s.length := by
  induction h with
  | done => simp
  | round _ shorter _ ih =>
    simp only [List.length_cons]
    omega

theorem manyWithin_of_rounds {p : Parser α} {s t : List Char} {xs : List α} (h : Rounds p s xs t)
    (fails : p t = none) {bound : List Char} (enough : xs.length ≤ bound.length) :
    manyWithin p bound s = some (xs, t) := by
  induction h generalizing bound with
  | done => cases bound <;> simp [manyWithin, fails]
  | round reads _ _ ih =>
    cases bound with
    | nil => simp at enough
    | cons c bound =>
      simp only [List.length_cons, Nat.add_le_add_iff_right] at enough
      simp [manyWithin, reads, ih fails enough]

/-- A repetition makes all rounds up to a text where its parser fails. -/
theorem many_of_rounds {p : Parser α} {s t : List Char} {xs : List α} (h : Rounds p s xs t)
    (fails : p t = none) : many p s = some (xs, t) := by
  have counted := h.length_le
  exact manyWithin_of_rounds h fails (by omega)

theorem rounds_of_manyWithin {p : Parser α} {n : Nat}
    (shortens : ∀ {s t : List Char} {x : α}, s.length < n → p s = some (x, t) → t.length < s.length)
    {bound s t : List Char} {xs : List α} (short : s.length < n)
    (made : manyWithin p bound s = some (xs, t)) : Rounds p s xs t := by
  induction bound generalizing s xs with
  | nil =>
    cases made
    exact .done
  | cons c bound ih =>
    cases reads : p s with
    | none =>
      obtain ⟨rfl, rfl⟩ : [] = xs ∧ s = t := by simpa [manyWithin, reads] using made
      exact .done
    | some found =>
      obtain ⟨x, u⟩ := found
      have shorter := shortens short reads
      cases others : manyWithin p bound u with
      | none =>
        obtain ⟨rfl, rfl⟩ : [] = xs ∧ s = t := by simpa [manyWithin, reads, others] using made
        exact .done
      | some found =>
        obtain ⟨ys, v⟩ := found
        obtain ⟨rfl, rfl⟩ : x :: ys = xs ∧ v = t := by simpa [manyWithin, reads, others] using made
        exact .round reads shorter (ih (Nat.lt_trans shorter short) others)

/-- The rounds that a repetition has made, when its parser shortens every text below a length. -/
theorem rounds_of_many {p : Parser α} {n : Nat}
    (shortens : ∀ {s t : List Char} {x : α}, s.length < n → p s = some (x, t) → t.length < s.length)
    {s t : List Char} {xs : List α} (short : s.length < n) (made : many p s = some (xs, t)) :
    Rounds p s xs t :=
  rounds_of_manyWithin shortens short made

/-- Items with separators between them, when the first item is read and the others are read after
    their separators. -/
theorem sepBy1_of_rounds {p : Parser α} {sep : Parser Unit} {s t u : List Char} {x : α}
    {xs : List α} (first : p s = some (x, t)) (others : Rounds (do sep; p) t xs u)
    (fails : sep u = none) : sepBy1 p sep s = some (x :: xs, u) := by
  have more := many_of_rounds others (by simp [fails])
  simp [sepBy1, first, more]

end IdlTypings.Parser
