import Mathlib
import IdlTypings.Text.Scan
import IdlTypings.Text.Word
import IdlTypings.Proofs.ParserRules

/-! # Edits of a text, piece by piece

An edit goes through a text from left to right.  Where a text is put together from pieces, and what
an edit does to each of them is decided inside the piece, the edit can be followed piece by piece.

* `Scans` says what a search finds in a piece, and `Turns` what a piece becomes.  Both hold whatever
  stands around the piece, so they go together under `++`.
* `turns_found` and `turns_kept` are the two steps of an edit, `Spares.turns` and `turns_of_stops` the
  two reasons why a piece stays as it is: nothing in it begins a find, or a find that begins in it
  would have to run past a character that no find contains (`scans_of_stops`).
* `Clear.replaceFirst` and `replaceFirst_here` are the replacement of a first occurrence.
* `editFrom` is an edit from any place on.  A mark that no result contains is one of the text
  (`editFrom_mark`), and no edit whose finds lack it comes past it (`editFrom_inside`).
-/

namespace IdlTypings.Text

variable {α β : Type} {s t : List Char}

theorem toNat_of_isAsciiWord {c : Char} (word : isAsciiWord c = true) : c.toNat < 128 := by
  simp only [isAsciiWord, Char.isAlphanum, Char.isAlpha, Char.isUpper, Char.isLower, Char.isDigit,
    Bool.or_eq_true, Bool.and_eq_true, decide_eq_true_eq, beq_iff_eq, ge_iff_le,
    UInt32.le_iff_toNat_le] at word
  rcases word with ((upper | lower) | digit) | rfl
  · exact Nat.lt_of_le_of_lt upper.2 (by decide)
  · exact Nat.lt_of_le_of_lt lower.2 (by decide)
  · exact Nat.lt_of_le_of_lt digit.2 (by decide)
  · decide

/-- The last character of a text is that of its ending. -/
theorem last_of_ending {test : Char → Bool} (s : String) {ending : String}
    (ends : ending.toList.getLast?.any (!test ·) = true) :
    ∀ c ∈ (s ++ ending).toList.getLast?, test c = false := by
  rw [String.toList_append, List.getLast?_append]
  cases last : ending.toList.getLast? with
  | none => simp [last] at ends
  | some d =>
    rw [last, Option.any_some, Bool.not_eq_true'] at ends
    rintro _ ⟨⟩
    exact ends

/-! ## Searching -/

/-- Where a find has been kept, its other characters are passed over. -/
theorem scanFrom_skip (find : Option Char → Parser α) (before : Option Char) (s rest : List Char) :
    scanFrom find before s.length (s ++ rest) =
      scanFrom find (s.getLast?.or before) 0 rest := by
  induction s generalizing before with
  | nil => rfl
  | cons c s ih =>
    rw [List.length_cons, List.cons_append, scanFrom, ih, List.getLast?_cons]
    cases s.getLast? <;> rfl

/-- The pieces that a search makes out of a text, whatever stands around it. -/
def Scans (find : Option Char → Parser α) (s : List Char) (pieces : List (Char ⊕ α)) : Prop :=
  ∀ before rest, scanFrom find before 0 (s ++ rest) =
    pieces ++ scanFrom find (s.getLast?.or before) 0 rest

section

variable {find : Option Char → Parser α} {pieces others : List (Char ⊕ α)}

theorem Scans.nil : Scans find [] [] :=
  fun _ _ => rfl

theorem Scans.append (first : Scans find s pieces) (second : Scans find t others) :
    Scans find (s ++ t) (pieces ++ others) := by
  intro before rest
  rw [List.append_assoc, first, second, List.append_assoc, List.getLast?_append, Option.or_assoc]

theorem Scans.flatMap {xs : List β} {old : β → List Char} {new : β → List (Char ⊕ α)}
    (scans : ∀ x ∈ xs, Scans find (old x) (new x)) :
    Scans find (xs.flatMap old) (xs.flatMap new) := by
  induction xs with
  | nil => exact .nil
  | cons x xs ih =>
    rw [List.forall_mem_cons] at scans
    rw [List.flatMap_cons, List.flatMap_cons]
    exact scans.1.append (ih scans.2)

/-- A find, and the search after it. -/
theorem scans_found {x : α} (nonempty : s ≠ [])
    (found : ∀ before rest, find before (s ++ rest) = some (x, rest)) : Scans find s [.inr x] := by
  obtain ⟨c, s, rfl⟩ := List.exists_cons_of_ne_nil nonempty
  intro before rest
  have reads := found before rest
  rw [List.cons_append] at reads ⊢
  have counted : (s ++ rest).length - rest.length = s.length := by simp
  simp only [scanFrom, reads, counted, scanFrom_skip, List.getLast?_cons]
  cases s.getLast? <;> rfl

/-- A character that begins no find, and the search after it. -/
theorem scans_kept {c : Char} (fails : ∀ before rest, find before (c :: (s ++ rest)) = none)
    (after : Scans find s pieces) : Scans find (c :: s) (.inl c :: pieces) := by
  intro before rest
  rw [List.cons_append, scanFrom, fails]
  simp only [after (some c) rest, List.cons_append, List.getLast?_cons]
  cases s.getLast? <;> rfl

theorem Scans.scan (scans : Scans find s pieces) : scan find s = pieces := by
  have whole := scans none []
  rwa [List.append_nil, scanFrom, List.append_nil] at whole

/-- No find begins in a text. -/
theorem scans_of_fails
    (fails : ∀ u c v, s = u ++ c :: v → ∀ before rest, find before (c :: (v ++ rest)) = none) :
    Scans find s (s.map .inl) := by
  induction s with
  | nil => exact .nil
  | cons c s ih =>
    refine scans_kept (fails [] c s rfl) (ih ?_)
    rintro u d v rfl
    exact fails (c :: u) d v rfl

/-- A search whose finds begin at no character of a class. -/
def Spares (find : Option Char → Parser α) (kind : Char → Bool) : Prop :=
  ∀ c, kind c = true → ∀ before rest, find before (c :: rest) = none

/-- Where no character begins a find, nothing is found. -/
theorem Spares.scans {kind : Char → Bool} (spares : Spares find kind) (all : s.all kind = true) :
    Scans find s (s.map .inl) := by
  rw [List.all_eq_true] at all
  refine scans_of_fails ?_
  rintro u c v rfl before rest
  exact spares c (all c (by simp)) before _

/-- Every find runs through characters of a class up to a mark.  So where no run up to a mark can be
    one of a find, and the last character is outside the class, nothing is found. -/
theorem scans_of_stops {mark : Char} {inside : Char → Bool} {run : List Char → Prop}
    (reaches : ∀ {before s x rest}, find before s = some (x, rest) →
      ∃ u v, s = u ++ mark :: v ∧ (∀ c ∈ u, inside c = true) ∧ run u)
    (missing : ∀ u, u ++ [mark] <:+: s → ¬ run u) (stops : ∀ c ∈ s.getLast?, inside c = false) :
    Scans find s (s.map .inl) := by
  refine scans_of_fails ?_
  rintro u c v rfl before rest
  cases found : find before (c :: (v ++ rest)) with
  | none => rfl
  | some result =>
    obtain ⟨w, after, text, all, runs⟩ := reaches found
    -- The find runs past the end of the piece, so its last character is inside.
    have longer : c :: v <+: w := by
      rw [← List.cons_append] at text
      rcases List.append_eq_append_iff.mp text with ⟨more, whole, -⟩ | ⟨more, whole, marked⟩
      · exact ⟨more, whole.symm⟩
      · cases more with
        | nil => exact ⟨[], by simpa using whole⟩
        | cons d more =>
          obtain ⟨rfl, -⟩ := List.cons.inj marked
          exact absurd runs (missing w ⟨u, more, by simp [whole]⟩)
    have last : (u ++ c :: v).getLast? = some ((c :: v).getLast (by simp)) := by
      rw [List.getLast?_append_of_ne_nil _ (by simp), List.getLast?_eq_some_getLast (by simp)]
    have outside := stops _ last
    rw [all _ (longer.subset (List.getLast_mem _))] at outside
    cases outside

end

/-! ## Replacing -/

/-- What an edit makes of a piece of a text, whatever stands around it. -/
def Turns (find : Option Char → Parser (List Char)) (old new : List Char) : Prop :=
  ∃ pieces, Scans find old pieces ∧ pieces.flatMap (Sum.elim (fun c => [c]) id) = new

section

variable {find : Option Char → Parser (List Char)}

theorem Turns.replaceAll {old new : List Char} (turns : Turns find old new) :
    replaceAll find old = new := by
  obtain ⟨pieces, scans, rfl⟩ := turns
  rw [Text.replaceAll, scans.scan]

theorem Turns.nil : Turns find [] [] :=
  ⟨[], .nil, rfl⟩

theorem Turns.append {a a' b b' : List Char} (first : Turns find a a') (second : Turns find b b') :
    Turns find (a ++ b) (a' ++ b') := by
  obtain ⟨pieces, scans, rfl⟩ := first
  obtain ⟨others, scans', rfl⟩ := second
  exact ⟨pieces ++ others, scans.append scans', List.flatMap_append⟩

theorem Turns.flatMap {xs : List β} {old new : β → List Char}
    (turns : ∀ x ∈ xs, Turns find (old x) (new x)) :
    Turns find (xs.flatMap old) (xs.flatMap new) := by
  induction xs with
  | nil => exact .nil
  | cons x xs ih =>
    rw [List.forall_mem_cons] at turns
    rw [List.flatMap_cons, List.flatMap_cons]
    exact turns.1.append (ih turns.2)

theorem turns_found {new : List Char} (nonempty : s ≠ [])
    (found : ∀ before rest, find before (s ++ rest) = some (new, rest)) : Turns find s new :=
  ⟨[.inr new], scans_found nonempty found, by simp⟩

/-- A find that depends on the character before it. -/
theorem Turns.found_after {c d : Char} {before before' new : List Char}
    (turns : Turns find before before') (last : before.getLast? = some d)
    (found : ∀ rest, find (some d) (c :: (s ++ rest)) = some (new, rest)) :
    Turns find (before ++ c :: s) (before' ++ new) := by
  obtain ⟨pieces, scans, rfl⟩ := turns
  refine ⟨pieces ++ [.inr new], fun first rest => ?_, by simp⟩
  rw [List.append_assoc, scans, last, List.cons_append, Option.some_or, scanFrom, found]
  have counted : (s ++ rest).length - rest.length = s.length := by simp
  simp only [counted, scanFrom_skip, List.getLast?_append_of_ne_nil _ (List.cons_ne_nil c s),
    List.getLast?_cons, List.append_assoc, List.singleton_append]
  cases s.getLast? <;> rfl

theorem turns_kept {c : Char} (fails : ∀ before rest, find before (c :: (s ++ rest)) = none)
    (after : Turns find s t) : Turns find (c :: s) (c :: t) := by
  obtain ⟨pieces, scans, rfl⟩ := after
  exact ⟨.inl c :: pieces, scans_kept fails scans, by simp⟩

theorem turns_of_scans (scans : Scans find s (s.map .inl)) : Turns find s s :=
  ⟨s.map .inl, scans, by simp [List.flatMap_map]⟩

theorem Spares.turns {kind : Char → Bool} (spares : Spares find kind) (all : s.all kind = true) :
    Turns find s s :=
  turns_of_scans (spares.scans all)

/-- Where the mark that every find runs up to is missing, and the last character is outside the
    class, nothing changes. -/
theorem turns_of_stops {mark : Char} {inside : Char → Bool}
    (reaches : ∀ {before s x rest}, find before s = some (x, rest) →
      ∃ u v, s = u ++ mark :: v ∧ ∀ c ∈ u, inside c = true)
    (missing : mark ∉ s) (stops : ∀ c ∈ s.getLast?, inside c = false) : Turns find s s := by
  have runs {before : Option Char} {s x rest : List Char} (found : find before s = some (x, rest)) :
      ∃ u v, s = u ++ mark :: v ∧ (∀ c ∈ u, inside c = true) ∧ True := by
    obtain ⟨u, v, text, all⟩ := reaches found
    exact ⟨u, v, text, all, trivial⟩
  refine turns_of_scans (scans_of_stops runs (fun u part _ => ?_) stops)
  exact missing (part.subset (by simp))

/-- Where a text that all finds contain is missing, nothing changes. -/
theorem replaceAll_of_missing
    (contains : ∀ {before s x rest}, find before s = some (x, rest) → t <:+: s)
    (missing : ¬ t <:+: s) : Text.replaceAll find s = s := by
  have kept : ∀ before, scanFrom find before 0 s = s.map .inl := by
    induction s with
    | nil => exact fun _ => rfl
    | cons c s ih =>
      intro before
      cases found : find before (c :: s) with
      | none =>
        rw [scanFrom, found]
        simp only [ih fun inside => missing (List.infix_cons inside), List.map_cons]
      | some result => exact absurd (contains found) missing
  rw [Text.replaceAll, scan, kept]
  simp [List.flatMap_map]

end

/-- Where a parser does not look back, what follows a piece is edited on its own. -/
theorem Turns.replaceAll_append {p : Parser (List Char)} {old new : List Char}
    (turns : Turns (fun _ => p) old new) (rest : List Char) :
    Text.replaceAll (fun _ => p) (old ++ rest) = new ++ Text.replaceAll (fun _ => p) rest := by
  have anyBefore (before : Option Char) :
      scanFrom (fun _ => p) before 0 rest = scanFrom (fun _ => p) none 0 rest := by
    cases rest <;> rfl
  obtain ⟨pieces, scans, rfl⟩ := turns
  rw [Text.replaceAll, scan, scans, List.flatMap_append, anyBefore]
  rfl

/-- A parser that writes nothing for what it finds. -/
def Drops (p : Parser (List Char)) : Prop :=
  ∀ s x rest, p s = some (x, rest) → x = []

theorem drops_pure : Drops (pure []) := by
  intro s x rest found
  cases found
  rfl

theorem drops_bind {p : Parser α} {f : α → Parser (List Char)} (drops : ∀ x, Drops (f x)) :
    Drops (p >>= f) := by
  intro s x rest found
  rw [Parser.bind_apply, Option.bind_eq_some_iff] at found
  obtain ⟨_, -, found⟩ := found
  exact drops _ _ _ _ found

/-- An edit that writes nothing for its finds only leaves characters out. -/
theorem replaceAll_sublist {find : Option Char → Parser (List Char)}
    (drops : ∀ before, Drops (find before)) (s : List Char) :
    (Text.replaceAll find s).Sublist s := by
  -- Inside a find characters are skipped, so the induction is over any number of them.
  have part (before : Option Char) (skip : Nat) :
      ((scanFrom find before skip s).flatMap (Sum.elim (fun c => [c]) id)).Sublist s := by
    induction s generalizing before skip with
    | nil => simp [scanFrom]
    | cons c s ih =>
      cases skip with
      | succ skip => exact (ih (some c) skip).cons c
      | zero =>
        cases found : find before (c :: s) with
        | none => simpa [scanFrom, found] using ih (some c) 0
        | some result =>
          obtain ⟨x, rest⟩ := result
          obtain rfl := drops before _ _ _ found
          simpa [scanFrom, found] using (ih (some c) _).cons c
  exact part none 0

theorem withText_append {p : Parser α} {x : α} {rest : List Char}
    (reads : p (s ++ rest) = some (x, rest)) : Parser.withText p (s ++ rest) = some ((s, x), rest) := by
  simp [Parser.withText, reads]

/-! ## The first occurrence -/

/-- No occurrence of a text begins in a piece, whatever stands behind it. -/
def Clear (old s : List Char) : Prop :=
  ∀ u c v, s = u ++ c :: v → ∀ rest, ¬ old <+: c :: (v ++ rest)

section

variable {old new : List Char}

theorem Clear.nil : Clear old [] := by
  intro u c v split
  simp at split

theorem Clear.append (first : Clear old s) (second : Clear old t) : Clear old (s ++ t) := by
  intro u c v split rest
  rcases List.append_eq_append_iff.mp split with ⟨more, whole, after⟩ | ⟨more, whole, after⟩
  · exact second more c v after rest
  · cases more with
    | nil => exact second [] c v after.symm rest
    | cons d more =>
      rw [List.cons_append] at after
      obtain ⟨rfl, rfl⟩ := List.cons.inj after
      rw [List.append_assoc]
      exact first u c more whole (t ++ rest)

theorem Clear.flatMap {xs : List β} {text : β → List Char} (clear : ∀ x ∈ xs, Clear old (text x)) :
    Clear old (xs.flatMap text) := by
  induction xs with
  | nil => exact .nil
  | cons x xs ih =>
    rw [List.forall_mem_cons] at clear
    rw [List.flatMap_cons]
    exact clear.1.append (ih clear.2)

theorem infix_of_concat {stop : Char} (missing : stop ∉ t) (part : t <:+: s ++ [stop]) : t <:+: s := by
  rcases List.infix_concat_iff.mp part with ends | inside
  · rcases List.suffix_concat_iff.mp ends with rfl | ⟨more, rfl, -⟩
    · exact List.nil_infix
    · simp at missing
  · exact inside

/-- A text that is not in a piece cannot begin there either, if it had to run past a character that
    is not in it. -/
theorem clear_of_stop {stop : Char} (missing : stop ∉ old) (absent : ¬ old <:+: s) :
    Clear old (s ++ [stop]) := by
  intro u c v split rest occurs
  have here : c :: v <+: c :: (v ++ rest) := ⟨rest, rfl⟩
  rcases List.prefix_or_prefix_of_prefix occurs here with inside | longer
  · refine absent (infix_of_concat missing ?_)
    rw [split]
    exact inside.isInfix.trans (List.suffix_append u (c :: v)).isInfix
  · have last : stop ∈ c :: v := by
      have final := congrArg List.getLast? split
      rw [List.getLast?_concat, List.getLast?_append_of_ne_nil _ (by simp)] at final
      exact List.mem_of_getLast? final.symm
    exact missing (longer.subset last)

/-- A text is cut at its first mark in one way only. -/
theorem cut_at_first {mark : Char} {u v : List Char} (missing : mark ∉ s) (missing' : mark ∉ t)
    (same : s ++ mark :: u = t ++ mark :: v) : s = t ∧ u = v := by
  induction s generalizing t with
  | nil =>
    cases t with
    | nil => exact ⟨rfl, (List.cons.inj same).2⟩
    | cons d t =>
      obtain ⟨rfl, -⟩ := List.cons.inj same
      simp at missing'
  | cons c s ih =>
    cases t with
    | nil =>
      obtain ⟨rfl, -⟩ := List.cons.inj same
      simp at missing
    | cons d t =>
      obtain ⟨rfl, others⟩ := List.cons.inj same
      obtain ⟨rfl, rest⟩ := ih (List.not_mem_of_not_mem_cons missing)
        (List.not_mem_of_not_mem_cons missing') others
      exact ⟨rfl, rest⟩

/-- A text is cut at its last mark in one way only. -/
theorem cut_at_last {mark : Char} {u v : List Char} (missing : mark ∉ u) (missing' : mark ∉ v)
    (same : s ++ mark :: u = t ++ mark :: v) : s = t ∧ u = v := by
  have reversed := congrArg List.reverse same
  simp only [List.reverse_append, List.reverse_cons, List.append_assoc, List.singleton_append]
    at reversed
  have cut := cut_at_first (by simpa using missing) (by simpa using missing') reversed
  exact ⟨List.reverse_injective cut.2, List.reverse_injective cut.1⟩

/-- A text that ends in its only mark begins in a piece of the same kind only if the piece ends in
    it. -/
theorem clear_of_mark {mark : Char} (missing : mark ∉ s) (once : mark ∉ old)
    (absent : ¬ old <:+ s) : Clear (old ++ [mark]) (s ++ [mark]) := by
  rintro u c v split rest ⟨after, occurs⟩
  rcases List.suffix_concat_iff.mp ⟨u, split.symm⟩ with empty | ⟨w, whole, ends⟩
  · cases empty
  · rw [← List.cons_append, whole, List.append_assoc, List.append_assoc, List.singleton_append,
      List.singleton_append] at occurs
    obtain ⟨rfl, -⟩ := cut_at_first once (fun member => missing (ends.subset member)) occurs
    exact absent ends

theorem Clear.absent (clear : Clear old s) (nonempty : old ≠ []) : ¬ old <:+: s := by
  rintro ⟨u, v, split⟩
  obtain ⟨c, rest, rfl⟩ := List.exists_cons_of_ne_nil nonempty
  exact clear u c (rest ++ v) (by simp [← split]) [] ⟨v, by simp⟩

theorem clear_of_missing {c : Char} {rest : List Char} (missing : c ∉ s) : Clear (c :: rest) s := by
  rintro u d v rfl after occurs
  obtain ⟨rfl, -⟩ := List.cons_prefix_cons.mp occurs
  simp at missing

/-- The first occurrence is looked for behind a piece where none begins. -/
theorem Clear.replaceFirst (clear : Clear old s) (t : List Char) :
    replaceFirst old new (s ++ t) = s ++ replaceFirst old new t := by
  induction s with
  | nil => rfl
  | cons c s ih =>
    have absent := clear [] c s rfl t
    rw [List.cons_append, Text.replaceFirst, if_neg (by simpa using absent),
      ih fun u d v split => clear (c :: u) d v (by rw [split]; rfl), List.cons_append]

theorem replaceFirst_here (nonempty : old ≠ []) (t : List Char) :
    replaceFirst old new (old ++ t) = new ++ t := by
  obtain ⟨c, rest, rfl⟩ := List.exists_cons_of_ne_nil nonempty
  simp [replaceFirst]

end

/-! ## Edits from a place on -/

section

variable {find : Option Char → Parser (List Char)} {u v : List Char}

/-- What an edit makes of a text that stands behind the given character. -/
def editFrom (find : Option Char → Parser (List Char)) (before : Option Char) (s : List Char) :
    List Char :=
  (scanFrom find before 0 s).flatMap (Sum.elim (fun c => [c]) id)

theorem Turns.editFrom {old new : List Char} (turns : Turns find old new) (before : Option Char)
    (rest : List Char) :
    editFrom find before (old ++ rest) = new ++ editFrom find (old.getLast?.or before) rest := by
  obtain ⟨pieces, scans, rfl⟩ := turns
  rw [Text.editFrom, scans, List.flatMap_append]
  rfl

/-- A text whose part before the first mark is known has its marks in the other part. -/
theorem mark_behind {mark : Char} {t : List Char} (missing : mark ∉ t)
    (split : t ++ s = u ++ mark :: v) : ∃ w, u = t ++ w ∧ s = w ++ mark :: v := by
  rcases List.append_eq_append_iff.mp split with ⟨w, before, after⟩ | ⟨w, before, after⟩
  · exact ⟨w, before, after⟩
  · cases w with
    | nil => exact ⟨[], by simpa using before.symm, by simpa using after.symm⟩
    | cons c w =>
      obtain ⟨rfl, -⟩ := List.cons.inj after
      simp [before] at missing

/-- A mark that no result of an edit contains is one of the text, and what stands behind it is edited
    after it. -/
theorem editFrom_mark {mark : Char}
    (absent : ∀ before s x rest, find before s = some (x, rest) → mark ∉ x)
    {before : Option Char} (split : editFrom find before s = u ++ mark :: v) :
    ∃ u' v', s = u' ++ mark :: v' ∧ v = editFrom find (some mark) v' := by
  suffices behind : ∀ {s u before} skip, (scanFrom find before skip s).flatMap
      (Sum.elim (fun c => [c]) id) = u ++ mark :: v →
        ∃ u' v', s = u' ++ mark :: v' ∧ v = editFrom find (some mark) v' from behind 0 split
  clear split
  -- While the characters of a find are skipped nothing is written, so the mark comes later.
  intro s
  induction s with
  | nil =>
    intro u before skip split
    simp [scanFrom] at split
  | cons c s ih =>
    intro u before skip split
    have further {u : List Char} {skip : Nat} (split : (scanFrom find (some c) skip s).flatMap
        (Sum.elim (fun c => [c]) id) = u ++ mark :: v) :
        ∃ u' v', c :: s = u' ++ mark :: v' ∧ v = editFrom find (some mark) v' := by
      obtain ⟨u', v', rfl, same⟩ := ih skip split
      exact ⟨c :: u', v', rfl, same⟩
    cases skip with
    | succ skip => exact further split
    | zero =>
      cases found : find before (c :: s) with
      | some result =>
        obtain ⟨x, rest⟩ := result
        simp only [scanFrom, found, List.flatMap_cons, Sum.elim_inr, id_eq] at split
        obtain ⟨w, -, others⟩ := mark_behind (absent _ _ _ _ found) split
        exact further others
      | none =>
        simp only [scanFrom, found, List.flatMap_cons, Sum.elim_inl, List.singleton_append] at split
        cases u with
        | nil =>
          obtain ⟨rfl, same⟩ := List.cons.inj split
          exact ⟨[], s, rfl, same.symm⟩
        | cons d u => exact further (List.cons.inj split).2

/-- An edit whose finds and results are made of characters of a kind does not come past a mark that is
    not of that kind. -/
theorem editFrom_inside {kind : Char → Bool} {mark : Char}
    (reads : ∀ before s x rest, find before s = some (x, rest) →
      ∃ w, s = w ++ rest ∧ ∀ c ∈ w, kind c = true)
    (writes : ∀ before s x rest, find before s = some (x, rest) → ∀ c ∈ x, kind c = true)
    (stops : ∀ before s, find before (mark :: s) = none) (outside : kind mark = false)
    (all : ∀ c ∈ u, kind c = true) (before : Option Char) (s : List Char) :
    ∃ u', (∀ c ∈ u', kind c = true) ∧
      editFrom find before (u ++ mark :: s) = u' ++ mark :: editFrom find (some mark) s := by
  suffices inside : ∀ before skip, skip ≤ u.length → ∃ u', (∀ c ∈ u', kind c = true) ∧
      (scanFrom find before skip (u ++ mark :: s)).flatMap (Sum.elim (fun c => [c]) id) =
        u' ++ mark :: editFrom find (some mark) s from inside before 0 (Nat.zero_le _)
  induction u with
  | nil =>
    intro before skip none
    obtain rfl := Nat.le_zero.mp none
    refine ⟨[], List.forall_mem_nil _, ?_⟩
    simp [scanFrom, stops, editFrom]
  | cons c u ih =>
    rw [List.forall_mem_cons] at all
    intro before skip few
    cases skip with
    | succ skip => exact ih all.2 _ _ (Nat.le_of_succ_le_succ few)
    | zero =>
      cases found : find before (c :: (u ++ mark :: s)) with
      | none =>
        obtain ⟨u', all', same⟩ := ih all.2 (some c) 0 (Nat.zero_le _)
        refine ⟨c :: u', List.forall_mem_cons.mpr ⟨all.1, all'⟩, ?_⟩
        simp [scanFrom, found, same]
      | some result =>
        obtain ⟨x, rest⟩ := result
        -- The find ends before the mark, so not more is skipped than stands before it.
        have few' : (u ++ mark :: s).length - rest.length ≤ u.length := by
          obtain ⟨w, whole, kinds⟩ := reads _ _ _ _ found
          have missing : mark ∉ w := fun member => by simp [kinds mark member] at outside
          obtain ⟨more, behind, -⟩ := mark_behind missing
            (show w ++ rest = (c :: u) ++ mark :: s from whole.symm)
          have counted := congrArg List.length whole
          have longer := congrArg List.length behind
          simp only [List.length_append, List.length_cons] at counted longer ⊢
          omega
        obtain ⟨u', all', same⟩ := ih all.2 (some c) _ few'
        refine ⟨x ++ u', List.forall_mem_append.mpr ⟨writes _ _ _ _ found, all'⟩, ?_⟩
        simp [scanFrom, found, ← same]

/-- A mark that a replacement does not contain is one of the text. -/
theorem replaceFirst_mark {mark : Char} {old new : List Char} (absent : mark ∉ new)
    (split : replaceFirst old new s = u ++ mark :: v) :
    ∃ u' v', s = u' ++ mark :: v' ∧ (v = v' ∨ v = replaceFirst old new v') := by
  induction s generalizing u with
  | nil => simp [replaceFirst] at split
  | cons c s ih =>
    rw [replaceFirst] at split
    split at split
    next =>
      -- The mark stands behind the replacement.
      obtain ⟨w, -, behind⟩ := mark_behind absent split
      refine ⟨(c :: s).take old.length ++ w, v, ?_, .inl rfl⟩
      rw [List.append_assoc, ← behind, List.take_append_drop]
    next =>
      cases u with
      | nil =>
        obtain ⟨rfl, same⟩ := List.cons.inj split
        exact ⟨[], s, rfl, .inr same.symm⟩
      | cons d u =>
        obtain ⟨u', v', rfl, same⟩ := ih (List.cons.inj split).2
        exact ⟨c :: u', v', rfl, same⟩

theorem scan_map {α β : Type} (f : α → β) (find : Option Char → Parser α) (s : List Char) :
    scan (fun before => f <$> find before) s = (scan find s).map (Sum.map id f) := by
  suffices from_ : ∀ before skip, scanFrom (fun before => f <$> find before) before skip s =
      (scanFrom find before skip s).map (Sum.map id f) from from_ none 0
  induction s with
  | nil => exact fun _ _ => rfl
  | cons c s ih =>
    intro before skip
    cases skip with
    | succ skip => exact ih (some c) skip
    | zero => cases found : find before (c :: s) <;> simp [scanFrom, found, ih]

/-- What a search keeps was found at some place. -/
theorem exists_of_mem_scan {α : Type} {find : Option Char → Parser α} {x : α}
    (member : .inr x ∈ scan find s) : ∃ before t rest, find before t = some (x, rest) := by
  suffices from_ : ∀ before skip, .inr x ∈ scanFrom find before skip s →
      ∃ before t rest, find before t = some (x, rest) from from_ none 0 member
  clear member
  induction s with
  | nil =>
    intro before skip member
    simp [scanFrom] at member
  | cons c s ih =>
    intro before skip member
    cases skip with
    | succ skip => exact ih _ _ member
    | zero =>
      cases found : find before (c :: s) with
      | none =>
        simp only [scanFrom, found, List.mem_cons, reduceCtorEq, false_or] at member
        exact ih _ _ member
      | some result =>
        obtain ⟨y, rest⟩ := result
        simp only [scanFrom, found, List.mem_cons, Sum.inr.injEq] at member
        rcases member with rfl | member
        · exact ⟨before, c :: s, rest, found⟩
        · exact ih _ _ member

end

end IdlTypings.Text
