import Mathlib
import IdlTypings.Dialect.Emscripten
import IdlTypings.Proofs.ImplementationStatements
import IdlTypings.Proofs.TextEdits

/-! # No array is left

`freezeArrays` makes three edits in a row.  Behind them no text looks like an array any more, in
whatever case it is written, so that a second pass changes nothing: `freezeArrays_complete`.

* `replaceAll_induction` goes through an edit find by find.
* `FreezesArrays` holds what the three edits have in common: a find ends with a square bracket and has
  no angle bracket, and what is written for it has angle brackets and no square bracket.
* So no find of one edit reaches into what another one has written.  `spent_replaceAll` draws the
  conclusion: an edit leaves no find of its own, and makes none for the edits before it.
-/

namespace IdlTypings.Text

variable {p : Parser (List Char)} {s : List Char}

/-- A text in which a parser finds nothing. -/
def Spent (p : Parser (List Char)) (s : List Char) : Prop :=
  ∀ t, t <:+ s → p t = none

theorem replaceAll_cons_of_none {c : Char} (fails : p (c :: s) = none) :
    replaceAll (fun _ => p) (c :: s) = c :: replaceAll (fun _ => p) s := by
  have anyBefore : scanFrom (fun _ => p) (some c) 0 s = scanFrom (fun _ => p) none 0 s := by
    cases s <;> rfl
  simp [replaceAll, scan, scanFrom, fails, anyBefore]

theorem replaceAll_append_of_some {m x : List Char} (nonempty : m ≠ [])
    (found : p (m ++ s) = some (x, s)) :
    replaceAll (fun _ => p) (m ++ s) = x ++ replaceAll (fun _ => p) s := by
  obtain ⟨c, m, rfl⟩ := List.exists_cons_of_ne_nil nonempty
  have anyBefore (before : Option Char) :
      scanFrom (fun _ => p) before 0 s = scanFrom (fun _ => p) none 0 s := by
    cases s <;> rfl
  have counted : (m ++ s).length - s.length = m.length := by simp
  rw [List.cons_append] at found ⊢
  simp only [replaceAll, scan, scanFrom, found, counted, scanFrom_skip, anyBefore, List.flatMap_cons,
    Sum.elim_inr, id_eq]

/-- An edit goes through a text find by find. -/
theorem replaceAll_induction {motive : List Char → List Char → Prop}
    (reads : ∀ {s x rest}, p s = some (x, rest) → ∃ m, m ≠ [] ∧ s = m ++ rest)
    (nil : motive [] [])
    (kept : ∀ {c s}, p (c :: s) = none → motive s (replaceAll (fun _ => p) s) →
      motive (c :: s) (c :: replaceAll (fun _ => p) s))
    (found : ∀ {m s x}, p (m ++ s) = some (x, s) → motive s (replaceAll (fun _ => p) s) →
      motive (m ++ s) (x ++ replaceAll (fun _ => p) s))
    (s : List Char) : motive s (replaceAll (fun _ => p) s) := by
  -- A find takes several characters at once, so the induction is on the length of the text.
  induction size : s.length using Nat.strong_induction_on generalizing s with
  | _ n ih =>
    cases s with
    | nil => exact nil
    | cons c s =>
      cases finds : p (c :: s) with
      | none =>
        rw [replaceAll_cons_of_none finds]
        exact kept finds (ih s.length (by simp [← size]) s rfl)
      | some result =>
        obtain ⟨x, rest⟩ := result
        obtain ⟨m, nonempty, split⟩ := reads finds
        have shorter : rest.length < n := by
          have counted := congrArg List.length split
          have positive := List.length_pos_iff.mpr nonempty
          rw [size, List.length_append] at counted
          omega
        rw [split] at finds ⊢
        rw [replaceAll_append_of_some nonempty finds]
        exact found finds (ih rest.length shorter rest rfl)

/-- Where a parser finds nothing, its edit changes nothing. -/
theorem Spent.replaceAll (spent : Spent p s) : replaceAll (fun _ => p) s = s := by
  induction s with
  | nil => rfl
  | cons c s ih =>
    rw [replaceAll_cons_of_none (spent _ List.suffix_rfl),
      ih fun t ends => spent t (ends.trans (List.suffix_cons c s))]

end IdlTypings.Text

namespace IdlTypings.Dialect.Emscripten

open IdlTypings.Parser IdlTypings.Text

variable {p q : Parser (List Char)} {s : List Char}

/-! ## What the edits have in common -/

/-- A character that may stand in an array before its closing bracket. -/
def inArray (c : Char) : Bool :=
  inStatement c || isWord c || c == '['

theorem not_mem_of_inArray {m : List Char} (all : ∀ c ∈ m, inArray c = true) {c : Char}
    (outside : inArray c = false) : c ∉ m := by
  intro member
  simp [all c member] at outside

/-- An edit of arrays.  A find runs up to its closing bracket and is read whatever follows it; what is
    written for it has an angle bracket inside and one at its end, and no closing bracket of an
    array. -/
structure FreezesArrays (p : Parser (List Char)) : Prop where
  finds : ∀ {s x rest}, p s = some (x, rest) → ∃ m, s = m ++ ']' :: rest ∧
    (∀ c ∈ m, inArray c = true) ∧ ∀ after, p (m ++ ']' :: after) = some (x, after)
  writes : ∀ {s x rest}, p s = some (x, rest) → ']' ∉ x ∧ ∃ u v, x = u ++ '<' :: (v ++ ['>'])

theorem FreezesArrays.reads (freezes : FreezesArrays p) {x rest : List Char}
    (found : p s = some (x, rest)) : ∃ m, m ≠ [] ∧ s = m ++ rest := by
  obtain ⟨m, rfl, -⟩ := freezes.finds found
  exact ⟨m ++ [']'], by simp, by simp⟩

theorem FreezesArrays.nil (freezes : FreezesArrays p) : p [] = none := by
  cases found : p [] with
  | none => rfl
  | some result =>
    obtain ⟨m, empty, -⟩ := freezes.finds found
    simp at empty

/-- A find that begins in front of something written ends in front of it. -/
theorem FreezesArrays.before (freezes : FreezesArrays p) {w x y rest after : List Char}
    (noSquare : ']' ∉ x) {u v : List Char} (angled : x = u ++ '<' :: v)
    (found : p (w ++ (x ++ after)) = some (y, rest)) (other : List Char) :
    ∃ left, p (w ++ other) = some (y, left) := by
  obtain ⟨m, split, all, again⟩ := freezes.finds found
  rcases List.append_eq_append_iff.mp split with ⟨m', rfl, behind⟩ | ⟨w', rfl, behind⟩
  · -- The find would have to pass the angle bracket, or end with a character that was written.
    have noAngle := not_mem_of_inArray (List.forall_mem_append.mp all).2
      (show inArray '<' = false by decide)
    rw [angled, List.append_assoc, List.cons_append] at behind
    obtain ⟨t, inside, closing⟩ := mark_behind noAngle behind.symm
    cases t with
    | nil => cases (List.cons.inj closing).1
    | cons c t =>
      obtain ⟨rfl, -⟩ := List.cons.inj closing
      simp [angled, inside] at noSquare
  · cases w' with
    | nil =>
      cases x with
      | nil => simp at angled
      | cons c x =>
        obtain ⟨rfl, -⟩ := List.cons.inj behind
        simp at noSquare
    | cons c w' =>
      obtain ⟨rfl, -⟩ := List.cons.inj behind
      exact ⟨w' ++ other, by simpa using again (w' ++ other)⟩

/-- No find begins in something written. -/
theorem FreezesArrays.inside (freezes : FreezesArrays p) {x after : List Char} (noSquare : ']' ∉ x) :
    p (x ++ '>' :: after) = none := by
  cases found : p (x ++ '>' :: after) with
  | none => rfl
  | some result =>
    obtain ⟨m, split, all, -⟩ := freezes.finds found
    obtain ⟨t, inside, closing⟩ := mark_behind (not_mem_of_inArray all (by decide)) split.symm
    cases t with
    | nil => cases (List.cons.inj closing).1
    | cons c t =>
      obtain ⟨rfl, -⟩ := List.cons.inj closing
      simp [inside] at noSquare

/-- What is found in an edited text would have been found in the text. -/
theorem FreezesArrays.original (freezes : FreezesArrays p) (edits : FreezesArrays q)
    (s w : List Char) {y rest : List Char}
    (found : p (w ++ replaceAll (fun _ => q) s) = some (y, rest)) :
    ∃ left, p (w ++ s) = some (y, left) := by
  revert w rest
  refine replaceAll_induction (p := q) (motive := fun s edited => ∀ (w : List Char) {rest : List Char},
    p (w ++ edited) = some (y, rest) → ∃ left, p (w ++ s) = some (y, left)) edits.reads ?nil ?kept
    ?found s
  case nil => exact fun w rest found => ⟨rest, found⟩
  case kept =>
    intro c s _ ih w rest found
    rw [List.append_cons] at found ⊢
    exact ih _ found
  case found =>
    intro m s x written _ w rest found
    obtain ⟨noSquare, u, v, angled⟩ := edits.writes written
    exact freezes.before noSquare angled found _

/-- After an edit nothing is found that the edit would have passed over. -/
theorem spent_replaceAll (freezes : FreezesArrays p) (edits : FreezesArrays q)
    (only : ∀ t, t <:+ s → q t = none → p t = none) : Spent p (replaceAll (fun _ => q) s) := by
  revert only
  refine replaceAll_induction (p := q) (motive := fun s edited =>
    (∀ t, t <:+ s → q t = none → p t = none) → Spent p edited) edits.reads ?nil ?kept ?found s
  case nil =>
    intro _ t ends
    rw [List.suffix_nil.mp ends, freezes.nil]
  case kept =>
    intro c s passed ih only t ends
    rcases List.suffix_cons_iff.mp ends with rfl | ends
    · cases found : p (c :: replaceAll (fun _ => q) s) with
      | none => rfl
      | some result =>
        obtain ⟨left, again⟩ := freezes.original edits s [c] found
        rw [List.singleton_append, only _ List.suffix_rfl passed] at again
        cases again
    · exact ih (fun t ends => only t (ends.trans (List.suffix_cons c s))) t ends
  case found =>
    rintro m s x written ih only t ⟨u, split⟩
    have others := ih fun t ends => only t (ends.trans (List.suffix_append m s))
    obtain ⟨noSquare, a, b, angled⟩ := edits.writes written
    rcases List.append_eq_append_iff.mp split with ⟨x', whole, rfl⟩ | ⟨u', rfl, ends⟩
    · -- The rest begins in what was written, which ends with an angle bracket.
      rcases List.eq_nil_or_concat x' with rfl | ⟨x', c, rfl⟩
      · exact others _ List.suffix_rfl
      · obtain rfl : c = '>' := by
          have last : u ++ x' ++ [c] = a ++ '<' :: b ++ ['>'] := by simpa [whole] using angled
          exact List.singleton_inj.mp (List.append_inj_right' last rfl)
        rw [List.concat_eq_append, List.append_assoc, List.singleton_append]
        exact freezes.inside fun member => noSquare (by simp [whole, member])
    · exact others t ⟨u', ends.symm⟩

/-- A text whose last character cannot stand in an array is edited on its own. -/
theorem FreezesArrays.turns (freezes : FreezesArrays p) (last : ∀ c ∈ s.getLast?, inArray c = false) :
    Turns (fun _ => p) s (replaceAll (fun _ => p) s) := by
  revert last
  refine replaceAll_induction (motive := fun s edited => (∀ c ∈ s.getLast?, inArray c = false) →
    Turns (fun _ => p) s edited) freezes.reads ?nil ?kept ?found s
  case nil => exact fun _ => .nil
  case kept =>
    intro c s passed ih last
    refine turns_kept (fun _ rest => ?_) (ih fun d ends => last d (by rw [List.getLast?_cons, ends]; rfl))
    cases found : p (c :: (s ++ rest)) with
    | none => rfl
    | some result =>
      -- The find cannot contain the last character, so it ends in the text.
      obtain ⟨m, split, all, again⟩ := freezes.finds found
      have outside := last _ (List.getLast?_eq_some_getLast (List.cons_ne_nil c s))
      have shorter : ¬ c :: s <+: m := fun longer =>
        not_mem_of_inArray all outside (longer.subset (List.getLast_mem _))
      rw [← List.cons_append] at split
      rcases List.append_eq_append_iff.mp split with ⟨w, whole, -⟩ | ⟨w, whole, behind⟩
      · exact absurd ⟨w, whole.symm⟩ shorter
      · cases w with
        | nil => exact absurd ⟨[], by simpa using whole⟩ shorter
        | cons d w =>
          obtain ⟨rfl, -⟩ := List.cons.inj behind
          rw [whole, again w] at passed
          cases passed
  case found =>
    intro m s x written ih last
    obtain ⟨w, split, -, again⟩ := freezes.finds written
    obtain rfl : m = w ++ [']'] := by
      rw [List.append_cons] at split
      exact List.append_cancel_right split
    refine (turns_found (by simp) fun _ rest => by simpa using again rest).append (ih ?_)
    exact fun c ends => last c (by rw [List.getLast?_append, ends]; rfl)

theorem FreezesArrays.replaceAll_ne_nil (freezes : FreezesArrays p) (nonempty : s ≠ []) :
    replaceAll (fun _ => p) s ≠ [] := by
  revert nonempty
  refine replaceAll_induction (motive := fun s edited => s ≠ [] → edited ≠ []) freezes.reads ?nil ?kept
    ?found s
  case nil => exact id
  case kept => exact fun _ _ _ => List.cons_ne_nil _ _
  case found =>
    intro m s x written _ _
    obtain ⟨-, u, v, rfl⟩ := freezes.writes written
    simp

/-- After the edit the last character cannot stand in an array either. -/
theorem FreezesArrays.getLast? (freezes : FreezesArrays p)
    (last : ∀ c ∈ s.getLast?, inArray c = false) :
    ∀ c ∈ (replaceAll (fun _ => p) s).getLast?, inArray c = false := by
  revert last
  refine replaceAll_induction (motive := fun s edited => (∀ c ∈ s.getLast?, inArray c = false) →
    ∀ c ∈ edited.getLast?, inArray c = false) freezes.reads ?nil ?kept ?found s
  case nil => exact id
  case kept =>
    intro c s _ ih last
    by_cases empty : s = []
    · rwa [empty] at last ⊢
    · rw [← List.singleton_append, List.getLast?_append_of_ne_nil _ empty] at last
      rw [← List.singleton_append, List.getLast?_append_of_ne_nil _ (freezes.replaceAll_ne_nil empty)]
      exact ih last
  case found =>
    intro m s x written ih last
    by_cases empty : s = []
    -- What is written at the end of the text ends in an angle bracket.
    · obtain ⟨-, u, v, rfl⟩ := freezes.writes written
      have final : (u ++ '<' :: (v ++ ['>'])).getLast? = some '>' := by
        rw [← List.cons_append, ← List.append_assoc, List.getLast?_concat]
      have none : replaceAll (fun _ => p) [] = [] := rfl
      rw [empty, none, List.append_nil, final]
      rintro _ ⟨⟩
      decide
    · rw [List.getLast?_append_of_ne_nil _ empty] at last
      rw [List.getLast?_append_of_ne_nil _ (freezes.replaceAll_ne_nil empty)]
      exact ih last

/-! ## The three edits -/

theorem foldCase_eq_iff {c d : Char} (plain : d.toNat < 128 ∧ d ≠ 's' ∧ d ≠ 'k') :
    foldCase c = d ↔ c.toLower = d := by
  have outside {e : Char} (far : 128 ≤ e.toNat) : e ≠ d := by
    rintro rfl
    omega
  rw [foldCase]
  -- Outside ASCII only the long s and the Kelvin sign are folded into it.
  split_ifs with longS kelvin
  · obtain rfl : c = '\u017f' := Char.toNat_inj.mp (by simpa using longS)
    exact iff_of_false (Ne.symm plain.2.1) (outside (by decide))
  · obtain rfl : c = '\u212a' := Char.toNat_inj.mp (by simpa using kelvin)
    exact iff_of_false (Ne.symm plain.2.2) (outside (by decide))
  · rfl

/-- A word of ASCII without the two letters that others fold into. -/
def isPlainWord (word : List Char) : Bool :=
  word.all fun d => decide (d.toNat < 128 ∧ d ≠ 's' ∧ d ≠ 'k')

theorem map_foldCase_eq_iff {word : List Char} (plain : isPlainWord word = true) {u : List Char} :
    u.map foldCase = word ↔ u.map Char.toLower = word := by
  induction u generalizing word with
  | nil => rfl
  | cons c u ih =>
    cases word with
    | nil => simp
    | cons d word =>
      simp only [isPlainWord, List.all_cons, Bool.and_eq_true, decide_eq_true_eq] at plain
      rw [List.map_cons, List.map_cons, List.cons.injEq, List.cons.injEq, foldCase_eq_iff plain.1,
        ih plain.2]

theorem arrayAttribute_eq_some_iff {x rest : List Char} :
    arrayAttribute s = some (x, rest) ↔ ∃ lead type, s = lead ++ (type ++ ("[]".toList ++ rest)) ∧
      lead.map Char.toLower = "attribute ".toList ∧ type ≠ [] ∧ (∀ c ∈ type, isWord c = true) ∧
      x = "attribute ".toList ++ frozen type := by
  have plain : isPlainWord "attribute ".toList = true := by decide
  constructor
  · intro found
    obtain ⟨lead, type, split, folded, rest⟩ := arrayAttribute_eq_some found
    exact ⟨lead, type, split, (map_foldCase_eq_iff plain).mp folded, rest⟩
  · rintro ⟨lead, type, rfl, folded, nonempty, words, rfl⟩
    have readsLead := exactlyFolded_append lead (type ++ ("[]".toList ++ rest))
    have readsType : takeWhile1 isWord (type ++ ("[]".toList ++ rest)) =
        some (type, "[]".toList ++ rest) :=
      takeWhile1_run nonempty words (by simp [show isWord '[' = false by decide])
    rw [(map_foldCase_eq_iff plain).mpr folded] at readsLead
    simp only [arrayAttribute, bind_apply, readsLead, readsType, Option.bind_some]
    rfl

theorem arrayOf_eq_some_iff {word x rest : List Char} (plain : isPlainWord word = true) :
    arrayOf word s = some (x, rest) ↔ ∃ type, s = type ++ ("[]".toList ++ rest) ∧
      type.map Char.toLower = word ∧ x = frozen word := by
  constructor
  · intro found
    obtain ⟨type, split, folded, written⟩ := arrayOf_eq_some found
    exact ⟨type, split, (map_foldCase_eq_iff plain).mp folded, written⟩
  · rintro ⟨type, rfl, folded, rfl⟩
    have reads := exactlyFolded_append (type ++ "[]".toList) rest
    rw [List.map_append, (map_foldCase_eq_iff plain).mpr folded, List.append_assoc] at reads
    have brackets : "[]".toList.map foldCase = "[]".toList := by decide
    rw [brackets] at reads
    simp only [arrayOf, bind_apply, reads, Option.bind_some]
    rfl

theorem frozen_eq (type : List Char) :
    frozen type = "FrozenArray".toList ++ '<' :: (type ++ ['>']) := by
  unfold frozen
  simp

theorem not_mem_frozen_iff {type : List Char} : ']' ∉ frozen type ↔ ']' ∉ type := by
  rw [frozen_eq]
  simp

theorem inArray_of_inStatement {m : List Char} (all : ∀ c ∈ m, inStatement c = true) :
    ∀ c ∈ m, inArray c = true :=
  fun c member => by simp [inArray, all c member]

theorem freezesArrays_arrayAttribute : FreezesArrays arrayAttribute where
  finds found := by
    obtain ⟨lead, type, rfl, folded, nonempty, words, rfl⟩ := arrayAttribute_eq_some_iff.mp found
    have letters : lead.map foldCase = "attribute ".toList :=
      (map_foldCase_eq_iff (by decide)).mpr folded
    refine ⟨lead ++ (type ++ ['[']), by simp, ?_, fun after => ?_⟩
    · rw [List.forall_mem_append, List.forall_mem_append]
      exact ⟨inArray_of_inStatement (inStatement_of_folded letters (by decide)),
        fun c member => by simp [inArray, words c member], by simp [inArray]⟩
    · exact arrayAttribute_eq_some_iff.mpr ⟨lead, type, by simp, folded, nonempty, words, rfl⟩
  writes found := by
    obtain ⟨lead, type, -, -, -, words, rfl⟩ := arrayAttribute_eq_some_iff.mp found
    have missing : ']' ∉ type := fun member => absurd (words _ member) (by decide)
    refine ⟨?_, "attribute ".toList ++ "FrozenArray".toList, type, by rw [frozen_eq]; simp⟩
    rw [List.mem_append]
    exact not_or.mpr ⟨by decide, not_mem_frozen_iff.mpr missing⟩

theorem freezesArrays_arrayOf {word : List Char} (plain : isPlainWord word = true)
    (letters : word.all Char.isAlphanum = true) : FreezesArrays (arrayOf word) where
  finds found := by
    obtain ⟨type, rfl, folded, rfl⟩ := (arrayOf_eq_some_iff plain).mp found
    have known : word.all (fun c => c.isAlphanum || c == ' ') = true := by
      rw [List.all_eq_true] at letters ⊢
      exact fun c member => by rw [letters c member, Bool.true_or]
    refine ⟨type ++ ['['], by simp, ?_, fun after => ?_⟩
    · rw [List.forall_mem_append]
      exact ⟨inArray_of_inStatement (inStatement_of_folded ((map_foldCase_eq_iff plain).mpr folded)
        known), by simp [inArray]⟩
    · exact (arrayOf_eq_some_iff plain).mpr ⟨type, by simp, folded, rfl⟩
  writes found := by
    obtain ⟨type, -, -, rfl⟩ := (arrayOf_eq_some_iff plain).mp found
    have missing : ']' ∉ word := fun member => absurd (List.all_eq_true.mp letters _ member) (by decide)
    exact ⟨not_mem_frozen_iff.mpr missing, "FrozenArray".toList, word, frozen_eq word⟩

theorem freezesArrays_float : FreezesArrays (arrayOf "float".toList) :=
  freezesArrays_arrayOf (by decide) (by decide)

theorem freezesArrays_long : FreezesArrays (arrayOf "long".toList) :=
  freezesArrays_arrayOf (by decide) (by decide)

/-! ## The whole -/

/-- A text that looks like an array: an attribute of one word, `float` or `long`, in any case and with
    brackets behind. -/
inductive IsArray : List Char → Prop where
  | ofAttribute {lead type : List Char} (folded : lead.map Char.toLower = "attribute ".toList)
      (nonempty : type ≠ []) (words : ∀ c ∈ type, isWord c = true) :
      IsArray (lead ++ (type ++ "[]".toList))
  | ofFloat {type : List Char} (folded : type.map Char.toLower = "float".toList) :
      IsArray (type ++ "[]".toList)
  | ofLong {type : List Char} (folded : type.map Char.toLower = "long".toList) :
      IsArray (type ++ "[]".toList)

/-- A text in which none of the three edits finds anything. -/
structure Frozen (s : List Char) : Prop where
  attributes : Spent arrayAttribute s
  floats : Spent (arrayOf "float".toList) s
  longs : Spent (arrayOf "long".toList) s

theorem frozen_iff {s : List Char} : Frozen s ↔ ∀ t, t <:+: s → ¬ IsArray t := by
  constructor
  · rintro spent t ⟨u, v, rfl⟩ array
    have unfound {p : Parser (List Char)} (spent : Spent p (u ++ t ++ v)) {x : List Char} :
        p (t ++ v) ≠ some (x, v) := by
      intro found
      rw [spent _ ⟨u, (List.append_assoc ..).symm⟩] at found
      cases found
    -- Each kind of array is found by one of the edits.
    cases array with
    | @ofAttribute lead type folded nonempty words =>
      exact unfound spent.attributes (arrayAttribute_eq_some_iff.mpr
        ⟨lead, type, by simp, folded, nonempty, words, rfl⟩)
    | @ofFloat type folded =>
      exact unfound spent.floats ((arrayOf_eq_some_iff (by decide)).mpr
        ⟨type, by simp, folded, rfl⟩)
    | @ofLong type folded =>
      exact unfound spent.longs ((arrayOf_eq_some_iff (by decide)).mpr
        ⟨type, by simp, folded, rfl⟩)
  · intro none
    have spent {p : Parser (List Char)} (finds : ∀ {t x rest}, p t = some (x, rest) →
        ∃ a, IsArray a ∧ t = a ++ rest) : Spent p s := by
      intro t ends
      cases found : p t with
      | none => rfl
      | some result =>
        obtain ⟨a, array, rfl⟩ := finds found
        exact absurd array (none a (List.IsInfix.trans (List.prefix_append a _).isInfix ends.isInfix))
    refine ⟨spent fun found => ?_, spent fun found => ?_, spent fun found => ?_⟩
    · obtain ⟨lead, type, rfl, folded, nonempty, words, -⟩ := arrayAttribute_eq_some_iff.mp found
      exact ⟨_, .ofAttribute folded nonempty words, by simp⟩
    · obtain ⟨type, rfl, folded, -⟩ := (arrayOf_eq_some_iff (by decide)).mp found
      exact ⟨_, .ofFloat folded, by simp⟩
    · obtain ⟨type, rfl, folded, -⟩ := (arrayOf_eq_some_iff (by decide)).mp found
      exact ⟨_, .ofLong folded, by simp⟩

theorem frozen_of_missing {s : List Char} (missing : '[' ∉ s) : Frozen s := by
  refine frozen_iff.mpr fun t inside array => missing (inside.subset ?_)
  cases array <;> simp

/-- An edit leaves no find of its own. -/
theorem FreezesArrays.spent (freezes : FreezesArrays p) (s : List Char) :
    Spent p (replaceAll (fun _ => p) s) :=
  spent_replaceAll freezes freezes fun _ _ none => none

/-- An edit makes no find for another one. -/
theorem FreezesArrays.keeps (freezes : FreezesArrays p) (edits : FreezesArrays q)
    (spent : Spent p s) : Spent p (replaceAll (fun _ => q) s) :=
  spent_replaceAll freezes edits fun t ends _ => spent t ends

theorem frozen_freezeArrays (s : List Char) : Frozen (freezeArrays s) := by
  have attributes := freezesArrays_arrayAttribute
  have floats := freezesArrays_float
  have longs := freezesArrays_long
  -- Each edit leaves no find of its own, and the later ones make none for it.
  exact ⟨attributes.keeps longs (attributes.keeps floats (attributes.spent s)),
    floats.keeps longs (floats.spent _), longs.spent _⟩

theorem Frozen.freezeArrays {s : List Char} (spent : Frozen s) : freezeArrays s = s := by
  rw [Emscripten.freezeArrays, spent.attributes.replaceAll, spent.floats.replaceAll,
    spent.longs.replaceAll]

/-- The arrays of a text whose last character cannot stand in an array are frozen on their own. -/
theorem freezeArrays_append {a : List Char} (last : ∀ c ∈ a.getLast?, inArray c = false)
    (b : List Char) : freezeArrays (a ++ b) = freezeArrays a ++ freezeArrays b := by
  have attributes := freezesArrays_arrayAttribute
  have floats := freezesArrays_float
  simp only [freezeArrays, (attributes.turns last).replaceAll_append,
    (floats.turns (attributes.getLast? last)).replaceAll_append,
    (freezesArrays_long.turns (floats.getLast? (attributes.getLast? last))).replaceAll_append]

/-- After the arrays of a text are frozen there is nothing in it that looks like an array, so that
    freezing them again changes nothing; the texts that stay as they are are those without arrays. -/
theorem freezeArrays_complete (s : List Char) :
    (∀ t, t <:+: freezeArrays s → ¬ IsArray t) ∧
      (freezeArrays s = s ↔ ∀ t, t <:+: s → ¬ IsArray t) ∧
      freezeArrays (freezeArrays s) = freezeArrays s := by
  have done := frozen_freezeArrays s
  refine ⟨frozen_iff.mp done, ⟨fun same => ?_, fun none => (frozen_iff.mpr none).freezeArrays⟩,
    done.freezeArrays⟩
  rw [same] at done
  exact frozen_iff.mp done

end IdlTypings.Dialect.Emscripten
