import Mathlib
import IdlTypings.TypeScript.Printer

/-! # String literals say where they end

A string literal is read from its opening quote to the first quote that no unpaired backslash
precedes, and the escapes in between are undone.

* `Delimits` is the condition on what stands between the two quotes, by the backslashes right before
  each quote: an odd number of them escapes the quote.
* `splitLiteral` finds the end from left to right.  `splitLiteral_eq_some_iff` says that it looks for
  exactly that condition.
* `literalText_delimited` says that a literal is read back whatever follows it.
-/

namespace IdlTypings.TypeScript

/-! ## The end of a literal -/

def slashesAtEnd (s : List Char) : Nat :=
  (s.reverse.takeWhile (· == '\\')).length

@[simp] theorem slashesAtEnd_concat (s : List Char) (c : Char) :
    slashesAtEnd (s ++ [c]) = if c = '\\' then slashesAtEnd s + 1 else 0 := by
  by_cases slash : c = '\\' <;> simp [slashesAtEnd, slash]

/-- A text at whose end a quote closes a literal, while the quotes inside do not: an odd number of
    backslashes stands before each of them.  Some text may stand before. -/
structure DelimitsAfter (before body : List Char) : Prop where
  closed : Even (slashesAtEnd (before ++ body))
  inner : ∀ front back, body = front ++ '\"' :: back → Odd (slashesAtEnd (before ++ front))

/-- What stands between the quotes of a literal. -/
abbrev Delimits (body : List Char) : Prop :=
  DelimitsAfter [] body

/-- What stands before the closing quote of a literal, and what follows it.  `unpaired` says whether
    a backslash is waiting for the character that it escapes. -/
def bodyAndRest : (unpaired : Bool) → List Char → Option (List Char × List Char)
  | _, [] => none
  | unpaired, c :: s =>
    if c == '\"' && !unpaired then some ([], s)
    else (bodyAndRest (c == '\\' && !unpaired) s).map fun found => (c :: found.1, found.2)

/-- What stands between the quotes of the literal at the start of a text, and what follows it. -/
def splitLiteral : List Char → Option (List Char × List Char)
  | '\"' :: s => bodyAndRest false s
  | _ => none

theorem delimitsAfter_cons {before body : List Char} {c : Char} :
    DelimitsAfter before (c :: body) ↔
      (c = '\"' → Odd (slashesAtEnd before)) ∧ DelimitsAfter (before ++ [c]) body := by
  constructor
  · rintro ⟨closed, inner⟩
    refine ⟨?_, by simpa using closed, ?_⟩
    · rintro rfl
      simpa using inner [] body rfl
    · rintro front back rfl
      simpa using inner (c :: front) back rfl
  · rintro ⟨first, closed, inner⟩
    refine ⟨by simpa using closed, ?_⟩
    intro front back parts
    cases front with
    | nil =>
      obtain ⟨rfl, -⟩ := List.cons.inj parts
      simpa using first rfl
    | cons d front =>
      obtain ⟨rfl, rest⟩ := List.cons.inj parts
      simpa using inner front back rest

theorem delimitsAfter_nil {before : List Char} :
    DelimitsAfter before [] ↔ ¬ Odd (slashesAtEnd before) := by
  rw [Nat.not_odd_iff_even]
  refine ⟨fun delimits => by simpa using delimits.closed, fun closed => ⟨by simpa using closed, ?_⟩⟩
  intro front back parts
  simp at parts

/-- A backslash is waiting after a text if an odd number of them ends it. -/
theorem waiting_concat {unpaired : Bool} {before : List Char}
    (waiting : unpaired = true ↔ Odd (slashesAtEnd before)) (c : Char) :
    (c == '\\' && !unpaired) = true ↔ Odd (slashesAtEnd (before ++ [c])) := by
  by_cases slash : c = '\\'
  · simp [slash, Nat.odd_add_one, ← waiting]
  · simp [slash]

theorem bodyAndRest_inside {unpaired : Bool} {c : Char} (inside : c = '\"' → unpaired = true)
    (s : List Char) :
    bodyAndRest unpaired (c :: s) =
      (bodyAndRest (c == '\\' && !unpaired) s).map fun found => (c :: found.1, found.2) := by
  have goes : (c == '\"' && !unpaired) = false := by
    cases unpaired with
    | true => simp
    | false => simpa using inside
  rw [bodyAndRest, goes]
  rfl

theorem delimitsAfter_of_bodyAndRest {unpaired : Bool} {before s body rest : List Char}
    (waiting : unpaired = true ↔ Odd (slashesAtEnd before))
    (found : bodyAndRest unpaired s = some (body, rest)) :
    s = body ++ '\"' :: rest ∧ DelimitsAfter before body := by
  induction s generalizing unpaired before body with
  | nil => cases found
  | cons c s ih =>
    -- A quote closes the literal unless an unpaired backslash stands before it.
    by_cases closes : c = '\"' ∧ unpaired = false
    · obtain ⟨rfl, rfl⟩ := closes
      cases found
      exact ⟨rfl, delimitsAfter_nil.2 (by simp [← waiting])⟩
    · have inside : c = '\"' → unpaired = true := by simpa using closes
      rw [bodyAndRest_inside inside, Option.map_eq_some_iff] at found
      obtain ⟨⟨others, left⟩, found, same⟩ := found
      cases same
      obtain ⟨parts, delimits⟩ := ih (waiting_concat waiting c) found
      exact ⟨congrArg (c :: ·) parts,
        delimitsAfter_cons.2 ⟨fun quote => waiting.1 (inside quote), delimits⟩⟩

theorem bodyAndRest_of_delimitsAfter {unpaired : Bool} {before body : List Char}
    (waiting : unpaired = true ↔ Odd (slashesAtEnd before)) (delimits : DelimitsAfter before body)
    (rest : List Char) : bodyAndRest unpaired (body ++ '\"' :: rest) = some (body, rest) := by
  induction body generalizing unpaired before with
  | nil =>
    obtain rfl : unpaired = false := by simpa [← waiting] using delimitsAfter_nil.1 delimits
    rfl
  | cons c body ih =>
    obtain ⟨first, others⟩ := delimitsAfter_cons.1 delimits
    have inside : c = '\"' → unpaired = true := fun quote => waiting.2 (first quote)
    rw [List.cons_append, bodyAndRest_inside inside, ih (waiting_concat waiting c) others]
    rfl

/-- The end of a literal is the first quote that no unpaired backslash precedes. -/
theorem splitLiteral_eq_some_iff {text body rest : List Char} :
    splitLiteral text = some (body, rest) ↔
      text = '\"' :: (body ++ '\"' :: rest) ∧ Delimits body := by
  have waiting : false = true ↔ Odd (slashesAtEnd []) := by simp [slashesAtEnd]
  constructor
  · intro found
    rw [splitLiteral.eq_def] at found
    split at found
    case h_1 s =>
      obtain ⟨parts, delimits⟩ := delimitsAfter_of_bodyAndRest waiting found
      exact ⟨congrArg ('\"' :: ·) parts, delimits⟩
    case h_2 => cases found
  · rintro ⟨rfl, delimits⟩
    exact bodyAndRest_of_delimitsAfter waiting delimits rest

/-! ## Escapes undone -/

/-- Neither the end of a line nor a tab. -/
abbrev Solid (c : Char) : Prop :=
  c ≠ '\n' ∧ c ≠ '\r' ∧ c ≠ '\t'

/-- The character that a backslash and another one stand for. -/
def unescapeChar : Char → Option Char
  | '\"' => some '\"'
  | '\\' => some '\\'
  | 'n' => some '\n'
  | 'r' => some '\r'
  | 't' => some '\t'
  | _ => none

/-- A text without its escapes. -/
def unescape : List Char → Option (List Char)
  | [] => some []
  | '\\' :: c :: s => do
    let d ← unescapeChar c
    let rest ← unescape s
    return d :: rest
  | c :: s => do
    if c == '\\' then none
    let rest ← unescape s
    return c :: rest

/-- A character is written with a backslash, or as it is. -/
theorem escape_cases (c : Char) :
    (∃ d, escape c = ['\\', d] ∧ unescapeChar d = some c ∧ Solid d) ∨
      escape c = [c] ∧ c ≠ '\"' ∧ c ≠ '\\' ∧ Solid c := by
  unfold escape
  simp only [beq_iff_eq]
  split_ifs with quotes slash feed ret tab
  · exact .inl ⟨'\"', rfl, by rw [quotes]; rfl, by decide⟩
  · exact .inl ⟨'\\', rfl, by rw [slash]; rfl, by decide⟩
  · exact .inl ⟨'n', rfl, by rw [feed]; rfl, by decide⟩
  · exact .inl ⟨'r', rfl, by rw [ret]; rfl, by decide⟩
  · exact .inl ⟨'t', rfl, by rw [tab]; rfl, by decide⟩
  · exact .inr ⟨rfl, quotes, slash, feed, ret, tab⟩

theorem unescape_escapes (s : List Char) : unescape (s.flatMap escape) = some s := by
  induction s with
  | nil => rfl
  | cons c s ih =>
    rw [List.flatMap_cons]
    rcases escape_cases c with ⟨d, written, stands, -⟩ | ⟨written, -, slash, -⟩
    · rw [written]
      simp [unescape, stands, ih]
    · rw [written]
      simp [unescape, slash, ih]

/-- The quote that ends a literal is not one of those that its string is written with. -/
theorem bodyAndRest_escapes (s rest : List Char) :
    bodyAndRest false (s.flatMap escape ++ '\"' :: rest) = some (s.flatMap escape, rest) := by
  induction s with
  | nil => simp [bodyAndRest]
  | cons c s ih =>
    rw [List.flatMap_cons]
    rcases escape_cases c with ⟨d, written, -⟩ | ⟨written, quotes, slash, -⟩
    · rw [written]
      simp [bodyAndRest, ih]
    · have other : (c == '\\') = false := by simpa using slash
      rw [written]
      simp [bodyAndRest, quotes, other, ih]

theorem solid_escapes (s : List Char) : ∀ c ∈ s.flatMap escape, Solid c := by
  intro c member
  obtain ⟨d, -, written⟩ := List.mem_flatMap.1 member
  rcases escape_cases d with ⟨mark, escaped, -, solid⟩ | ⟨plain, -, -, solid⟩
  · rw [escaped] at written
    rcases List.mem_pair.1 written with rfl | rfl
    · decide
    · exact solid
  · rw [plain, List.mem_singleton] at written
    exact written ▸ solid

/-- A string literal is read to its own last quote, whatever follows it, and to no other quote; its
    escapes undone, it is the string again; and neither the end of a line nor a tab is in it. -/
theorem literalText_delimited (s : String) (rest : List Char) :
    ∃ body, (literalText s).toList = '\"' :: (body ++ ['\"']) ∧
      splitLiteral ((literalText s).toList ++ rest) = some (body, rest) ∧
      (∀ body' rest', (literalText s).toList ++ rest = '\"' :: (body' ++ '\"' :: rest') ∧
        Delimits body' ↔ body' = body ∧ rest' = rest) ∧
      unescape body = some s.toList ∧
      ∀ c ∈ (literalText s).toList, Solid c := by
  have layout : (literalText s).toList = '\"' :: (s.toList.flatMap escape ++ ['\"']) := by
    simp [literalText]
  have read : splitLiteral ((literalText s).toList ++ rest) =
      some (s.toList.flatMap escape, rest) := by
    rw [layout]
    simpa [splitLiteral] using bodyAndRest_escapes s.toList rest
  refine ⟨s.toList.flatMap escape, layout, read, ?_, unescape_escapes s.toList, ?_⟩
  · intro body' rest'
    rw [← splitLiteral_eq_some_iff, read]
    simp [eq_comm]
  · rw [layout, List.forall_mem_cons, List.forall_mem_append, List.forall_mem_singleton]
    exact ⟨by decide, solid_escapes s.toList, by decide⟩

end IdlTypings.TypeScript
