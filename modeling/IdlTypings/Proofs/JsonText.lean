import IdlTypings.Json.Reader
import IdlTypings.Proofs.ParserRules

/-! # Reading back pretty JSON text

What `Json.write` puts down, the readers of `Json.Reader` take up again:

* `string_quote` for strings of any characters;
* `array_write` and `object_write` for arrays and objects.  They hold for every step that reads one
  part at a time, and follow it to its first fault;
* `value_write` for whole values.  A value is read back where it nests no deeper than the limit; a
  deeper one is refused.

Numbers are left out: their text does not say where it ends, and the IDL tree has none.
-/

namespace IdlTypings.Json

/-! ## Values without numbers -/

mutual

/-- No number stands anywhere in a value. -/
def NumberFree : Json → Prop
  | .number _ => False
  | .array items => NumberFreeItems items
  | .object entries => NumberFreeEntries entries
  | _ => True

/-- No number stands anywhere in some values. -/
def NumberFreeItems : List Json → Prop
  | [] => True
  | item :: items => item.NumberFree ∧ NumberFreeItems items

/-- No number stands anywhere in the values of some entries. -/
def NumberFreeEntries : List (String × Json) → Prop
  | [] => True
  | (_, value) :: entries => value.NumberFree ∧ NumberFreeEntries entries

end

theorem numberFreeItems_iff {items : List Json} :
    NumberFreeItems items ↔ ∀ item ∈ items, item.NumberFree := by
  induction items with
  | nil => simp [NumberFreeItems]
  | cons item items ih => simp [NumberFreeItems, ih]

theorem numberFreeEntries_iff {entries : List (String × Json)} :
    NumberFreeEntries entries ↔ ∀ entry ∈ entries, entry.2.NumberFree := by
  induction entries with
  | nil => simp [NumberFreeEntries]
  | cons entry entries ih => simp [NumberFreeEntries, ih]

theorem depthItems_le_iff {items : List Json} {n : Nat} :
    depthItems items ≤ n ↔ ∀ item ∈ items, item.depth ≤ n := by
  induction items with
  | nil => simp [depthItems]
  | cons item items ih => simp [depthItems, ih]

theorem depthEntries_le_iff {entries : List (String × Json)} {n : Nat} :
    depthEntries entries ≤ n ↔ ∀ entry ∈ entries, entry.2.depth ≤ n := by
  induction entries with
  | nil => simp [depthEntries]
  | cons entry entries ih => simp [depthEntries, ih]

namespace Reader

variable {α β σ : Type}

/-! ## Running a reader -/

@[simp] theorem pure_apply (x : α) (s : List Char) : (pure x : Reader α) s = .ok (x, s) := rfl

theorem bind_apply (r : Reader α) (f : α → Reader β) (s : List Char) :
    (r >>= f) s = (r s).bind fun found => f found.1 found.2 := rfl

theorem bind_ok {r : Reader α} {x : α} {s t : List Char} (reads : r s = .ok (x, t))
    (f : α → Reader β) : (r >>= f) s = f x t := by
  rw [bind_apply, reads]
  rfl

theorem bind_error {r : Reader α} {fault : Fault} {s : List Char} (fails : r s = .error fault)
    (f : α → Reader β) : (r >>= f) s = .error fault := by
  rw [bind_apply, fails]
  rfl

/-- A reader whose outcome is known apart from the text that it leaves. -/
theorem bind_outcome {r : Reader α} {outcome : Except Fault α} {s t : List Char}
    (reads : r s = outcome.map (·, t)) (f : α → Reader β) :
    (r >>= f) s = outcome.bind fun x => f x t := by
  cases outcome with
  | error fault => exact bind_error reads f
  | ok x => exact bind_ok reads f

theorem ofParser_some {p : Parser α} {x : α} {s t : List Char} (reads : p s = some (x, t)) :
    ofParser p s = .ok (x, t) := by
  rw [ofParser, reads]

theorem ofParser_none {p : Parser α} {s : List Char} (fails : p s = none) :
    ofParser p s = .error .malformed := by
  rw [ofParser, fails]

/-! ## Strings -/

theorem hexValue_hexDigit : ∀ n < 16, hexValue? (hexDigit n) = some n := by
  decide

theorem hexUnit_below {n : Nat} (small : n < 32) (rest : List Char) :
    hexUnit ('0' :: '0' :: hexDigit (n / 16) :: hexDigit (n % 16) :: rest) = some (n, rest) := by
  have zero : hexValue? '0' = some 0 := by decide
  have high := hexValue_hexDigit (n / 16) (by omega)
  have low := hexValue_hexDigit (n % 16) (by omega)
  have whole : n / 16 * 16 + n % 16 = n := by omega
  simp [hexUnit, zero, high, low, whole]

theorem stringChar_backslash (s : List Char) : stringChar ('\\' :: s) = escaped s := by
  cases h : escaped s <;> simp [stringChar, h]

theorem stringChar_plain {c : Char} (notQuote : c ≠ '\"') (notSlash : c ≠ '\\')
    (notLow : 32 ≤ c.toNat) (rest : List Char) : stringChar (c :: rest) = some (c, rest) := by
  simp [stringChar, notQuote, notSlash, notSlash.symm, notLow]

theorem escaped_unicode {c : Char} (low : c.toNat < 32) (rest : List Char) :
    escaped ('u' :: '0' :: '0' :: hexDigit (c.toNat / 16) :: hexDigit (c.toNat % 16) :: rest) =
      some (c, rest) := by
  have notHigh : ¬ 0xD800 ≤ c.toNat := by omega
  have notLow : ¬ 0xDC00 ≤ c.toNat := by omega
  simp [escaped, unicodeEscape, hexUnit_below low, notHigh, notLow, Char.ofNat_toNat]

/-- Every character is read back from its escape. -/
theorem stringChar_escape (c : Char) (rest : List Char) :
    stringChar (escape c ++ rest) = some (c, rest) := by
  have ofCode : ∀ n, c.toNat = n → Char.ofNat n = c := by
    intro n code
    rw [← code, Char.ofNat_toNat]
  unfold escape
  simp only [beq_iff_eq]
  split_ifs with quotes slash back tab feed form ret low
  · simp [stringChar_backslash, escaped, quotes]
  · simp [stringChar_backslash, escaped, slash]
  · simp [stringChar_backslash, escaped, ← ofCode 8 back]
  · simp [stringChar_backslash, escaped, ← ofCode 9 tab]
  · simp [stringChar_backslash, escaped, ← ofCode 10 feed]
  · simp [stringChar_backslash, escaped, ← ofCode 12 form]
  · simp [stringChar_backslash, escaped, ← ofCode 13 ret]
  · simp only [List.cons_append, List.nil_append, stringChar_backslash]
    exact escaped_unicode low rest
  · exact stringChar_plain quotes slash (by omega) rest

theorem escape_ne_nil (c : Char) : escape c ≠ [] := by
  unfold escape
  split_ifs <;> simp

theorem rounds_stringChar (s rest : List Char) :
    Parser.Rounds stringChar (s.flatMap escape ++ rest) s rest :=
  Parser.rounds_flatMap stringChar_escape escape_ne_nil s rest

theorem stringText_quote (s : String) (rest : List Char) :
    stringText ((quote s).toList ++ rest) = some (s, rest) := by
  have stops : stringChar ('\"' :: rest) = none := by simp [stringChar]
  have body := Parser.many_of_rounds (rounds_stringChar s.toList ('\"' :: rest)) stops
  simp [stringText, quote, body]

theorem string_quote (s : String) (rest : List Char) :
    string ((quote s).toList ++ rest) = .ok (s, rest) :=
  ofParser_some (stringText_quote s rest)

theorem quote_cons (s : String) :
    ∃ body, (quote s).toList = '\"' :: body := by
  simp [quote]

/-! ## Blanks -/

theorem dropWhile_blank {pre : List Char} (blank : ∀ c ∈ pre, isBlank c = true) {c : Char}
    (solid : isBlank c = false) (s : List Char) :
    (pre ++ c :: s).dropWhile isBlank = c :: s := by
  rw [List.dropWhile_append_of_pos blank, List.dropWhile_cons_of_neg (by simp [solid])]

theorem blank_newLine (level : Nat) : ∀ c ∈ (newLine level).toList, isBlank c = true := by
  intro c member
  simp only [newLine, String.toList_append, String.toList_ofList, List.mem_append,
    List.mem_replicate] at member
  rcases member with feed | ⟨_, rfl⟩
  · simp_all [isBlank]
  · decide

theorem blanks_before {pre : List Char} (blank : ∀ c ∈ pre, isBlank c = true) {c : Char}
    (solid : isBlank c = false) (s : List Char) : blanks (pre ++ c :: s) = .ok ((), c :: s) := by
  rw [blanks, dropWhile_blank blank solid]

theorem blanks_solid {c : Char} (solid : isBlank c = false) (s : List Char) :
    blanks (c :: s) = .ok ((), c :: s) :=
  blanks_before (List.forall_mem_nil _) solid s

/-- The text of a value begins with a character of its own: neither a blank nor the end of an
    array. -/
theorem write_head {value : Json} (plain : value.NumberFree) (level : Nat) :
    ∃ c body, (write level value).toList = c :: body ∧ isBlank c = false ∧ c ≠ ']' := by
  cases value with
  | null => exact ⟨'n', "ull".toList, by simp [write], rfl, by decide⟩
  | bool value =>
    cases value
    · exact ⟨'f', "alse".toList, by simp [write], rfl, by decide⟩
    · exact ⟨'t', "rue".toList, by simp [write], rfl, by decide⟩
  | number value => exact absurd plain id
  | string value =>
    obtain ⟨body, text⟩ := quote_cons value
    exact ⟨'\"', body, by rw [write, text], rfl, by decide⟩
  | array items =>
    cases items with
    | nil => exact ⟨'[', [']'], by simp [write], rfl, by decide⟩
    | cons item items => exact ⟨'[', _, by simp [write]; rfl, rfl, by decide⟩
  | object entries =>
    cases entries with
    | nil => exact ⟨'\x7b', ['\x7d'], by simp [write], rfl, by decide⟩
    | cons entry entries => exact ⟨'\x7b', _, by simp [write]; rfl, rfl, by decide⟩

/-! ## Arrays and objects -/

theorem blanks_write {pre : List Char} (blank : ∀ c ∈ pre, isBlank c = true) {value : Json}
    (plain : value.NumberFree) (level : Nat) (rest : List Char) :
    blanks (pre ++ ((write level value).toList ++ rest)) =
      .ok ((), (write level value).toList ++ rest) := by
  obtain ⟨c, body, text, solid, -⟩ := write_head plain level
  rw [text]
  exact blanks_before blank solid (body ++ rest)

theorem quote_solid (s : String) (rest : List Char) {pre : List Char}
    (blank : ∀ c ∈ pre, isBlank c = true) :
    blanks (pre ++ ((quote s).toList ++ rest)) = .ok ((), (quote s).toList ++ rest) := by
  obtain ⟨body, text⟩ := quote_cons s
  rw [text]
  exact blanks_before blank (by decide) (body ++ rest)

theorem comma_solid : isBlank ',' = false := by decide

theorem bracket_solid : isBlank ']' = false := by decide

theorem brace_solid : isBlank '\x7d' = false := by decide

theorem mark_cons (c : Char) (s : List Char) :
    ofParser (Parser.exactly [c]) (c :: s) = .ok ((), s) :=
  ofParser_some (by simp)

/-! ### Rows of parts -/

section

variable {text : α → List Char}

/-- The parts of a row after the first, each behind a comma and a new line. -/
def rowTail (level : Nat) (text : α → List Char) (parts : List α) : List Char :=
  parts.flatMap fun part => ',' :: ((newLine level).toList ++ text part)

/-- A row of parts between its marks, one part a line. -/
def row (level : Nat) (text : α → List Char) : List α → List Char
  | [] => []
  | part :: parts =>
    (newLine (level + 1)).toList ++ (text part ++ (rowTail (level + 1) text parts ++
      (newLine level).toList))

theorem length_rowTail (level : Nat) (text : α → List Char) (parts : List α) :
    parts.length ≤ (rowTail level text parts).length := by
  induction parts with
  | nil => exact Nat.zero_le _
  | cons part parts ih =>
    simp only [rowTail, List.flatMap_cons, List.length_append, List.length_cons] at ih ⊢
    omega

/-- What one round of a loop does with a part of a row that ends in front of a mark.  Its outcome is
    that of `f`, and the loop goes on behind a comma. -/
structure Takes (loop : List Char → σ → Reader σ) (f : σ → α → Except Fault σ)
    (text : α → List Char) (close : Char) (part : α) : Prop where
  fault {state : σ} {e : Fault} (fails : f state part = .error e) {pre : List Char}
    (blank : ∀ c ∈ pre, isBlank c = true) (b : Char) (bound rest : List Char) :
    loop (b :: bound) state (pre ++ (text part ++ rest)) = .error e
  comma {state next : σ} (taken : f state part = .ok next) {pre : List Char}
    (blank : ∀ c ∈ pre, isBlank c = true) (b : Char) (bound rest : List Char) :
    loop (b :: bound) state (pre ++ (text part ++ ',' :: rest)) = loop bound next rest
  ends {state next : σ} (taken : f state part = .ok next) {pre : List Char}
    (blank : ∀ c ∈ pre, isBlank c = true) (b : Char) (bound : List Char) (level : Nat)
    (rest : List Char) :
    loop (b :: bound) state (pre ++ (text part ++ ((newLine level).toList ++ close :: rest))) =
      .ok (next, rest)

/-- The parts of a row are read one by one, up to the first fault. -/
theorem row_write {loop : List Char → σ → Reader σ} {f : σ → α → Except Fault σ} {close : Char}
    (level closing : Nat) {part : α} {parts : List α}
    (takes : ∀ part' ∈ part :: parts, Takes loop f text close part') {pre : List Char}
    (blank : ∀ c ∈ pre, isBlank c = true) {bound : List Char} (enough : parts.length < bound.length)
    (state : σ) (rest : List Char) :
    loop bound state (pre ++ (text part ++ (rowTail level text parts ++
      ((newLine closing).toList ++ close :: rest)))) =
      ((part :: parts).foldlM f state).map (·, rest) := by
  -- What is left of the row gets shorter, and the state and the bound change with it.
  induction parts generalizing part pre bound state with
  | nil =>
    obtain ⟨b, bound, rfl⟩ := List.exists_cons_of_length_pos enough
    have first := takes part List.mem_cons_self
    rw [List.foldlM_cons]
    cases folded : f state part with
    | error e => exact first.fault folded blank b bound _
    | ok next => exact first.ends folded blank b bound closing rest
  | cons second parts ih =>
    obtain ⟨b, bound, rfl⟩ := List.exists_cons_of_length_pos (Nat.zero_lt_of_lt enough)
    have first := takes part List.mem_cons_self
    rw [List.foldlM_cons]
    cases folded : f state part with
    | error e => exact first.fault folded blank b bound _
    | ok next =>
      have others := ih (fun part' member => takes part' (List.mem_cons_of_mem _ member))
        (blank_newLine level) (Nat.lt_of_succ_lt_succ enough) next
      rw [rowTail, List.flatMap_cons, List.cons_append, List.cons_append,
        first.comma folded blank b bound, List.append_assoc, List.append_assoc]
      exact others

/-- A row between two marks is read part by part, up to the first fault, when no part begins like a
    blank or like the closing mark. -/
theorem enclosed_write {loop : List Char → σ → Reader σ} {f : σ → α → Except Fault σ}
    {opening close : Char} (solid : isBlank close = false) (level : Nat) {parts : List α}
    (takes : ∀ part ∈ parts, Takes loop f text close part)
    (heads : ∀ part ∈ parts, ∃ c body, text part = c :: body ∧ isBlank c = false ∧ c ≠ close)
    (state : σ) (rest : List Char) :
    (do
      ofParser (Parser.exactly [opening])
      blanks
      if (← peek) == some close then
        let _ ← next
        return state
      else
        loop (← get) state : Reader σ) (opening :: (row level text parts ++ close :: rest)) =
      (parts.foldlM f state).map (·, rest) := by
  cases parts with
  | nil =>
    rw [bind_ok (mark_cons opening _), row, List.nil_append, bind_ok (blanks_solid solid rest),
      bind_ok (r := peek) rfl, List.head?_cons, if_pos (beq_self_eq_true _)]
    rfl
  | cons part parts =>
    obtain ⟨c, body, written, solidHead, notEnd⟩ := heads part List.mem_cons_self
    have opened : (some c == some close) = false := by simp [notEnd]
    -- The loop is bounded by the text after the opening mark, where every part has a character.
    have enough : parts.length < (text part ++ (rowTail (level + 1) text parts ++
        ((newLine level).toList ++ close :: rest))).length := by
      have counted := length_rowTail (level + 1) text parts
      simp only [List.length_append, List.length_cons]
      omega
    have inside := row_write (level + 1) level takes (List.forall_mem_nil _) enough state rest
    rw [List.nil_append] at inside
    simp only [row, List.append_assoc]
    rw [bind_ok (mark_cons opening _)]
    rw [written, List.cons_append] at inside ⊢
    rw [bind_ok (blanks_before (blank_newLine (level + 1)) solidHead _), bind_ok (r := peek) rfl,
      List.head?_cons, opened]
    exact inside

end

/-! ### Arrays -/

theorem writeItems_toList (level : Nat) (items : List Json) :
    (writeItems level items).toList = rowTail level (fun item => (write level item).toList) items := by
  induction items with
  | nil => simp [writeItems, rowTail]
  | cons item items ih => simp [writeItems, rowTail, ih]

theorem write_array_toList (level : Nat) (items : List Json) :
    (write level (.array items)).toList =
      '[' :: (row level (fun item => (write (level + 1) item).toList) items ++ [']']) := by
  cases items with
  | nil => simp [write, row]
  | cons item items => simp [write, row, writeItems_toList]

/-- An array is read item by item, up to the first fault. -/
theorem array_write (step : σ → Reader σ) (f : σ → Json → Except Fault σ) (level : Nat)
    {items : List Json} (plain : NumberFreeItems items)
    (reads : ∀ state, ∀ item ∈ items, ∀ rest,
      step state ((write (level + 1) item).toList ++ rest) = (f state item).map (·, rest))
    (start : σ) (rest : List Char) :
    Reader.array step start ((write level (.array items)).toList ++ rest) =
      (items.foldlM f start).map (·, rest) := by
  have plainItem := numberFreeItems_iff.mp plain
  rw [write_array_toList, List.cons_append, List.append_assoc, List.singleton_append]
  refine enclosed_write bracket_solid level (fun item member => ?_)
    (fun item member => write_head (plainItem item member) (level + 1)) start rest
  have read := fun state => reads state item member
  have skip {pre : List Char} (blank : ∀ c ∈ pre, isBlank c = true) :=
    blanks_write blank (plainItem item member) (level + 1)
  constructor
  case fault =>
    intro state e fails pre blank b bound rest
    rw [Reader.items, bind_ok (skip blank rest)]
    exact bind_error (by rw [read, fails]; rfl) _
  case comma =>
    intro state next taken pre blank b bound rest
    rw [Reader.items, bind_ok (skip blank _), bind_ok (by rw [read, taken]; rfl),
      bind_ok (blanks_solid comma_solid rest)]
    rfl
  case ends =>
    intro state next taken pre blank b bound closing rest
    rw [Reader.items, bind_ok (skip blank _), bind_ok (by rw [read, taken]; rfl),
      bind_ok (blanks_before (blank_newLine closing) bracket_solid rest)]
    rfl

/-! ### Objects -/

def entryText (level : Nat) (entry : String × Json) : List Char :=
  (quote entry.1).toList ++ ':' :: ' ' :: (write level entry.2).toList

theorem writeEntries_toList (level : Nat) (entries : List (String × Json)) :
    (writeEntries level entries).toList = rowTail level (entryText level) entries := by
  induction entries with
  | nil => simp [writeEntries, rowTail]
  | cons entry entries ih => simp [writeEntries, rowTail, entryText, ih]

theorem write_object_toList (level : Nat) (entries : List (String × Json)) :
    (write level (.object entries)).toList =
      '\x7b' :: (row level (entryText (level + 1)) entries ++ ['\x7d']) := by
  cases entries with
  | nil => simp [write, row]
  | cons entry entries => simp [write, row, entryText, writeEntries_toList]

/-- An object is read entry by entry, up to the first fault. -/
theorem object_write (step : σ → String → Reader σ) (f : σ → String × Json → Except Fault σ)
    (level : Nat) (entries : List (String × Json))
    (reads : ∀ state, ∀ entry ∈ entries, ∀ rest,
      step state entry.1 (':' :: ' ' :: ((write (level + 1) entry.2).toList ++ rest)) =
        (f state entry).map (·, rest))
    (start : σ) (rest : List Char) :
    Reader.object step start ((write level (.object entries)).toList ++ rest) =
      (entries.foldlM f start).map (·, rest) := by
  rw [write_object_toList, List.cons_append, List.append_assoc, List.singleton_append]
  refine enclosed_write brace_solid level (fun entry member => ?_) (fun entry _ => ?_) start rest
  · have read := fun state => reads state entry member
    have split (rest : List Char) : entryText (level + 1) entry ++ rest =
        (quote entry.1).toList ++ (':' :: ' ' :: ((write (level + 1) entry.2).toList ++ rest)) := by
      simp [entryText]
    constructor
    case fault =>
      intro state e fails pre blank b bound rest
      rw [split, Reader.entries, bind_ok (quote_solid entry.1 _ blank),
        bind_ok (string_quote entry.1 _)]
      exact bind_error (by rw [read, fails]; rfl) _
    case comma =>
      intro state next taken pre blank b bound rest
      rw [split, Reader.entries, bind_ok (quote_solid entry.1 _ blank),
        bind_ok (string_quote entry.1 _), bind_ok (by rw [read, taken]; rfl),
        bind_ok (blanks_solid comma_solid rest)]
      rfl
    case ends =>
      intro state next taken pre blank b bound closing rest
      rw [split, Reader.entries, bind_ok (quote_solid entry.1 _ blank),
        bind_ok (string_quote entry.1 _), bind_ok (by rw [read, taken]; rfl),
        bind_ok (blanks_before (blank_newLine closing) brace_solid rest)]
      rfl
  · obtain ⟨body, written⟩ := quote_cons entry.1
    exact ⟨'\"', _, by rw [entryText, written, List.cons_append], by decide, by decide⟩

/-! ## Whole values -/

/-- A value that may nest so many levels, or the fault of one that nests deeper. -/
def within (levels : Nat) (value : Json) : Except Fault Json :=
  if value.depth ≤ levels then .ok value else .error .malformed

/-- Gathering parts in reverse stops at the first one that does not fit. -/
theorem foldlM_fitting {β : Type} (fits : β → Prop) [DecidablePred fits] (fault : Fault)
    (parts gathered : List β) :
    parts.foldlM (fun gathered part =>
      if fits part then Except.ok (part :: gathered) else Except.error fault) gathered =
      if ∀ part ∈ parts, fits part then .ok (parts.reverse ++ gathered) else .error fault := by
  induction parts generalizing gathered with
  | nil => simp; rfl
  | cons part parts ih =>
    rw [List.foldlM_cons]
    by_cases first : fits part
    · simp only [first, if_true]
      exact (ih (part :: gathered)).trans (by simp [first])
    · simp only [first, if_false, List.forall_mem_cons, false_and]
      rfl

theorem scalar_null (rest : List Char) : scalar ("null".toList ++ rest) = .ok (.null, rest) :=
  ofParser_some (by simp)

theorem scalar_bool (b : Bool) (rest : List Char) :
    scalar ((if b then "true" else "false").toList ++ rest) = .ok (.bool b, rest) :=
  ofParser_some (by cases b <;> simp)

theorem scalar_string (s : String) (rest : List Char) :
    scalar ((quote s).toList ++ rest) = .ok (.string s, rest) := by
  have inside := stringText_quote s rest
  obtain ⟨body, text⟩ := quote_cons s
  rw [text, List.cons_append] at inside ⊢
  exact ofParser_some (by simp [inside])

/-- No scalar begins like an array or an object. -/
theorem scalar_bracket {c : Char} (opening : c = '[' ∨ c = '\x7b') (rest : List Char) :
    scalar (c :: rest) = .error .malformed := by
  apply ofParser_none
  rcases opening with rfl | rfl <;>
    simp [stringText, numberText, numeral, wholeDigits, Parser.takeWhile1, isDigit]

theorem value_scalar {c : Char} (notArray : c ≠ '[') (notObject : c ≠ '\x7b') (levels : Nat)
    (s : List Char) : Reader.value levels (c :: s) = scalar (c :: s) := by
  cases levels with
  | zero => rfl
  | succ levels =>
    rw [Reader.value, bind_ok (r := peek) rfl]
    refine congrFun ?_ (c :: s)
    split
    · simp_all
    · simp_all
    · rfl

theorem write_array_cons (level : Nat) (items : List Json) :
    ∃ body, (write level (.array items)).toList = '[' :: body := by
  rw [write_array_toList]
  exact ⟨_, rfl⟩

theorem write_object_cons (level : Nat) (entries : List (String × Json)) :
    ∃ body, (write level (.object entries)).toList = '\x7b' :: body := by
  rw [write_object_toList]
  exact ⟨_, rfl⟩

theorem afterColon_value (reader : Reader α) {value : Json} (plain : value.NumberFree)
    (level : Nat) (rest : List Char) :
    afterColon reader (':' :: ' ' :: ((write level value).toList ++ rest)) =
      reader ((write level value).toList ++ rest) := by
  have blank : ∀ c ∈ [' '], isBlank c = true := by simp [isBlank]
  rw [afterColon, bind_ok (blanks_solid (by decide) _), bind_ok (mark_cons ':' _)]
  exact bind_ok (blanks_write blank plain level rest) _

/-- A value without parts is read at any level. -/
theorem value_flat {value : Json} (plain : value.NumberFree) (flat : value.depth = 0)
    (levels level : Nat) (rest : List Char) :
    Reader.value levels ((write level value).toList ++ rest) = .ok (value, rest) := by
  cases value with
  | null =>
    have text : (write level .null).toList ++ rest = 'n' :: ("ull".toList ++ rest) := by
      simp [write]
    rw [text, value_scalar (by decide) (by decide)]
    exact scalar_null rest
  -- The first character has to be seen before the reader can choose, so the words are cut open.
  | bool value =>
    have read := scalar_bool value rest
    cases value
    · have text : (write level (.bool false)).toList ++ rest = 'f' :: ("alse".toList ++ rest) := by
        simp [write]
      rw [text, value_scalar (by decide) (by decide)]
      exact read
    · have text : (write level (.bool true)).toList ++ rest = 't' :: ("rue".toList ++ rest) := by
        simp [write]
      rw [text, value_scalar (by decide) (by decide)]
      exact read
  | number value => exact absurd plain id
  | string value =>
    have read := scalar_string value rest
    obtain ⟨body, text⟩ := quote_cons value
    rw [text, List.cons_append] at read
    rw [write, text, List.cons_append, value_scalar (by decide) (by decide)]
    exact read
  | array items => simp [depth] at flat
  | object entries => simp [depth] at flat

theorem value_array (levels : Nat) (body : List Char) :
    Reader.value (levels + 1) ('[' :: body) =
      (array (fun items => return (← Reader.value levels) :: items) [] ('[' :: body)).map
        fun found => (.array found.1.reverse, found.2) := by
  rw [Reader.value, bind_ok (r := peek) rfl]
  exact bind_apply _ _ _

theorem value_object (levels : Nat) (body : List Char) :
    Reader.value (levels + 1) ('\x7b' :: body) =
      (object (fun entries key => do
        let item ← afterColon (Reader.value levels)
        return (key, item) :: entries) [] ('\x7b' :: body)).map
        fun found => (.object found.1.reverse, found.2) := by
  rw [Reader.value, bind_ok (r := peek) rfl]
  exact bind_apply _ _ _

/-- The text of a value gives the value back, where it may nest so deep. -/
theorem value_write {value : Json} (plain : value.NumberFree) (levels level : Nat)
    (rest : List Char) :
    Reader.value levels ((write level value).toList ++ rest) =
      (within levels value).map (·, rest) := by
  -- The reader counts levels, not parts, so the induction is on the levels that are left.
  induction levels generalizing value level rest with
  | zero =>
    rw [within]
    split_ifs with flat
    · exact value_flat plain (Nat.le_zero.mp flat) 0 level rest
    · cases value with
      | null | bool _ | number _ | string _ => simp [depth] at flat
      -- Without a level left a bracket is read as a scalar, and no scalar begins with one.
      | array items =>
        obtain ⟨body, text⟩ := write_array_cons level items
        rw [text]
        exact scalar_bracket (.inl rfl) _
      | object entries =>
        obtain ⟨body, text⟩ := write_object_cons level entries
        rw [text]
        exact scalar_bracket (.inr rfl) _
  | succ levels ih =>
    cases value with
    | null | bool _ | string _ =>
      rw [within, if_pos (by simp [depth])]
      exact value_flat plain (by simp [depth]) (levels + 1) level rest
    | number value => exact absurd plain id
    | array items =>
      have gather := array_write (fun items => return (← Reader.value levels) :: items)
        (fun items item => if item.depth ≤ levels then .ok (item :: items) else .error .malformed)
        level plain
        (by
          intro state item member rest
          rw [bind_apply, ih (numberFreeItems_iff.mp plain item member), within]
          split <;> rfl) [] rest
      obtain ⟨body, text⟩ := write_array_cons level items
      rw [foldlM_fitting] at gather
      rw [text, List.cons_append] at gather ⊢
      rw [value_array, gather, within]
      simp only [depth, Nat.add_le_add_iff_right, depthItems_le_iff]
      split_ifs
      · simp [Except.map]
      · rfl
    | object entries =>
      have gather := object_write
        (fun entries key => do
          let item ← afterColon (Reader.value levels)
          return (key, item) :: entries)
        (fun entries entry => if entry.2.depth ≤ levels then .ok (entry :: entries)
          else .error .malformed) level entries
        (by
          intro state entry member rest
          have plainEntry := numberFreeEntries_iff.mp plain entry member
          rw [bind_apply, afterColon_value _ plainEntry, ih plainEntry, within]
          split <;> rfl) [] rest
      obtain ⟨body, text⟩ := write_object_cons level entries
      rw [foldlM_fitting] at gather
      rw [text, List.cons_append] at gather ⊢
      rw [value_object, gather, within]
      simp only [depth, Nat.add_le_add_iff_right, depthEntries_le_iff]
      split_ifs
      · simp [Except.map]
      · rfl

end Reader

end IdlTypings.Json
