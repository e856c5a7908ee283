import Mathlib
import IdlTypings.Proofs.ParserRules
import IdlTypings.Proofs.RunFrame

/-! # Settings from the command line, from a file and by default

A settings file has one line for each setting, in any order.

* `CharText` lists the ways to write a character of a string, and `EntryText` and `DocumentText`
  build lines and files from them.  `document_text` reads such a file back.
* `Config.only` is what a part of the lines sets.  Line by line the settings grow to the whole,
  `foldlM_add`, so that the order does not matter.
* `options_precedence` says what the settings of a run are: those of the command line, then those of
  the file that the job names or that lies beside its input, then the defaults.
-/

namespace IdlTypings.Toml

open IdlTypings.Parser

/-! ## Characters of a string -/

/-- A hexadecimal digit, with a capital or a small letter. -/
def hexChar (capital : Bool) (digit : Fin 16) : Char :=
  if capital then (Nat.digitChar digit).toUpper else Nat.digitChar digit

/-- A number in hexadecimal digits. -/
def hexText (digits : List (Bool × Fin 16)) : List Char :=
  digits.map fun digit => hexChar digit.1 digit.2

/-- The number that some digits stand for after another number. -/
def hexValueFrom (start : Nat) (digits : List (Bool × Fin 16)) : Nat :=
  digits.foldl (fun n digit => 16 * n + digit.2) start

/-- The letters that stand for characters after a backslash. -/
def shortEscapes : List (Char × Char) :=
  [('\"', '\"'), ('\\', '\\'), ('b', Char.ofNat 0x08), ('f', Char.ofNat 0x0C), ('n', '\n'),
    ('r', '\r'), ('t', '\t')]

def isControl (c : Char) : Bool :=
  c.toNat < 0x20 || c.toNat == 0x7F

/-- The ways to write a character of a string.  Quotes, backslashes and control characters are
    escaped, and everything else may be. -/
inductive CharText : Char → List Char → Prop where
  | plain {c : Char} (noQuote : c ≠ '\"') (noSlash : c ≠ '\\') (noControl : isControl c = false) :
      CharText c [c]
  | short {c mark : Char} (among : (mark, c) ∈ shortEscapes) : CharText c ['\\', mark]
  | four {c : Char} {digits : List (Bool × Fin 16)} (count : digits.length = 4)
      (value : hexValueFrom 0 digits = c.toNat) : CharText c ('\\' :: 'u' :: hexText digits)
  | eight {c : Char} {digits : List (Bool × Fin 16)} (count : digits.length = 8)
      (value : hexValueFrom 0 digits = c.toNat) : CharText c ('\\' :: 'U' :: hexText digits)

theorem hexDigit_hexChar (capital : Bool) (digit : Fin 16) (rest : List Char) :
    hexDigit (hexChar capital digit :: rest) = some (digit.val, rest) := by
  have alone : ∀ (capital : Bool) (digit : Fin 16),
      hexDigit [hexChar capital digit] = some (digit.val, []) := by decide
  have digits := alone capital digit
  simp only [hexDigit, bind_apply, satisfy_cons] at digits ⊢
  split at digits
  case isTrue => simp_all
  case isFalse => cases digits

theorem hexNumber_hexText (digits : List (Bool × Fin 16)) (start : Nat) (rest : List Char) :
    hexNumber digits.length start (hexText digits ++ rest) =
      some (hexValueFrom start digits, rest) := by
  induction digits generalizing start with
  | nil => rfl
  | cons digit digits ih =>
    simp [hexNumber, hexText, hexDigit_hexChar] at ih ⊢
    exact ih _

theorem numbered_hexText {c : Char} {digits : List (Bool × Fin 16)}
    (value : hexValueFrom 0 digits = c.toNat) (rest : List Char) :
    numbered digits.length (hexText digits ++ rest) = some ([c], rest) := by
  have valid : c.toNat.isValidChar := c.valid
  simp [numbered, hexNumber_hexText, value, valid, Char.ofNat_toNat]

theorem part_backslash (s : List Char) : part basic ('\\' :: s) = escaped s := by
  have test : isStringChar '\\' = true := by decide
  simp [part, basic, test]

theorem escaped_short {c mark : Char} (among : (mark, c) ∈ shortEscapes) (rest : List Char) :
    escaped (mark :: rest) = some ([c], rest) := by
  simp only [shortEscapes, List.mem_cons, Prod.mk.injEq, List.not_mem_nil, or_false] at among
  rcases among with ⟨rfl, rfl⟩ | ⟨rfl, rfl⟩ | ⟨rfl, rfl⟩ | ⟨rfl, rfl⟩ | ⟨rfl, rfl⟩ | ⟨rfl, rfl⟩ |
    ⟨rfl, rfl⟩ <;> rfl

/-- A character is read from each of its texts. -/
theorem part_charText {c : Char} {text : List Char} (written : CharText c text)
    (rest : List Char) : part basic (text ++ rest) = some ([c], rest) := by
  cases written with
  | plain noQuote noSlash noControl =>
    have test : isStringChar c = true := by
      simp only [isControl, Bool.or_eq_false_iff, decide_eq_false_iff_not, beq_eq_false_iff_ne]
        at noControl
      simp [isStringChar, noControl.2, Nat.not_lt.1 noControl.1]
    simp [part, basic, test, noQuote, noSlash]
  | short among =>
    exact (part_backslash _).trans (escaped_short among rest)
  | four count value =>
    have number := numbered_hexText value rest
    rw [count] at number
    exact (part_backslash _).trans number
  | eight count value =>
    have number := numbered_hexText value rest
    rw [count] at number
    exact (part_backslash _).trans number

theorem return_not_mem_hexText (digits : List (Bool × Fin 16)) : '\r' ∉ hexText digits := by
  have other : ∀ (capital : Bool) (digit : Fin 16), hexChar capital digit ≠ '\r' := by decide
  simp only [hexText, List.mem_map, not_exists, not_and]
  exact fun digit _ => other digit.1 digit.2

/-- The text of a character has no carriage return in it, and does not begin with a quote. -/
theorem CharText.plain_text {c : Char} {text : List Char} (written : CharText c text) :
    '\r' ∉ text ∧ ∃ d rest, text = d :: rest ∧ d ≠ '\"' := by
  cases written with
  | plain noQuote noSlash noControl =>
    refine ⟨?_, c, [], rfl, noQuote⟩
    rw [List.mem_singleton]
    rintro rfl
    exact absurd noControl (by decide)
  | short among =>
    refine ⟨?_, '\\', _, rfl, by decide⟩
    simp only [shortEscapes, List.mem_cons, Prod.mk.injEq, List.not_mem_nil, or_false] at among
    rcases among with ⟨rfl, -⟩ | ⟨rfl, -⟩ | ⟨rfl, -⟩ | ⟨rfl, -⟩ | ⟨rfl, -⟩ | ⟨rfl, -⟩ | ⟨rfl, -⟩ <;>
      decide
  | four => exact ⟨by simp [return_not_mem_hexText], '\\', _, rfl, by decide⟩
  | eight => exact ⟨by simp [return_not_mem_hexText], '\\', _, rfl, by decide⟩

/-! ## Values -/

def truthText (b : Bool) : List Char :=
  if b then "true".toList else "false".toList

/-- The ways to write a value. -/
inductive ValueText : Value → List Char → Prop where
  | truth (b : Bool) : ValueText (.bool b) (truthText b)
  | string {s : String} {texts : List (List Char)} (chars : List.Forall₂ CharText s.toList texts) :
      ValueText (.string s) ('\"' :: (texts.flatten ++ ['\"']))

theorem rounds_part {cs : List Char} {texts : List (List Char)}
    (chars : List.Forall₂ CharText cs texts) (rest : List Char) :
    Rounds (part basic) (texts.flatten ++ rest) (cs.map ([·])) rest := by
  induction chars with
  | nil => exact .done
  | cons written _ ih =>
    rw [List.flatten_cons, List.append_assoc, List.map_cons]
    obtain ⟨-, d, others, rfl, -⟩ := written.plain_text
    exact .round (part_charText written _) (by simp) ih

theorem line_text {s : String} {texts : List (List Char)}
    (chars : List.Forall₂ CharText s.toList texts) (rest : List Char) :
    line basic ('\"' :: (texts.flatten ++ ('\"' :: rest))) = some (s, rest) := by
  have stops : part basic ('\"' :: rest) = none := by simp [part, basic]
  have parts := many_of_rounds (rounds_part chars ('\"' :: rest)) stops
  have flat : (s.toList.map ([·])).flatten = s.toList := by
    rw [← List.flatMap_def, List.flatMap_singleton']
  simp [line, basic] at parts ⊢
  simp [parts, flat]

/-- A string on one line is not taken for one of several lines, which begins with three quotes. -/
theorem lines_text {cs : List Char} {texts : List (List Char)}
    (chars : List.Forall₂ CharText cs texts) {rest : List Char}
    (ends : ∀ c ∈ rest.head?, c = '\n') :
    lines basic ('\"' :: (texts.flatten ++ ('\"' :: rest))) = none := by
  cases chars with
  | nil =>
    -- An empty string is two quotes, and its line ends where a third one would stand.
    cases rest with
    | nil => simp [lines, basic]
    | cons c rest =>
      obtain rfl : c = '\n' := ends c rfl
      simp [lines, basic]
  | cons written _ =>
    obtain ⟨-, d, others, rfl, noQuote⟩ := written.plain_text
    simp [lines, basic, noQuote.symm]

theorem string_text {s : String} {texts : List (List Char)}
    (chars : List.Forall₂ CharText s.toList texts) {rest : List Char}
    (ends : ∀ c ∈ rest.head?, c = '\n') :
    string ('\"' :: (texts.flatten ++ ('\"' :: rest))) = some (s, rest) := by
  have noLiteral : lines literal ('\"' :: (texts.flatten ++ ('\"' :: rest))) = none := by
    simp [lines, literal]
  simp [string, lineString, lines_text chars ends, noLiteral, line_text chars]

theorem word_run {run rest : List Char} (nonempty : run ≠ []) (all : ∀ c ∈ run, isWordChar c = true)
    (ends : ∀ c ∈ rest.head?, isWordChar c = false) :
    word (run ++ rest) = some (String.ofList run, rest) := by
  simp [word, takeWhile1_run nonempty all ends]

theorem truth_text (b : Bool) {rest : List Char} (ends : ∀ c ∈ rest.head?, isWordChar c = false) :
    truth (truthText b ++ rest) = some (b, rest) := by
  have nonempty : truthText b ≠ [] := by cases b <;> decide
  have all : (truthText b).all isWordChar = true := by cases b <;> decide
  have run := word_run nonempty (List.all_eq_true.1 all) ends
  cases b <;> simp [truth, run] <;> simp [truthText]

theorem value_text {v : Value} {text : List Char} (written : ValueText v text) {rest : List Char}
    (ends : ∀ c ∈ rest.head?, c = '\n') : value (text ++ rest) = some (v, rest) := by
  have solid : ∀ c ∈ rest.head?, isWordChar c = false := by
    intro c first
    rw [ends c first]
    decide
  cases written with
  | truth b => simp [value, truth_text b solid]
  | @string s texts chars =>
    have noWord : truth ('\"' :: (texts.flatten ++ ('\"' :: rest))) = none := by
      have other : isWordChar '\"' = false := by decide
      simp [truth, word, takeWhile1, other]
    simp [value, noWord, string_text chars ends]

/-! ## Lines -/

/-- A line for a key, with one blank on each side of the sign. -/
inductive EntryText : Entry → List Char → Prop where
  | mk {key : String} {v : Value} {text : List Char} (nonempty : key.toList ≠ [])
      (bare : ∀ c ∈ key.toList, isWordChar c = true) (written : ValueText v text) :
      EntryText ⟨key, v⟩ (key.toList ++ ' ' :: '=' :: ' ' :: text)

theorem blanks_solid {s : List Char} (solid : ∀ c ∈ s.head?, isBlank c = false) :
    blanks s = some ((), s) := by
  have run := takeWhile_run (List.forall_mem_nil _) solid
  rw [List.nil_append] at run
  simp [blanks, run]

theorem blanks_one {c : Char} (solid : isBlank c = false) (s : List Char) :
    blanks (' ' :: c :: s) = some ((), c :: s) := by
  have blank : isBlank ' ' = true := by decide
  simp [blanks, Parser.takeWhile, blank, solid]

theorem ValueText.begins {v : Value} {text : List Char} (written : ValueText v text) :
    ∃ c rest, text = c :: rest ∧ isBlank c = false := by
  cases written with
  | truth b => cases b <;> exact ⟨_, _, rfl, by decide⟩
  | string chars => exact ⟨_, _, rfl, by decide⟩

theorem entry_text {e : Entry} {text : List Char} (written : EntryText e text) {rest : List Char}
    (ends : ∀ c ∈ rest.head?, c = '\n') : entry (text ++ rest) = some (e, rest) := by
  cases written with
  | @mk name v text nonempty bare written =>
    have reads := value_text written ends
    obtain ⟨c, others, rfl, solid⟩ := written.begins
    have named : key (name.toList ++ ' ' :: '=' :: ' ' :: c :: (others ++ rest)) =
        some (name, ' ' :: '=' :: ' ' :: c :: (others ++ rest)) := by
      have stops : isWordChar ' ' = false := by decide
      have run : word (name.toList ++ ' ' :: '=' :: ' ' :: c :: (others ++ rest)) = _ :=
        word_run nonempty bare (by simpa using stops)
      simp [key, run]
    have sign : isBlank '=' = false := by decide
    rw [List.cons_append] at reads
    simp [entry, named, blanks_one sign, blanks_one solid, reads]

theorem EntryText.begins {e : Entry} {text : List Char} (written : EntryText e text) :
    ∃ c rest, text = c :: rest ∧ isWordChar c = true := by
  cases written with
  | mk nonempty bare _ =>
    obtain ⟨c, others, chars⟩ := List.exists_cons_of_ne_nil nonempty
    rw [chars] at bare ⊢
    exact ⟨c, _, rfl, bare c List.mem_cons_self⟩

/-- A line for a key is read up to its end. -/
theorem row_text {e : Entry} {text : List Char} (written : EntryText e text) {rest : List Char}
    (ends : ∀ c ∈ rest.head?, c = '\n') : row (text ++ rest) = some (some e, rest) := by
  have before : blanks (text ++ rest) = some ((), text ++ rest) := by
    obtain ⟨c, others, rfl, letter⟩ := written.begins
    apply blanks_solid
    rintro d ⟨⟩
    by_contra blank
    simp only [isBlank, Bool.not_eq_false, Bool.or_eq_true, beq_iff_eq] at blank
    rcases blank with rfl | rfl <;> exact absurd letter (by decide)
  have behind : blanks rest = some ((), rest) := by
    apply blanks_solid
    intro c first
    rw [ends c first]
    decide
  have noComment : comment rest = none := by
    cases rest with
    | nil => rfl
    | cons c rest =>
      obtain rfl : c = '\n' := ends c rfl
      rfl
  simp [row, before, entry_text written ends, behind, noComment]

theorem row_nil : row [] = some (none, []) := rfl

/-! ## Files -/

/-- A file with a line for each entry.  A line ends in a line feed, which may follow a carriage
    return, and the last line need not end. -/
inductive DocumentText : List Entry → List Char → Prop where
  | nil : DocumentText [] []
  | last {e : Entry} {text : List Char} (line : EntryText e text) : DocumentText [e] text
  | line {e : Entry} {es : List Entry} {text ending rest : List Char} (line : EntryText e text)
      (ends : ending = ['\n'] ∨ ending = ['\r', '\n']) (others : DocumentText es rest) :
      DocumentText (e :: es) (text ++ (ending ++ rest))

theorem foldNewlines_append {s : List Char} (plain : '\r' ∉ s) (t : List Char) :
    foldNewlines (s ++ t) = s ++ foldNewlines t := by
  induction s with
  | nil => rfl
  | cons c s ih =>
    simp only [List.mem_cons, not_or] at plain
    simp [foldNewlines, Ne.symm plain.1, ih plain.2]

theorem foldNewlines_ending {ending : List Char} (ends : ending = ['\n'] ∨ ending = ['\r', '\n'])
    (t : List Char) : foldNewlines (ending ++ t) = '\n' :: foldNewlines t := by
  rcases ends with rfl | rfl <;> simp [foldNewlines]

theorem return_not_mem_flatten {cs : List Char} {texts : List (List Char)}
    (chars : List.Forall₂ CharText cs texts) : '\r' ∉ texts.flatten := by
  induction chars with
  | nil => simp
  | cons written _ ih => simp [written.plain_text.1, ih]

theorem ValueText.return_not_mem {v : Value} {text : List Char} (written : ValueText v text) :
    '\r' ∉ text := by
  cases written with
  | truth b => cases b <;> decide
  | string chars => simp [return_not_mem_flatten chars]

theorem EntryText.return_not_mem {e : Entry} {text : List Char} (written : EntryText e text) :
    '\r' ∉ text := by
  cases written with
  | @mk name v text nonempty bare written =>
    have inside : '\r' ∉ name.toList := fun member => absurd (bare _ member) (by decide)
    simp [inside, written.return_not_mem]

theorem EntryText.foldNewlines_alone {e : Entry} {text : List Char} (written : EntryText e text) :
    foldNewlines text = text := by
  simpa [foldNewlines] using foldNewlines_append written.return_not_mem []

/-- A line does not begin with a byte order mark. -/
theorem EntryText.unmarked {e : Entry} {text : List Char} (written : EntryText e text)
    (rest : List Char) : exactly [Char.ofNat 0xFEFF] (text ++ rest) = none := by
  obtain ⟨c, others, rfl, letter⟩ := written.begins
  have other : Char.ofNat 0xFEFF ≠ c := by
    rintro rfl
    exact absurd letter (by decide)
  simp [other]

/-- The first row of a file, and those behind it up to its end. -/
theorem rows_text {es : List Entry} {text : List Char} (written : DocumentText es text) :
    ∃ first rows rest, row (foldNewlines text) = some (first, rest) ∧
      rest.length ≤ (foldNewlines text).length ∧
      Rounds (do exactly ['\n']; row) rest rows [] ∧ (first :: rows).filterMap id = es := by
  induction written with
  | nil => exact ⟨none, [], [], row_nil, Nat.le_refl _, .done, rfl⟩
  | @last e text line =>
    rw [line.foldNewlines_alone, ← text.append_nil]
    exact ⟨some e, [], [], row_text line (by simp), Nat.zero_le _, .done, rfl⟩
  | @line e es text ending rest line ends _ ih =>
    obtain ⟨first, rows, left, read, shorter, rounds, entries⟩ := ih
    rw [foldNewlines_append line.return_not_mem, foldNewlines_ending ends]
    -- A row is read together with the line feed before it, so that each round shortens the text.
    refine ⟨some e, first :: rows, '\n' :: foldNewlines rest, row_text line (by simp), by simp,
      .round ?_ (Nat.lt_succ_of_le shorter) rounds, congrArg (e :: ·) entries⟩
    simp [read]

/-- A file is read back, whatever the order of its lines. -/
theorem document_text {es : List Entry} {text : List Char} (written : DocumentText es text) :
    document (foldNewlines text) = some (es, []) := by
  obtain ⟨first, rows, rest, read, -, rounds, entries⟩ := rows_text written
  have all := sepBy1_of_rounds read rounds (by simp)
  -- No line begins with a byte order mark.
  have unmarked : exactly [Char.ofNat 0xFEFF] (foldNewlines text) = none := by
    cases written with
    | nil => rfl
    | last line =>
      rw [line.foldNewlines_alone, ← List.append_nil text]
      exact line.unmarked []
    | line line _ _ =>
      rw [foldNewlines_append line.return_not_mem]
      exact line.unmarked _
  simp [document, unmarked, all, atEnd]
  exact entries

end IdlTypings.Toml

namespace IdlTypings.Config

open Toml (Entry DocumentText)

/-! ## The settings of a file -/

/-- What is set, each under its key. -/
def entries (config : Config) : List Entry :=
  (config.emscripten.map fun b => ⟨"emscripten", .bool b⟩).toList ++
    (config.gecko.map fun b => ⟨"gecko", .bool b⟩).toList ++
    (config.moduleName.map fun s => ⟨"module", .string s⟩).toList ++
    (config.defaultExport.map fun b => ⟨"default_export", .bool b⟩).toList

/-- The settings with a file of one line for each of them, in any order. -/
def Written (config : Config) (text : List Char) : Prop :=
  ∃ es, es.Perm config.entries ∧ DocumentText es text

/-- The part of some settings that has certain keys. -/
def only (config : Config) (keys : List String) : Config where
  emscripten := if "emscripten" ∈ keys then config.emscripten else none
  gecko := if "gecko" ∈ keys then config.gecko else none
  moduleName := if "module" ∈ keys then config.moduleName else none
  defaultExport := if "default_export" ∈ keys then config.defaultExport else none

variable {config : Config} {keys : List String}

theorem mem_entries {e : Entry} :
    e ∈ config.entries ↔
      (∃ b, config.emscripten = some b ∧ e = ⟨"emscripten", .bool b⟩) ∨
      (∃ b, config.gecko = some b ∧ e = ⟨"gecko", .bool b⟩) ∨
      (∃ s, config.moduleName = some s ∧ e = ⟨"module", .string s⟩) ∨
      ∃ b, config.defaultExport = some b ∧ e = ⟨"default_export", .bool b⟩ := by
  simp only [entries, List.mem_append, Option.mem_toList, Option.map_eq_some_iff,
    @eq_comm Entry _ e, or_assoc]

theorem nodup_keys (config : Config) : (config.entries.map (·.key)).Nodup := by
  obtain ⟨emscripten, gecko, moduleName, defaultExport⟩ := config
  cases emscripten <;> cases gecko <;> cases moduleName <;> cases defaultExport <;> simp [entries]

theorem only_nil (config : Config) : config.only [] = {} := by
  simp [only]

theorem only_eq_self (all : ∀ e ∈ config.entries, e.key ∈ keys) : config.only keys = config := by
  have kept {α : Type} {key : String} {value : α → Toml.Value} {field : Option α}
      (among : ∀ x, field = some x → ⟨key, value x⟩ ∈ config.entries) :
      (if key ∈ keys then field else none) = field := by
    cases field with
    | none => simp
    | some x => exact if_pos (all _ (among x rfl))
  obtain ⟨emscripten, gecko, moduleName, defaultExport⟩ := config
  simp only [only, mk.injEq]
  exact ⟨kept fun b set => mem_entries.2 (.inl ⟨b, set, rfl⟩),
    kept fun b set => mem_entries.2 (.inr (.inl ⟨b, set, rfl⟩)),
    kept fun s set => mem_entries.2 (.inr (.inr (.inl ⟨s, set, rfl⟩))),
    kept fun b set => mem_entries.2 (.inr (.inr (.inr ⟨b, set, rfl⟩)))⟩

/-- A line that was not there before adds its setting. -/
theorem add_only {e : Entry} (known : e ∈ config.entries) (fresh : e.key ∉ keys) :
    (config.only keys).add e = some (config.only (e.key :: keys)) := by
  rcases mem_entries.1 known with ⟨b, set, rfl⟩ | ⟨b, set, rfl⟩ | ⟨s, set, rfl⟩ | ⟨b, set, rfl⟩ <;>
  · simp only at fresh
    simp [add, only, fresh, set]

/-- Line by line the settings grow to what all the lines set. -/
theorem foldlM_add {es : List Entry} (known : ∀ e ∈ es, e ∈ config.entries)
    (once : (es.map (·.key)).Nodup) (fresh : ∀ e ∈ es, e.key ∉ keys) :
    es.foldlM add (config.only keys) =
      some (config.only ((es.map (·.key)).reverse ++ keys)) := by
  induction es generalizing keys with
  | nil => rfl
  | cons e es ih =>
    rw [List.forall_mem_cons] at known fresh
    rw [List.map_cons, List.nodup_cons] at once
    rw [List.foldlM_cons, add_only known.1 fresh.1]
    -- The keys seen so far grow by this one, and the lines behind have others.
    have others : ∀ e' ∈ es, e'.key ∉ e.key :: keys := by
      intro e' among
      rw [List.mem_cons, not_or]
      refine ⟨fun same => once.1 (same ▸ List.mem_map_of_mem among), fresh.2 e' among⟩
    have rest := ih known.2 once.2 others
    rw [List.map_cons, List.reverse_cons, List.append_assoc]
    exact rest

/-- The settings of a file are read back from it. -/
theorem ofToml?_written {text : List Char} (written : config.Written text) :
    ofToml? text = some config := by
  obtain ⟨es, order, file⟩ := written
  have known : ∀ e ∈ es, e ∈ config.entries := fun e among => order.mem_iff.1 among
  have once : (es.map (·.key)).Nodup := (order.map _).nodup_iff.2 (nodup_keys config)
  have all := foldlM_add known once (by simp : ∀ e ∈ es, e.key ∉ ([] : List String))
  rw [only_nil, List.append_nil, only_eq_self] at all
  · simp [ofToml?, Toml.document_text file, all]
  · intro e among
    simpa using ⟨e, order.mem_iff.2 among, rfl⟩

end IdlTypings.Config

namespace IdlTypings

open FileTree
open Toml (CharText)

/-! ## The settings of a run -/

/-- The first value that is set, or else the default. -/
def firstSet {α : Type} (default : α) : (commandLine file : Option α) → α
  | some x, _ => x
  | none, some x => x
  | none, none => default

/-- What the settings file of a job says in a tree. -/
inductive Job.FileHolds (job : Job) (tree : FileTree) : Config → Prop where
  /-- The job names the file. -/
  | named {path : Path} {file : Config} {text : List Char} (override : job.config = some path)
      (written : file.Written text) (holds : tree.readBytes path = .ok (String.ofList text).toUTF8) :
      FileHolds job tree file
  /-- The file lies beside the input. -/
  | beside {file : Config} {text : List Char} (unnamed : job.config = none)
      (written : file.Written text)
      (holds : tree.readBytes (configBeside job.input) = .ok (String.ofList text).toUTF8) :
      FileHolds job tree file
  /-- Nothing of that name lies beside the input, and nothing is said. -/
  | absent (unnamed : job.config = none) (missing : tree.isPresent (configBeside job.input) = false) :
      FileHolds job tree {}

variable {job : Job} {tree : FileTree} {file : Config}

theorem fromUTF8?_toUTF8 (s : String) : String.fromUTF8? s.toUTF8 = some s := by
  have valid : s.toUTF8.IsValidUTF8 := s.isValidUTF8
  simp [String.fromUTF8?, String.fromUTF8]
  exact valid

theorem getD_or {α : Type} (default : α) (first second : Option α) :
    (first.or second).getD default = firstSet default first second := by
  cases first <;> cases second <;> rfl

theorem onTree_readConfig {path : Path} {text : List Char} (written : file.Written text)
    (holds : tree.readBytes path = .ok (String.ofList text).toUTF8) :
    onTree (readConfig path) tree = (.ok file, tree) := by
  have reads := onTree_readText (.configUnreadable path) path tree
  have decoded : (Except.ok (String.ofList text).toUTF8 : Except FileError ByteArray).bind
      (fun bytes => (String.fromUTF8? bytes).elim (.error .invalidData) .ok) =
        .ok (String.ofList text) := by
    simp only [Except.bind, fromUTF8?_toUTF8, Option.elim_some]
  rw [holds, decoded] at reads
  rw [readConfig, onTree_bind_ok reads, String.toList_ofList, Config.ofToml?_written written]
  rfl

theorem onTree_isPresent (path : Path) (tree : FileTree) :
    onTree (ExceptT.lift (FileAccess.isPresent path)) tree = (.ok (tree.isPresent path), tree) :=
  rfl

theorem onTree_fileConfig (found : job.FileHolds tree file) :
    onTree job.fileConfig tree = (.ok file, tree) := by
  have looks := onTree_isPresent (configBeside job.input) tree
  rw [Job.fileConfig]
  cases found with
  | named override written holds =>
    rw [override]
    exact onTree_readConfig written holds
  | beside unnamed written holds =>
    rw [isPresent_of_readBytes holds] at looks
    rw [unnamed]
    exact (onTree_bind_ok looks).trans (onTree_readConfig written holds)
  | absent unnamed missing =>
    rw [missing] at looks
    rw [unnamed]
    exact onTree_bind_ok looks

/-- Each setting of a run is that of the command line, or else that of the settings file, or else
    the default. -/
theorem options_precedence (found : job.FileHolds tree file) :
    onTree job.options tree =
      (.ok { emscripten := firstSet false job.settings.emscripten file.emscripten
             gecko := firstSet false job.settings.gecko file.gecko
             moduleName := firstSet "Module" job.settings.moduleName file.moduleName
             defaultExport := firstSet false job.settings.defaultExport file.defaultExport },
        tree) := by
  rw [Job.options, onTree_bind_ok (onTree_fileConfig found)]
  simp only [← getD_or]
  rfl

/-- Three settings, with line ends of both kinds and none at the end. -/
def namedText : List Char :=
  "default_export = true\r\nmodule = \"a\\u0009\\\"\u00e9\\\\\"\nemscripten = true".toList

/-- The named file, and another one beside the input. -/
def namedTree : FileTree :=
  ⟨[(["o".toList], .directory),
    (["o".toList, "t.toml".toList], .file (String.ofList namedText).toUTF8),
    ([configName.toList], .file "gecko = true\n".toUTF8)]⟩

/-- A job that names its settings file and takes back one of its settings. -/
def namedJob : Job where
  input := .ofString "a.idl"
  config := some (.ofString "o/t.toml")
  settings := { emscripten := some false }

theorem options_precedence_named :
    namedJob.FileHolds namedTree
        { emscripten := some true, moduleName := some "a\t\"\u00e9\\", defaultExport := some true } ∧
      onTree namedJob.options namedTree =
        (.ok { moduleName := "a\t\"\u00e9\\", defaultExport := true }, namedTree) := by
  have found : namedJob.FileHolds namedTree
      { emscripten := some true, moduleName := some "a\t\"\u00e9\\", defaultExport := some true } := by
    refine .named rfl ⟨[⟨"default_export", .bool true⟩, ⟨"module", .string "a\t\"\u00e9\\"⟩,
      ⟨"emscripten", .bool true⟩], by decide, ?_⟩ rfl
    have chars : List.Forall₂ CharText "a\t\"\u00e9\\".toList
        [['a'], "\\u0009".toList, "\\\"".toList, ['\u00e9'], "\\\\".toList] :=
      .cons (.plain (by decide) (by decide) (by decide)) <|
      .cons (@CharText.four _ [(false, 0), (false, 0), (false, 0), (false, 9)] rfl (by decide)) <|
      .cons (.short (by decide)) <|
      .cons (.plain (by decide) (by decide) (by decide)) <| .cons (.short (by decide)) .nil
    exact .line (.mk (by decide) (List.all_eq_true.1 (by decide)) (.truth true)) (.inr rfl) <|
      .line (.mk (by decide) (List.all_eq_true.1 (by decide)) (.string chars)) (.inl rfl) <|
      .last (.mk (by decide) (List.all_eq_true.1 (by decide)) (.truth true))
  exact ⟨found, options_precedence found⟩

end IdlTypings
