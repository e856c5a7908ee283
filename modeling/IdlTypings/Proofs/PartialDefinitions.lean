import Mathlib
import IdlTypings.Proofs.DocumentAppend
import IdlTypings.Proofs.InterfaceHeads

/-! # Parts of definitions

A part of an interface, a mixin or a dictionary is read exactly where the whole one is, and gives the
same definition: `read_partial_iff`.

* `attributes_append` reads a list of attributes in front of anything.  The list is a region of its
  own, which its closing bracket ends.
* `definitionForm_whole` and `definitionForm_part` read the head of a definition.  It decides which
  form the members at the bracket are put into, and by `lower_form` the form makes no difference.
* `definition_level` compares the levels that texts of different lengths are read at.
* `read_source_iff` puts the parts together: a text is read if the members are, whatever its head.
-/

namespace IdlTypings.Grammar

open IdlTypings.Parser

variable {α β : Type} {s t : List Char} {n m : Nat}

/-! ## Lists of attributes -/

/-- The region of a list, which the square bracket that closes it ends. -/
def Region.list : Region where
  move d c :=
    if c = '[' then .goes (d + 1)
    else if c = ']' then if d = 0 then .ends else .closing d
    else if c = '\"' ∨ c = '/' then .strays
    else .goes d
  curly d := d
  square d := d + 1
  flat flat d := by simp_all [isFlat, isPlain]
  quote _ := rfl
  slash _ := rfl
  openCurly _ := rfl
  closeCurly _ := rfl
  openSquare _ := rfl
  closeSquare _ := rfl

theorem symbol_eq_some_iff {mark : String} {c : Char} (sole : mark.toList = [c]) {x : Unit} :
    symbol mark s = some (x, t) ↔ ∃ rest, skipBlanks s = c :: rest ∧ skipBlanks rest = t := by
  cases start : skipBlanks s with
  | nil => simp [symbol, sole, token, blanks, start]
  | cons d rest =>
    by_cases same : c = d
    · simp [symbol, sole, token, blanks, start, same]
    · simp [symbol, sole, token, blanks, start, same, Ne.symm same]

/-- What stands between square brackets is read with anything behind them. -/
theorem bracketed_append {more : List Char} {eats : Bool} {p q : Parser α} {x : α}
    (steady : Steady .list more n eats 0 0 p q) (short : s.length < n + 1)
    (reads : bracketed p s = some (x, [])) :
    bracketed q (s ++ more) = some (x, skipBlanks more) := by
  simp only [bracketed, bind_apply, Option.bind_eq_some_iff, pure_apply, Option.some.injEq,
    Prod.mk.injEq] at reads ⊢
  obtain ⟨⟨_, u⟩, opens, ⟨x, v⟩, list, ⟨_, w⟩, closes, rfl, rfl⟩ := reads
  have left : "[".toList = ['['] := rfl
  have right : "]".toList = [']'] := rfl
  obtain ⟨inner, start, rfl⟩ := (symbol_eq_some_iff left).mp opens
  obtain ⟨behind, stop, blank⟩ := (symbol_eq_some_iff right).mp closes
  have shorter : inner.length < s.length := by
    have skipped := length_skipBlanks s
    rwa [start, List.length_cons] at skipped
  have short' : (skipBlanks inner).length < n := by
    have skipped := length_skipBlanks inner
    omega
  obtain ⟨-, within, same⟩ := steady.reads short' list
  -- What is read comes to the bracket that closes it, and so does the text it is read from.
  have ends : Region.list.Inside 0 v := by
    rw [← Region.inside_skipBlanks, stop]
    exact .here rfl
  have inside := within.mp ends
  refine ⟨((), skipBlanks inner ++ more), ?_, (x, v ++ more), same inside, ((), skipBlanks more), ?_,
    rfl, rfl⟩
  · refine (symbol_eq_some_iff left).mpr ⟨inner ++ more, ?_, ?_⟩
    · rw [skipBlanks_append, start]
      exact skipBlanks_of_none (blank?_solid (by simp [show isSolid '[' = true by decide]))
    · exact Region.skipBlanks_append ((Region.inside_skipBlanks inner).mp inside) more
  · refine (symbol_eq_some_iff right).mpr ⟨behind ++ more, ?_, ?_⟩
    · rw [Region.skipBlanks_append ends, stop]
      rfl
    · rw [skipBlanks_append, blank, List.nil_append]

/-- A list of attributes is read the same with more after it, and the blanks behind it run on. -/
theorem attributes_append {attributes : List ExtendedAttribute} (short : s.length < n)
    (reads : (nested n).attributes s = some (attributes, [])) (deeper : n ≤ m) (more : List Char) :
    (nested m).attributes (s ++ more) = some (attributes, skipBlanks more) := by
  cases n with
  | zero => omega
  | succ n =>
    cases m with
    | zero => omega
    | succ m =>
      have agree : Nested.Agree .list more n (nested n) (nested m) :=
        nested_agree (Nat.le_of_succ_le_succ deeper)
      exact bracketed_append
        (steady_sepBy (steady_extendedAttribute agree) (steady_symbol (by decide))) short reads

/-! ## Names -/

/-- A name as it is written: a letter and characters of names, perhaps behind a low line that is an
    escape.  Words are not reserved, so it may be spelled like one of the grammar. -/
structure Identifier where
  escaped : Bool
  first : Char
  others : List Char
  letter : first.isAlpha = true
  all : ∀ c ∈ others, isNameChar c = true

namespace Identifier

variable (name : Identifier)

/-- The name itself. -/
def text : String :=
  String.ofList (name.first :: name.others)

def spelling : List Char :=
  if name.escaped then '_' :: name.first :: name.others else name.first :: name.others

theorem nameChars : ∀ c ∈ name.spelling, isNameChar c = true := by
  have first : isNameChar name.first = true := by simp [isNameChar, Char.isAlphanum, name.letter]
  have low : isNameChar '_' = true := by decide
  unfold spelling
  split
  · exact List.forall_mem_cons.mpr ⟨low, List.forall_mem_cons.mpr ⟨first, name.all⟩⟩
  · exact List.forall_mem_cons.mpr ⟨first, name.all⟩

theorem spelling_cons : ∃ c s, name.spelling = c :: s ∧ isNameChar c = true := by
  obtain ⟨c, s, chars⟩ : ∃ c s, name.spelling = c :: s := by
    unfold spelling
    split
    · exact ⟨_, _, rfl⟩
    · exact ⟨_, _, rfl⟩
  exact ⟨c, s, chars, name.nameChars c (by simp [chars])⟩

theorem blank?_spelling (s : List Char) : blank? (name.spelling ++ s) = none := by
  obtain ⟨c, others, chars, nameChar⟩ := name.spelling_cons
  rw [chars]
  exact blank?_solid (by simpa using isSolid_of_nameChar nameChar)

theorem symbol_spelling {sign : String} {d : Char} (sole : sign.toList = [d])
    (mark : isNameChar d = false) (s : List Char) : symbol sign (name.spelling ++ s) = none := by
  obtain ⟨c, others, chars, nameChar⟩ := name.spelling_cons
  have other : d ≠ c := by
    rintro rfl
    simp [mark] at nameChar
  rw [chars]
  exact symbol_none sole other (isSolid_of_nameChar nameChar) _

theorem identifier_spelling (ended : ∀ c ∈ s.head?, isNameChar c = false) :
    identifier (name.spelling ++ s) = some (name.text, skipBlanks s) := by
  refine token_text (name.blank?_spelling s) ?_
  have letters := name_letters name.letter name.all ended
  have notLow : '_' ≠ name.first := by
    intro same
    exact absurd (same ▸ name.letter) (by decide)
  rw [bind_apply]
  unfold spelling text
  split
  · simpa using letters
  · simpa [notLow] using letters

/-- The name in front of a curly bracket. -/
def before (s : List Char) : List Char :=
  name.spelling ++ ' ' :: '\x7b' :: s

theorem identifier_before (s : List Char) :
    identifier (name.before s) = some (name.text, '\x7b' :: s) := by
  rw [before, name.identifier_spelling (ended_blank _), skipBlanks_bracket]

theorem lone_before (s : List Char) (w : String) (known : isWord w = true) :
    (keyword w (name.before s)).bind (fun found => identifier found.2) = none := by
  refine lone_run name.nameChars (name.blank?_spelling _) (ended_blank _) ?_ known
  rw [skipBlanks_bracket]
  exact identifier_none (by decide) s

theorem noMark_before (s : List Char) :
    symbol ":" (name.before s) = none ∧ symbol "\x7b" (name.before s) = none :=
  ⟨name.symbol_spelling (d := ':') rfl (by decide) _,
    name.symbol_spelling (d := '\x7b') rfl (by decide) _⟩

theorem begins_before {text : String} (word : isWord text = true) (s : List Char) :
    Begins text (text.toList ++ ' ' :: name.before s) (name.before s) :=
  begins_word word (name.blank?_spelling _)

end Identifier

/-! ## Heads -/

/-- The kinds of definitions that have parts. -/
inductive Kind where
  | interface
  | mixin
  | dictionary

/-- The words that a definition begins with. -/
def Kind.words : Kind → String
  | .interface => "interface"
  | .mixin => "interface mixin"
  | .dictionary => "dictionary"

def Kind.definition : Kind → Idl.Interface → Idl.Definition
  | .interface => .interface
  | .mixin => .mixin
  | .dictionary => .dictionary

/-- What is read from a definition, or from a part of one, behind its name. -/
def Kind.form (kind : Kind) (isPart : Bool) (level : Nested) (name : String) :
    Parser DefinitionForm :=
  closed <| match kind, isPart with
    | .interface, false => do return .interface name none (← body level (interfaceMember level))
    | .interface, true => do return .partialInterface name (← body level (interfaceMember level))
    | .mixin, false => do return .mixin name (← body level (mixinMember level))
    | .mixin, true => do return .partialMixin name (← body level (mixinMember level))
    | .dictionary, false => do return .dictionary name none (← body level (dictionaryMember level))
    | .dictionary, true => do return .partialDictionary name (← body level (dictionaryMember level))

/-- The members of a definition and its semicolon. -/
def Kind.members (kind : Kind) (level : Nested) : Parser (List Idl.Member) :=
  closed <| match kind with
    | .interface => do return (← body level (interfaceMember level)).map InterfaceMember.lower
    | .mixin => do return (← body level (mixinMember level)).map MixinMember.lower
    | .dictionary => do return (← body level (dictionaryMember level)).map DictionaryMember.lower

/-- The head of a definition, or of a part of one, up to its bracket. -/
def Kind.head (kind : Kind) (isPart : Bool) (name : Identifier) : List Char :=
  (if isPart then "partial " else "").toList ++ (kind.words.toList ++ ' ' :: (name.spelling ++ [' ']))

section

variable (level : Nested) {text next rest : List Char}

theorem definitionForm_mixin (first : Begins "interface" text next) (second : Begins "mixin" next rest)
    (noMark : symbol ":" rest = none ∧ symbol "\x7b" rest = none) :
    definitionForm level text = mixinForm level text := by
  -- An interface called `mixin` would have its members or its parent behind the name.
  have noInterface : interfaceForm level text = none := by
    simp [interfaceForm, closed, first.word, second.name, inheritance, body, braced, noMark]
  simp [definitionForm, firstOf_cons_apply, firstOf_nil_apply, callbackForm, callbackInterfaceForm,
    noInterface, namespaceForm, dictionaryForm, partialInterfaceForm, partialMixinForm,
    partialDictionaryForm, partialNamespaceForm, enumerationForm, typedefForm, includesForm,
    implementsForm, closed, first.word, first.name, second.word,
    second.word (show isWord "implements" = true by decide)]

theorem definitionForm_dictionary (begins : Begins "dictionary" text next)
    (lone : ∀ w, isWord w = true → (keyword w next).bind (fun found => identifier found.2) = none) :
    definitionForm level text = dictionaryForm level text := by
  simp [definitionForm, firstOf_cons_apply, firstOf_nil_apply, callbackForm, callbackInterfaceForm,
    interfaceForm, mixinForm, namespaceForm, partialInterfaceForm, partialMixinForm,
    partialDictionaryForm, partialNamespaceForm, enumerationForm, typedefForm, includesForm,
    implementsForm, closed, begins.word, begins.name, bind_lone (lone "includes" (by decide)),
    bind_lone (lone "implements" (by decide))]

theorem definitionForm_partial {word : String} (first : Begins "partial" text next)
    (second : Begins word next rest) (other : word ≠ "includes" ∧ word ≠ "implements") :
    definitionForm level text = firstOf [partialInterfaceForm level, partialMixinForm level,
      partialDictionaryForm level, partialNamespaceForm level] text := by
  have noImplements := second.word (show isWord "implements" = true by decide)
  simp [definitionForm, firstOf_cons_apply, firstOf_nil_apply, callbackForm, callbackInterfaceForm,
    interfaceForm, mixinForm, namespaceForm, dictionaryForm, enumerationForm, typedefForm,
    includesForm, implementsForm, closed, first.word, first.name, second.word, other.1.symm,
    other.2.symm, noImplements]

theorem definitionForm_partialInterface (first : Begins "partial" text next)
    (second : Begins "interface" next rest)
    (lone : (keyword "mixin" rest).bind (fun found => identifier found.2) = none) :
    definitionForm level text = partialInterfaceForm level text := by
  rw [definitionForm_partial level first second (by decide)]
  simp [firstOf_cons_apply, firstOf_nil_apply, partialMixinForm, partialDictionaryForm,
    partialNamespaceForm, closed, first.word, second.word, bind_lone lone]

theorem definitionForm_partialMixin {last : List Char} (first : Begins "partial" text next)
    (second : Begins "interface" next rest) (third : Begins "mixin" rest last)
    (noBracket : symbol "\x7b" last = none) :
    definitionForm level text = partialMixinForm level text := by
  rw [definitionForm_partial level first second (by decide)]
  -- As with whole definitions, `mixin` is no name of an interface here.
  simp [firstOf_cons_apply, firstOf_nil_apply, partialInterfaceForm, partialDictionaryForm,
    partialNamespaceForm, closed, first.word, second.word, third.name, body, braced, noBracket]

theorem definitionForm_partialDictionary (first : Begins "partial" text next)
    (second : Begins "dictionary" next rest) :
    definitionForm level text = partialDictionaryForm level text := by
  rw [definitionForm_partial level first second (by decide)]
  simp [firstOf_cons_apply, firstOf_nil_apply, partialInterfaceForm, partialMixinForm,
    partialNamespaceForm, closed, first.word, second.word]

end

/-- A part of a definition stands for what the whole one does. -/
theorem lower_form (level : Nested) (kind : Kind) (isPart : Bool) (name : String)
    (attributes : Option (List ExtendedAttribute)) (s : List Char) :
    (kind.form isPart level name s).map
        (fun found => (DefinitionForm.lower ⟨attributes, found.1⟩, found.2)) =
      (kind.members level s).map fun found =>
        (kind.definition ⟨name, none, found.1, lowerAttributes attributes⟩, found.2) := by
  cases kind <;> cases isPart <;>
    simp only [Kind.form, Kind.members, closed_map, Option.map_map] <;> rfl

section

variable (level : Nested) (name : Identifier) (s : List Char)

theorem definitionForm_whole (kind : Kind) :
    definitionForm level (kind.head false name ++ '\x7b' :: s) =
      kind.form false level name.text ('\x7b' :: s) := by
  have lone := name.lone_before s
  have named := name.identifier_before s
  -- Each kind begins with words of its own, which rule out all forms but one.
  cases kind with
  | interface =>
    have text : Kind.interface.head false name ++ '\x7b' :: s =
        "interface".toList ++ ' ' :: name.before s := by
      simp [Kind.head, Kind.words, Identifier.before]
    have begins : Begins "interface" _ _ := name.begins_before (by decide) s
    rw [text, definitionForm_interface level begins lone, interfaceForm,
      closed_bind (begins.word (by decide)), closed_bind named, closed_bind (noParent_bracket s)]
    rfl
  | mixin =>
    have text : Kind.mixin.head false name ++ '\x7b' :: s =
        "interface".toList ++ ' ' :: ("mixin".toList ++ ' ' :: name.before s) := by
      simp [Kind.head, Kind.words, Identifier.before]
    have second : Begins "mixin" _ _ := name.begins_before (by decide) s
    have first := begins_words "interface" "mixin" (by decide) (by decide) (' ' :: name.before s)
    rw [text, definitionForm_mixin level first second (name.noMark_before s), mixinForm,
      closed_bind (first.word (by decide)), closed_bind (second.word (by decide)), closed_bind named]
    rfl
  | dictionary =>
    have text : Kind.dictionary.head false name ++ '\x7b' :: s =
        "dictionary".toList ++ ' ' :: name.before s := by
      simp [Kind.head, Kind.words, Identifier.before]
    have begins : Begins "dictionary" _ _ := name.begins_before (by decide) s
    rw [text, definitionForm_dictionary level begins lone, dictionaryForm,
      closed_bind (begins.word (by decide)), closed_bind named, closed_bind (noParent_bracket s)]
    rfl

theorem definitionForm_part (kind : Kind) :
    definitionForm level (kind.head true name ++ '\x7b' :: s) =
      kind.form true level name.text ('\x7b' :: s) := by
  have named := name.identifier_before s
  -- As for whole definitions, with one word more in front.
  cases kind with
  | interface =>
    have text : Kind.interface.head true name ++ '\x7b' :: s =
        "partial".toList ++ ' ' :: ("interface".toList ++ ' ' :: name.before s) := by
      simp [Kind.head, Kind.words, Identifier.before]
    have second : Begins "interface" _ _ := name.begins_before (by decide) s
    have first := begins_words "partial" "interface" (by decide) (by decide) (' ' :: name.before s)
    rw [text, definitionForm_partialInterface level first second (name.lone_before s _ (by decide)),
      partialInterfaceForm, closed_bind (first.word (by decide)),
      closed_bind (second.word (by decide)), closed_bind named]
    rfl
  | mixin =>
    have text : Kind.mixin.head true name ++ '\x7b' :: s = "partial".toList ++ ' ' ::
        ("interface".toList ++ ' ' :: ("mixin".toList ++ ' ' :: name.before s)) := by
      simp [Kind.head, Kind.words, Identifier.before]
    have third : Begins "mixin" _ _ := name.begins_before (by decide) s
    have second := begins_words "interface" "mixin" (by decide) (by decide) (' ' :: name.before s)
    have first := begins_words "partial" "interface" (by decide) (by decide)
      (' ' :: ("mixin".toList ++ ' ' :: name.before s))
    rw [text, definitionForm_partialMixin level first second third (name.noMark_before s).2,
      partialMixinForm, closed_bind (first.word (by decide)), closed_bind (second.word (by decide)),
      closed_bind (third.word (by decide)), closed_bind named]
    rfl
  | dictionary =>
    have text : Kind.dictionary.head true name ++ '\x7b' :: s =
        "partial".toList ++ ' ' :: ("dictionary".toList ++ ' ' :: name.before s) := by
      simp [Kind.head, Kind.words, Identifier.before]
    have second : Begins "dictionary" _ _ := name.begins_before (by decide) s
    have first := begins_words "partial" "dictionary" (by decide) (by decide) (' ' :: name.before s)
    rw [text, definitionForm_partialDictionary level first second, partialDictionaryForm,
      closed_bind (first.word (by decide)), closed_bind (second.word (by decide)), closed_bind named]
    rfl

end

/-! ## Attributes in front -/

/-- What may stand in front of a definition: nothing, or a list of attributes that is accepted. -/
inductive Lead where
  | none
  | list (text : List Char) (attributes : List ExtendedAttribute) (opens : text.head? = some '[')
      (accepted : (nested (text.length + 1)).attributes text = some (attributes, []))

def Lead.text : Lead → List Char
  | .none => []
  | .list text .. => text

def Lead.attributes : Lead → Option (List ExtendedAttribute)
  | .none => .none
  | .list _ attributes .. => some attributes

/-- The text of a definition, or of a part of one. -/
def Kind.source (kind : Kind) (isPart : Bool) (lead : Lead) (name : Identifier)
    (inner : List Char) : List Char :=
  lead.text ++ ' ' :: (kind.head isPart name ++ '\x7b' :: (inner ++ "\x7d;".toList))

theorem Kind.head_word (kind : Kind) (isPart : Bool) (name : Identifier) :
    ∃ word rest, isWord word = true ∧ kind.head isPart name = word.toList ++ rest := by
  cases isPart with
  | true =>
    exact ⟨"partial", ' ' :: (kind.words.toList ++ ' ' :: (name.spelling ++ [' '])), by decide,
      by simp [Kind.head]⟩
  | false =>
    cases kind with
    | interface =>
      exact ⟨"interface", ' ' :: (name.spelling ++ [' ']), by decide, by simp [Kind.head, Kind.words]⟩
    | mixin =>
      exact ⟨"interface", ' ' :: ("mixin".toList ++ ' ' :: (name.spelling ++ [' '])), by decide,
        by simp [Kind.head, Kind.words]⟩
    | dictionary =>
      exact ⟨"dictionary", ' ' :: (name.spelling ++ [' ']), by decide, by simp [Kind.head, Kind.words]⟩

theorem definition_lead (lead : Lead) {word : String} (isWord_word : isWord word = true)
    (last : ∀ c ∈ (word.toList ++ s).getLast?, Text.isSpace c = false)
    (deep : (lead.text ++ ' ' :: (word.toList ++ s)).length < n) :
    definition (nested n) (Text.trim (lead.text ++ ' ' :: (word.toList ++ s))) =
      (definitionForm (nested n) (word.toList ++ s)).map
        fun found => (⟨lead.attributes, found.1⟩, found.2) := by
  obtain ⟨c, others, chars, -, all⟩ := isWord_cons isWord_word
  have solid := isSolid_of_nameChar (all c List.mem_cons_self)
  obtain ⟨n, rfl⟩ : ∃ k, n = k + 1 := ⟨n - 1, by omega⟩
  cases lead with
  | none =>
    have trimmed : Text.trim (' ' :: (word.toList ++ s)) = word.toList ++ s := by
      have first : ∀ c ∈ (word.toList ++ s).head?, Text.isSpace c = false := by
        simp_all [isSolid]
      have spaces : ∀ c ∈ [' '], Text.isSpace c = true := by
        simpa using isSpace_of_blank (show isBlank ' ' = true by decide)
      simpa using trim_around spaces (List.forall_mem_nil _) first last
    rw [Lead.text, List.nil_append, trimmed]
    exact definition_word (nested n) isWord_word s
  | list text attributes opens accepted =>
    have trimmed : Text.trim (text ++ ' ' :: (word.toList ++ s)) =
        text ++ ' ' :: (word.toList ++ s) := by
      have first : ∀ c ∈ (text ++ ' ' :: (word.toList ++ s)).head?, Text.isSpace c = false := by
        rw [List.head?_append, opens]
        rintro _ ⟨⟩
        decide
      have last' : ∀ c ∈ (text ++ ' ' :: (word.toList ++ s)).getLast?, Text.isSpace c = false := by
        rw [chars] at last ⊢
        rw [List.getLast?_append_of_ne_nil _ (by simp)]
        exact last
      simpa using trim_around (List.forall_mem_nil _) (List.forall_mem_nil _) first last'
    -- The list is accepted on its own, so it is read in front of the definition.
    have reads : (nested (n + 1)).attributes (text ++ ' ' :: (word.toList ++ s)) =
        some (attributes, word.toList ++ s) := by
      have shorter : text.length + 1 ≤ n + 1 := by
        simp only [Lead.text, List.length_append, List.length_cons] at deep
        omega
      rw [attributes_append (Nat.lt_succ_self _) accepted shorter, skipBlanks_word isWord_word]
    rw [Lead.text, trimmed, definition, annotated, bind_apply, optional_apply, reads]
    simp only [Option.map_some, Option.getD_some, Option.bind_some, bind_apply]
    cases definitionForm (nested (n + 1)) (word.toList ++ s) <;> rfl

/-- A definition is read from its members, and a part of one as if it were whole. -/
theorem lower_source (kind : Kind) (isPart : Bool) (lead : Lead) (name : Identifier)
    (inner : List Char) (deep : (kind.source isPart lead name inner).length < n) :
    (definition (nested n) (Text.trim (kind.source isPart lead name inner))).map
        (fun found => (DefinitionForm.lower found.1, found.2)) =
      (kind.members (nested n) ('\x7b' :: (inner ++ "\x7d;".toList))).map fun found =>
        (kind.definition ⟨name.text, none, found.1, lowerAttributes lead.attributes⟩, found.2) := by
  obtain ⟨word, rest, isWord_word, head⟩ := kind.head_word isPart name
  -- The text ends in a semicolon, so trimming takes nothing off its end.
  have last : ∀ c ∈ (word.toList ++ (rest ++ '\x7b' :: (inner ++ "\x7d;".toList))).getLast?,
      Text.isSpace c = false := by
    have regroup : word.toList ++ (rest ++ '\x7b' :: (inner ++ "\x7d;".toList)) =
        (word.toList ++ rest ++ '\x7b' :: inner ++ ['\x7d']) ++ [';'] := by simp
    rw [regroup, List.getLast?_append]
    rintro _ ⟨⟩
    decide
  have text : kind.source isPart lead name inner = lead.text ++ ' ' :: (word.toList ++
      (rest ++ '\x7b' :: (inner ++ "\x7d;".toList))) := by
    rw [Kind.source, head, List.append_assoc]
  have form : definitionForm (nested n) (kind.head isPart name ++ '\x7b' :: (inner ++ "\x7d;".toList)) =
      kind.form isPart (nested n) name.text ('\x7b' :: (inner ++ "\x7d;".toList)) := by
    cases isPart with
    | false => exact definitionForm_whole (nested n) name _ kind
    | true => exact definitionForm_part (nested n) name _ kind
  rw [text] at deep ⊢
  rw [definition_lead lead isWord_word last deep, ← List.append_assoc, ← head, form, Option.map_map,
    ← lower_form]
  rfl

/-! ## Documents at different levels -/

/-- All levels that are deep enough for a text read the same definition from it. -/
theorem definition_level (short : s.length < n) (deeper : n ≤ m) :
    definition (nested n) s = definition (nested m) s := by
  have closing : Closing [] n (definition (nested n)) (definition (nested m)) :=
    closing_definition (nested_agree deeper)
  cases reads : definition (nested n) s with
  | some found =>
    obtain ⟨rest, left, -, -, same⟩ := closing.closes short reads
    rw [List.append_nil, List.append_nil, ← left] at same
    exact same.symm
  | none =>
    cases deep : definition (nested m) s with
    | none => rfl
    | some found =>
      -- What is read at some level is bounded, and then the failure is one at every level.
      have bounded := bounded_of_definition (Nat.lt_of_lt_of_le short deeper) deep
      have fails := closing.fails short reads bounded
      rw [List.append_nil, deep] at fails
      cases fails

theorem rounds_congr {p q : Parser α} {xs : List α}
    (same : ∀ u : List Char, u.length ≤ s.length → p u = q u) (rounds : Rounds p s xs t) :
    Rounds q s xs t := by
  induction rounds with
  | done => exact .done
  | round reads shorter _ ih =>
    refine .round ((same _ (Nat.le_refl _)).symm.trans reads) shorter (ih fun u length => ?_)
    exact same u (by omega)

theorem read_eq_ok_at {text : List Char} {ds : List Idl.Definition}
    (deep : (Text.trim text).length < n) :
    read text = .ok ds ↔ ∃ forms, Rounds (definition (nested n)) (Text.trim text) forms [] ∧
      forms.map DefinitionForm.lower = ds := by
  have level (u : List Char) (shorter : u.length ≤ (Text.trim text).length) :
      definition (nested ((Text.trim text).length + 1)) u = definition (nested n) u :=
    definition_level (Nat.lt_succ_of_le shorter) deep
  simp only [read_eq_ok_iff, parse_eq_ok_iff]
  constructor
  · rintro ⟨forms, rounds, lowered⟩
    exact ⟨forms, rounds_congr level rounds, lowered⟩
  · rintro ⟨forms, rounds, lowered⟩
    exact ⟨forms, rounds_congr (fun u shorter => (level u shorter).symm) rounds, lowered⟩

theorem length_trim (s : List Char) : (Text.trim s).length ≤ s.length := by
  obtain ⟨before, after, parts, -⟩ := trim_parts s
  have lengths := congrArg List.length parts
  rw [List.length_append, List.length_append] at lengths
  omega

theorem trim_source_ne_nil (kind : Kind) (isPart : Bool) (lead : Lead) (name : Identifier)
    (inner : List Char) : Text.trim (kind.source isPart lead name inner) ≠ [] := by
  intro empty
  have space := isSpace_of_trim_nil empty '\x7b' (by simp [Kind.source])
  exact absurd space (by decide)

/-- A definition, whole or not, is read if its members are, and the statements behind it. -/
theorem read_source_iff (kind : Kind) (isPart : Bool) (lead : Lead) (name : Identifier)
    (inner : List Char) (deep : (kind.source isPart lead name inner).length < n)
    (ds : List Idl.Definition) :
    read (kind.source isPart lead name inner) = .ok ds ↔
      ∃ members rest forms,
        kind.members (nested n) ('\x7b' :: (inner ++ "\x7d;".toList)) = some (members, rest) ∧
        Rounds (definition (nested n)) rest forms [] ∧
        ds = kind.definition ⟨name.text, none, members, lowerAttributes lead.attributes⟩ ::
          forms.map DefinitionForm.lower := by
  have short := Nat.lt_of_le_of_lt (length_trim _) deep
  have lowered := lower_source kind isPart lead name inner deep
  rw [read_eq_ok_at short]
  constructor
  · rintro ⟨forms, rounds, rfl⟩
    have nonempty := trim_source_ne_nil kind isPart lead name inner
    -- The rounds are over the trimmed text, which has to be a variable to take the first one off.
    generalize Text.trim (kind.source isPart lead name inner) = text at nonempty rounds lowered
    cases rounds with
    | done => exact absurd rfl nonempty
    | @round _ rest _ form forms reads _ others =>
      rw [reads, Option.map_some, eq_comm, Option.map_eq_some_iff] at lowered
      obtain ⟨⟨members, rest'⟩, found, same⟩ := lowered
      obtain ⟨meaning, rfl⟩ := Prod.mk.inj same
      exact ⟨members, _, forms, found, others, by rw [List.map_cons, meaning]⟩
  · rintro ⟨members, rest, forms, found, rounds, rfl⟩
    rw [found, Option.map_some, Option.map_eq_some_iff] at lowered
    obtain ⟨⟨form, rest'⟩, reads, same⟩ := lowered
    obtain ⟨meaning, rfl⟩ := Prod.mk.inj same
    refine ⟨form :: forms, .round reads (definition_shortens short reads) rounds, ?_⟩
    rw [List.map_cons, meaning]

/-- A part of a definition is read where the whole one is, and the other way round, as the same
    definitions.  The first of them has the name and the attributes that are written and no parent. -/
theorem read_partial_iff (kind : Kind) (lead : Lead) (name : Identifier) (inner : List Char)
    (ds : List Idl.Definition) :
    (read (kind.source false lead name inner) = .ok ds ↔
        read (kind.source true lead name inner) = .ok ds) ∧
      (read (kind.source false lead name inner) = .ok ds → ∃ members others,
        ds = kind.definition ⟨name.text, none, members, lowerAttributes lead.attributes⟩ :: others) := by
  -- Both texts are read at a level that is deep enough for either.
  obtain ⟨n, deepWhole, deepPart⟩ : ∃ n, (kind.source false lead name inner).length < n ∧
      (kind.source true lead name inner).length < n :=
    ⟨_, Nat.lt_succ_of_le (Nat.le_add_right _ _), Nat.lt_succ_of_le (Nat.le_add_left _ _)⟩
  have whole := read_source_iff kind false lead name inner deepWhole ds
  have part := read_source_iff kind true lead name inner deepPart ds
  refine ⟨whole.trans part.symm, fun reads => ?_⟩
  obtain ⟨members, _, forms, -, -, same⟩ := whole.mp reads
  exact ⟨members, _, same⟩

example : ∃ lead : Lead, lead.text = "[Exposed=Window]".toList ∧
    read (Kind.interface.source true lead ⟨false, 'A', [], rfl, by simp⟩ " attribute long b; ".toList) =
      .ok [.interface ⟨"A", none, [.attribute "b" (.named "long") false],
        [⟨"Exposed", some (.identifier "Window")⟩]⟩] :=
  ⟨.list "[Exposed=Window]".toList [.identifier "Exposed" "Window"] rfl (by cbv), rfl, by cbv⟩

end IdlTypings.Grammar
