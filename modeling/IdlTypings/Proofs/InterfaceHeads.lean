import Mathlib
import IdlTypings.Grammar.Document
import IdlTypings.Proofs.StatementBounds
import IdlTypings.Proofs.WrittenTypes

/-! # The head of an interface

An interface is read from its head and its body.  `definition_head` says that the head, with or without
a parent, only decides the name and the parent: everything else comes from the text at the bracket.
`definition_implements` reads a statement that one interface implements another.

The readers of single tokens are run here on a text that is known up to the end of the token, with
anything after it: `keyword_text`, `keyword_none`, `identifier_text` and `symbol_text`.
-/

namespace IdlTypings.Grammar

open IdlTypings.Parser

variable {α β : Type} {s t : List Char}

/-! ## Tokens at the start of a text -/

theorem token_text {p : Parser α} {x : α} (solid : blank? s = none) (reads : p s = some (x, t)) :
    token p s = some (x, skipBlanks t) := by
  simp [token, blanks, skipBlanks_of_none solid, reads]

theorem token_missing {p : Parser α} (solid : blank? s = none) (fails : p s = none) :
    token p s = none := by
  simp [token, blanks, skipBlanks_of_none solid, fails]

/-- A word does not begin with a blank. -/
theorem blank?_word {text : String} (word : isWord text = true) (s : List Char) :
    blank? (text.toList ++ s) = none := by
  obtain ⟨c, others, chars, -, all⟩ := isWord_cons word
  refine blank?_solid ?_
  rw [chars]
  rintro _ ⟨⟩
  exact isSolid_of_nameChar (all c List.mem_cons_self)

theorem skipBlanks_word {text : String} (word : isWord text = true) (s : List Char) :
    skipBlanks (' ' :: (text.toList ++ s)) = text.toList ++ s := by
  rw [skipBlanks_of_some (blank?_blank (by decide) _), skipBlanks_of_none (blank?_word word s)]

section

variable {text : String} (word : isWord text = true)
  (ended : ∀ c ∈ s.head?, isNameChar c = false)

include word ended

theorem keyword_text : keyword text (text.toList ++ s) = some ((), skipBlanks s) := by
  refine token_text (blank?_word word s) ?_
  rw [bind_apply, exactly_append]
  exact notFollowedBy_ended ended

theorem keyword_none {w : String} (known : isWord w = true) (different : text ≠ w) :
    keyword w (text.toList ++ s) = none :=
  token_missing (blank?_word word s) (exactly_other known word ended different)

theorem identifier_text : identifier (text.toList ++ s) = some (text, skipBlanks s) :=
  token_text (blank?_word word s) (name_word word ended)

end

theorem ended_blank (s : List Char) : ∀ c ∈ (' ' :: s).head?, isNameChar c = false := by
  simp [show isNameChar ' ' = false by decide]

/-- A text begins with a word, as the readers of words and of names see it. -/
structure Begins (text : String) (s t : List Char) : Prop where
  word {w : String} (known : isWord w = true) :
    keyword w s = if w = text then some ((), t) else none
  name : identifier s = some (text, t)

theorem begins_word {text : String} (word : isWord text = true) (solid : blank? t = none) :
    Begins text (text.toList ++ ' ' :: t) t := by
  have skipped : skipBlanks (' ' :: t) = t := by
    rw [skipBlanks_of_some (blank?_blank (by decide) _), skipBlanks_of_none solid]
  refine ⟨fun known => ?_, by rw [identifier_text word (ended_blank t), skipped]⟩
  split_ifs with same
  · rw [same, keyword_text word (ended_blank t), skipped]
  · exact keyword_none word (ended_blank t) known (Ne.symm same)

theorem begins_words (text word : String) (first : isWord text = true) (second : isWord word = true)
    (s : List Char) : Begins text (text.toList ++ ' ' :: (word.toList ++ s)) (word.toList ++ s) :=
  begins_word first (blank?_word second s)

theorem symbol_text {sign : String} {c : Char} (sole : sign.toList = [c]) (solid : isSolid c = true)
    (s : List Char) : symbol sign (c :: s) = some ((), skipBlanks s) := by
  refine token_text (blank?_solid (by simpa using solid)) ?_
  simp [sole]

theorem symbol_none {sign : String} {c d : Char} (sole : sign.toList = [d]) (different : d ≠ c)
    (solid : isSolid c = true) (s : List Char) : symbol sign (c :: s) = none := by
  refine token_missing (blank?_solid (by simpa using solid)) ?_
  simp [sole, different]

theorem identifier_none {c : Char} (mark : isSolid c = true ∧ c.isAlpha = false ∧ c ≠ '_')
    (s : List Char) : identifier (c :: s) = none := by
  refine token_missing (blank?_solid (by simpa using mark.1)) ?_
  simp [takeWhile1, mark.2.1, mark.2.2.symm]

/-- A statement that begins with a word has no attributes. -/
theorem definition_word (inner : Nested) {text : String} (word : isWord text = true)
    (s : List Char) :
    definition inner.step (text.toList ++ s) = (definitionForm inner.step (text.toList ++ s)).map
      fun found => (⟨none, found.1⟩, found.2) := by
  obtain ⟨c, others, chars, -, all⟩ := isWord_cons word
  have letter := all c List.mem_cons_self
  have other : '[' ≠ c := by
    rintro rfl
    exact absurd letter (by decide)
  have mark : symbol "[" (c :: (others ++ s)) = none :=
    symbol_none (d := '[') (by simp) other (isSolid_of_nameChar letter) _
  have bare : inner.step.attributes (c :: (others ++ s)) = none := by
    change extendedAttributes inner _ = none
    rw [extendedAttributes, bracketed, bind_apply, mark]
    rfl
  rw [chars, List.cons_append, definition, annotated, bind_apply, optional_apply, bare]
  simp only [Option.map_none, Option.getD_none, Option.bind_some, bind_apply]
  cases definitionForm inner.step (c :: (others ++ s)) <;> rfl

/-! ## Heads -/

/-- The head of an interface, up to its bracket. -/
def headText (name : String) : Option String → String
  | none => "interface " ++ name ++ " "
  | some parent => "interface " ++ name ++ ": " ++ parent ++ " "

theorem bind_lone {w : String} {named : List Char}
    (lone : (keyword w named).bind (fun found => identifier found.2) = none)
    (next : String × List Char → Option α) :
    (keyword w named).bind (fun found => (identifier found.2).bind next) = none := by
  rw [← Option.bind_assoc, lone, Option.bind_none]

/-- A statement that begins with `interface` is an interface or nothing, if no name stands behind the
    next word. -/
theorem definitionForm_interface (level : Nested) {text named : List Char}
    (begins : Begins "interface" text named)
    (lone : ∀ w, isWord w = true →
      (keyword w named).bind (fun found => identifier found.2) = none) :
    definitionForm level text = interfaceForm level text := by
  simp [definitionForm, firstOf_cons_apply, firstOf_nil_apply, callbackForm, callbackInterfaceForm,
    mixinForm, namespaceForm, dictionaryForm, partialInterfaceForm, partialMixinForm,
    partialDictionaryForm, partialNamespaceForm, enumerationForm, typedefForm, includesForm,
    implementsForm, closed, begins.word, begins.name, bind_lone (lone "mixin" (by decide)),
    bind_lone (lone "includes" (by decide)), bind_lone (lone "implements" (by decide))]

/-- Where no name stands behind a run of characters, none stands behind a word that it is read as. -/
theorem lone_run {run : List Char} {w : String} (all : ∀ c ∈ run, isNameChar c = true)
    (solid : blank? (run ++ s) = none) (ended : ∀ c ∈ s.head?, isNameChar c = false)
    (noName : identifier (skipBlanks s) = none) (known : isWord w = true) :
    (keyword w (run ++ s)).bind (fun found => identifier found.2) = none := by
  by_cases same : run = w.toList
  · rw [same, keyword_text known ended, Option.bind_some, noName]
  · rw [keyword, token_missing solid (exactly_run known all ended same), Option.bind_none]

theorem lone_word {text w : String} (word : isWord text = true)
    (ended : ∀ c ∈ s.head?, isNameChar c = false) (noName : identifier (skipBlanks s) = none)
    (known : isWord w = true) :
    (keyword w (text.toList ++ s)).bind (fun found => identifier found.2) = none := by
  obtain ⟨c, others, chars, -, all⟩ := isWord_cons word
  exact lone_run (chars ▸ all) (blank?_word word s) ended noName known

theorem closed_bind {p : Parser α} {f : α → Parser β} {x : α} (reads : p s = some (x, t)) :
    closed (p >>= f) s = closed (f x) t := by
  simp [closed, reads]

theorem closed_map (f : α → β) (p : Parser α) (s : List Char) :
    closed (p >>= fun x => pure (f x)) s = (closed p s).map fun found => (f found.1, found.2) := by
  simp only [closed, bind_apply, pure_apply]
  cases p s with
  | none => rfl
  | some found =>
    cases ends : symbol ";" found.2 <;> simp [ends]

theorem interfaceForm_head (level : Nested) {text named after rest : List Char} {name : String}
    {parent : Option String} (word : keyword "interface" text = some ((), named))
    (isNamed : identifier named = some (name, after))
    (inherits : optional inheritance after = some (parent, rest)) :
    interfaceForm level text = (closed (body level (interfaceMember level)) rest).map
      fun found => (.interface name parent found.1, found.2) := by
  rw [interfaceForm, closed_bind word, closed_bind isNamed, closed_bind inherits, closed_map]

/-- An interface is read from what stands behind its name. -/
theorem definition_interface (inner : Nested) {name : String} (isIdentifier : IsIdentifier name)
    {after rest : List Char} (ended : ∀ c ∈ after.head?, isNameChar c = false)
    (noName : identifier (skipBlanks after) = none) {parent : Option String}
    (inherits : optional inheritance (skipBlanks after) = some (parent, rest)) :
    definition inner.step ("interface".toList ++ ' ' :: (name.toList ++ after)) =
      (closed (body inner.step (interfaceMember inner.step)) rest).map
        fun found => (⟨none, .interface name parent found.1⟩, found.2) := by
  have word := isIdentifier.word
  have begins := begins_words "interface" name (by decide) word after
  have keyword := begins.word (show isWord "interface" = true by decide)
  rw [if_pos rfl] at keyword
  rw [definition_word inner (by decide),
    definitionForm_interface inner.step begins fun _ known => lone_word word ended noName known,
    interfaceForm_head inner.step keyword (identifier_text word ended) inherits, Option.map_map]
  rfl

theorem skipBlanks_bracket (s : List Char) : skipBlanks (' ' :: '\x7b' :: s) = '\x7b' :: s := by
  rw [skipBlanks_of_some (blank?_blank (by decide) _)]
  exact skipBlanks_of_none (blank?_solid (by simp [show isSolid '\x7b' = true by decide]))

theorem noParent_bracket (s : List Char) :
    optional inheritance ('\x7b' :: s) = some (none, '\x7b' :: s) := by
  have noColon : symbol ":" ('\x7b' :: s) = none :=
    symbol_none (d := ':') (by simp) (by decide) (by decide) s
  simp [inheritance, noColon]

theorem inheritance_text {parent : String} (word : isWord parent = true) (s : List Char) :
    inheritance (':' :: ' ' :: (parent.toList ++ ' ' :: '\x7b' :: s)) =
      some (parent, '\x7b' :: s) := by
  have named := identifier_text word (ended_blank ('\x7b' :: s))
  rw [inheritance, bind_apply, symbol_text (by simp) (by decide), Option.bind_some,
    skipBlanks_word word, named, skipBlanks_bracket]

/-- The text of an interface is read at its bracket; its head gives the name and the parent. -/
theorem definition_head (inner : Nested) {name : String} (isIdentifier : IsIdentifier name)
    {parent : Option String} (isParent : ∀ p ∈ parent, IsIdentifier p) (s : List Char) :
    definition inner.step ((headText name parent).toList ++ '\x7b' :: s) =
      (closed (body inner.step (interfaceMember inner.step)) ('\x7b' :: s)).map
        fun found => (⟨none, .interface name parent found.1⟩, found.2) := by
  cases parent with
  | none =>
    have text : (headText name none).toList ++ '\x7b' :: s =
        "interface".toList ++ ' ' :: (name.toList ++ ' ' :: '\x7b' :: s) := by
      simp [headText]
    rw [text]
    refine definition_interface inner isIdentifier (ended_blank _) ?_ ?_
    · rw [skipBlanks_bracket]
      exact identifier_none (by decide) s
    · rw [skipBlanks_bracket, noParent_bracket]
  | some parent =>
    have text : (headText name (some parent)).toList ++ '\x7b' :: s =
        "interface".toList ++ ' ' :: (name.toList ++
          ':' :: ' ' :: (parent.toList ++ ' ' :: '\x7b' :: s)) := by
      simp [headText]
    have colon : skipBlanks (':' :: ' ' :: (parent.toList ++ ' ' :: '\x7b' :: s)) =
        ':' :: ' ' :: (parent.toList ++ ' ' :: '\x7b' :: s) :=
      skipBlanks_of_none (blank?_solid (by simp [show isSolid ':' = true by decide]))
    rw [text]
    refine definition_interface inner isIdentifier (by simp) ?_ ?_
    · rw [colon]
      exact identifier_none (by decide) _
    · simp [colon, inheritance_text (isParent parent rfl).word]

/-! ## Statements of implementation -/

theorem definitionForm_implements (level : Nested) {text named behind last rest : List Char}
    {child parent : String} (first : ∀ w ∈ reserved, isWord w = true → keyword w text = none)
    (readsChild : identifier text = some (child, named))
    (notIncludes : keyword "includes" named = none)
    (readsWord : keyword "implements" named = some ((), behind))
    (readsParent : identifier behind = some (parent, last))
    (ends : symbol ";" last = some ((), rest)) :
    definitionForm level text = some (.implements child parent, rest) := by
  -- All forms before the last two begin with one of these words.
  have other : ∀ w ∈ ["callback", "interface", "namespace", "dictionary", "partial", "enum",
      "typedef"], keyword w text = none := by
    intro w member
    have known : ∀ w ∈ ["callback", "interface", "namespace", "dictionary", "partial", "enum",
        "typedef"], w ∈ reserved ∧ isWord w = true := by decide
    exact first w (known w member).1 (known w member).2
  simp only [List.forall_mem_cons] at other
  simp [definitionForm, firstOf_cons_apply, callbackForm, callbackInterfaceForm, interfaceForm,
    mixinForm, namespaceForm, dictionaryForm, partialInterfaceForm, partialMixinForm,
    partialDictionaryForm, partialNamespaceForm, enumerationForm, typedefForm, includesForm,
    implementsForm, closed, other, readsChild, notIncludes, readsWord, readsParent, ends]

/-- That one interface implements another is read as such and as nothing else. -/
theorem definition_implements (inner : Nested) {child parent : String} (isChild : IsIdentifier child)
    (isParent : IsIdentifier parent) (rest : List Char) :
    definition inner.step (child.toList ++ ' ' :: ("implements".toList ++
        ' ' :: (parent.toList ++ ';' :: rest))) =
      some (⟨none, .implements child parent⟩, skipBlanks rest) := by
  have mark : ∀ c ∈ (';' :: rest).head?, isNameChar c = false := by
    simp [show isNameChar ';' = false by decide]
  have semicolon : skipBlanks (';' :: rest) = ';' :: rest :=
    skipBlanks_of_none (blank?_solid (by simp [show isSolid ';' = true by decide]))
  have readsChild : identifier (child.toList ++ ' ' :: ("implements".toList ++
      ' ' :: (parent.toList ++ ';' :: rest))) =
        some (child, "implements".toList ++ ' ' :: (parent.toList ++ ';' :: rest)) := by
    rw [identifier_text isChild.word (ended_blank _), skipBlanks_word (by decide)]
  have readsWord : keyword "implements" ("implements".toList ++
      ' ' :: (parent.toList ++ ';' :: rest)) = some ((), parent.toList ++ ';' :: rest) := by
    rw [keyword_text (by decide) (ended_blank _), skipBlanks_word isParent.word]
  have readsParent : identifier (parent.toList ++ ';' :: rest) = some (parent, ';' :: rest) := by
    rw [identifier_text isParent.word mark, semicolon]
  have form := definitionForm_implements inner.step
    (fun w other known => keyword_none isChild.word (ended_blank _) known (isChild.ne other)) readsChild
    (keyword_none (by decide) (ended_blank _) (by decide) (by decide)) readsWord readsParent
    (symbol_text (by simp) (by decide) rest)
  rw [definition_word inner isChild.word, form]
  rfl

end IdlTypings.Grammar
