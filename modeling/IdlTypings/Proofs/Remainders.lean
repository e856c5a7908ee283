import Mathlib
import IdlTypings.Grammar.Document
import IdlTypings.Proofs.ParserRules
import IdlTypings.Proofs.TerminalForms
import IdlTypings.Text.Scan

/-! # What a parser reads and leaves

A parser reads a start of its text and leaves the rest.  `Reads` says so of one parser, together with
the kind of characters that it reads; `Leaves` is the same for characters of any kind.  The instances
follow the grammar: one for each combinator, each token and each production, up to whole definitions,
so that `definitions_suffix` holds of the text after the last of them.

`closed_body` is what comes of it for a whole body: a body that is read to its semicolon has a
bracket somewhere in the text, and what is left stands behind that bracket and its semicolon.
-/

namespace IdlTypings.Grammar

open IdlTypings.Parser

variable {α β : Type} {s t : List Char}

/-- A parser that reads characters of a kind and leaves the rest of its text. -/
class Reads (kind : Char → Bool) (p : Parser α) : Prop where
  split : ∀ {s t : List Char} {x : α}, p s = some (x, t) → ∃ u, s = u ++ t ∧ ∀ c ∈ u, kind c = true

def isAny (_ : Char) : Bool :=
  true

/-- A parser that leaves an end of its text. -/
abbrev Leaves (p : Parser α) : Prop :=
  Reads isAny p

theorem Leaves.suffix {p : Parser α} [leaves : Leaves p] {x : α} (found : p s = some (x, t)) :
    t <:+ s := by
  obtain ⟨u, whole, -⟩ := leaves.split found
  exact ⟨u, whole.symm⟩

theorem leaves_of_suffix {p : Parser α}
    (suffix : ∀ {s t : List Char} {x : α}, p s = some (x, t) → t <:+ s) : Leaves p where
  split found := by
    obtain ⟨u, whole⟩ := suffix found
    exact ⟨u, whole.symm, fun _ _ => rfl⟩

/-! ## Combinators -/

section

variable {kind : Char → Bool} {p q : Parser α}

instance reads_pure (x : α) : Reads kind (pure x : Parser α) where
  split found := by
    cases found
    exact ⟨[], rfl, List.forall_mem_nil _⟩

instance reads_failure : Reads kind (failure : Parser α) where
  split found := by cases found

instance reads_bind {f : α → Parser β} [first : Reads kind p] [second : ∀ x, Reads kind (f x)] :
    Reads kind (p >>= f) where
  split found := by
    rw [bind_apply, Option.bind_eq_some_iff] at found
    obtain ⟨⟨x, v⟩, reads, others⟩ := found
    obtain ⟨u, rfl, all⟩ := first.split reads
    obtain ⟨w, rfl, all'⟩ := (second x).split others
    exact ⟨u ++ w, by simp, List.forall_mem_append.mpr ⟨all, all'⟩⟩

instance reads_orElse [first : Reads kind p] [second : Reads kind q] : Reads kind (p <|> q) where
  split found := by
    rw [orElse_apply, Option.or_eq_some_iff] at found
    rcases found with found | ⟨-, found⟩
    · exact first.split found
    · exact second.split found

instance reads_ite {c : Prop} [Decidable c] [first : Reads kind p] [second : Reads kind q] :
    Reads kind (if c then p else q) := by
  split
  · exact first
  · exact second

instance reads_firstOf_nil : Reads kind (firstOf ([] : List (Parser α))) where
  split found := by cases found

instance reads_firstOf_cons {ps : List (Parser α)} [first : Reads kind p]
    [others : Reads kind (firstOf ps)] : Reads kind (firstOf (p :: ps)) where
  split found := by
    rw [firstOf_cons_apply, Option.or_eq_some_iff] at found
    rcases found with found | ⟨-, found⟩
    · exact first.split found
    · exact others.split found

instance reads_optional [part : Reads kind p] : Reads kind (optional p) where
  split {s t x} found := by
    cases reads : p s with
    | none =>
      obtain ⟨-, rfl⟩ : none = x ∧ s = t := by simpa [reads] using found
      exact ⟨[], rfl, List.forall_mem_nil _⟩
    | some result =>
      obtain ⟨y, u⟩ := result
      obtain ⟨-, rfl⟩ : some y = x ∧ u = t := by simpa [reads] using found
      exact part.split reads

instance reads_present [Reads kind p] : Reads kind (present p) := by
  unfold present
  infer_instance

instance reads_many [Reads kind p] : Reads kind (many p) where
  split {s t xs} found := by
    have within (bound : List Char) : Reads kind (manyWithin p bound) := by
      induction bound with
      | nil => exact reads_pure []
      | cons c bound ih =>
        unfold manyWithin
        infer_instance
    exact (within s).split found

instance reads_sepBy {sep : Parser Unit} [Reads kind p] [Reads kind sep] :
    Reads kind (sepBy p sep) := by
  unfold sepBy sepBy1
  infer_instance

instance reads_notFollowedBy (test : Char → Bool) : Reads kind (notFollowedBy test) where
  split {s t x} found := by
    refine ⟨[], ?_, List.forall_mem_nil _⟩
    cases s with
    | nil =>
      cases found
      rfl
    | cons c s =>
      rw [notFollowedBy] at found
      split at found
      next => cases found
      next =>
        cases found
        rfl

instance reads_withText [part : Reads kind p] : Reads kind (withText p) where
  split found := by
    simp only [withText, Option.map_eq_some_iff] at found
    obtain ⟨⟨y, u⟩, reads, same⟩ := found
    cases same
    exact part.split reads

instance reads_lookAhead : Reads kind (lookAhead p) where
  split found := by
    simp only [lookAhead, Option.map_eq_some_iff] at found
    obtain ⟨_, -, same⟩ := found
    cases same
    exact ⟨[], rfl, List.forall_mem_nil _⟩

/-! ## Characters -/

theorem reads_exactly {cs : List Char} (all : cs.all kind = true) : Reads kind (exactly cs) where
  split found := ⟨cs, eq_append_of_exactly found, List.all_eq_true.mp all⟩

theorem reads_takeWhile {test : Char → Bool} (all : ∀ c, test c = true → kind c = true) :
    Reads kind (Parser.takeWhile test) where
  split {s t x} found := by
    cases found
    exact ⟨s.takeWhile test, List.takeWhile_append_dropWhile.symm,
      fun c member => all c (List.mem_takeWhile_imp member)⟩

theorem reads_takeWhile1 {test : Char → Bool} (all : ∀ c, test c = true → kind c = true) :
    Reads kind (takeWhile1 test) where
  split found := by
    obtain ⟨whole, -, chars⟩ := eq_append_of_takeWhile1 found
    exact ⟨_, whole, fun c member => all c (chars c member)⟩

instance leaves_exactly (cs : List Char) : Leaves (exactly cs) :=
  reads_exactly (List.all_eq_true.mpr fun _ _ => rfl)

instance leaves_takeWhile (test : Char → Bool) : Leaves (Parser.takeWhile test) :=
  reads_takeWhile fun _ _ => rfl

instance leaves_takeWhile1 (test : Char → Bool) : Leaves (takeWhile1 test) :=
  reads_takeWhile1 fun _ _ => rfl

instance leaves_satisfy (test : Char → Bool) : Leaves (satisfy test) :=
  leaves_of_suffix fun {s t x} found => by
    cases s with
    | nil => cases found
    | cons c s =>
      rw [satisfy_cons] at found
      split at found
      next =>
        cases found
        exact List.suffix_cons _ _
      next => cases found

/-! ## Tokens -/

instance leaves_blanks : Leaves blanks :=
  leaves_of_suffix fun found => by
    cases found
    exact skipBlanks_suffix _

instance leaves_token [Leaves p] : Leaves (token p) := by
  unfold token
  infer_instance

end

instance leaves_symbol (mark : String) : Leaves (symbol mark) := by
  unfold symbol
  infer_instance

instance leaves_keyword (word : String) : Leaves (keyword word) := by
  unfold keyword
  infer_instance

instance leaves_identifier : Leaves identifier := by
  unfold identifier
  infer_instance

instance leaves_stringLiteral : Leaves stringLiteral := by
  unfold stringLiteral
  infer_instance

theorem leaves_lexeme {eats : Bool} {p : Parser α} (lexeme : Lexeme eats p) : Leaves p := by
  induction lexeme with
  | pure x => exact reads_pure x
  | satisfy _ => exact leaves_satisfy _
  | takeWhile _ => exact leaves_takeWhile _
  | notFollowedBy test => exact reads_notFollowedBy test
  | bind _ _ first second => exact reads_bind
  | orElse _ _ first second => exact reads_orElse

theorem leaves_terminal {eats : Bool} {p : Parser α} (terminal : Terminal eats p) : Leaves p := by
  induction terminal with
  | pure x => exact reads_pure x
  | failure => exact reads_failure
  | token lexeme _ =>
    have inner := leaves_lexeme lexeme
    exact leaves_token
  | keyword _ => exact leaves_keyword _
  | bind _ _ first second => exact reads_bind
  | orElse _ _ first second => exact reads_orElse

instance leaves_floatLiteral : Leaves floatLiteral :=
  leaves_terminal terminal_floatLiteral

instance leaves_integerLiteral : Leaves integerLiteral :=
  leaves_terminal terminal_integerLiteral

instance leaves_booleanLiteral : Leaves booleanLiteral :=
  leaves_terminal terminal_booleanLiteral

instance leaves_constValue : Leaves constValue :=
  leaves_terminal terminal_constValue

instance leaves_defaultValue : Leaves defaultValue := by
  unfold defaultValue
  infer_instance

section

variable {p : Parser α} [Leaves p]

instance leaves_parenthesized : Leaves (parenthesized p) := by
  unfold parenthesized
  infer_instance

instance leaves_bracketed : Leaves (bracketed p) := by
  unfold bracketed
  infer_instance

instance leaves_angled : Leaves (angled p) := by
  unfold angled
  infer_instance

instance leaves_braced : Leaves (braced p) := by
  unfold braced
  infer_instance

instance leaves_closed : Leaves (closed p) := by
  unfold closed
  infer_instance

end

/-! ## Types and members -/

instance leaves_nullable : Leaves nullable :=
  leaves_terminal terminal_nullable

instance leaves_integerType : Leaves integerType :=
  leaves_terminal terminal_integerType

instance leaves_floatType : Leaves floatType :=
  leaves_terminal terminal_floatType

instance leaves_builtInOf (bs : List BuiltIn) : Leaves (builtInOf bs) :=
  leaves_terminal (terminal_builtInOf bs)

instance leaves_attributeModifier : Leaves attributeModifier :=
  leaves_terminal terminal_attributeModifier

instance leaves_operationModifier : Leaves operationModifier :=
  leaves_terminal terminal_operationModifier

instance leaves_special : Leaves special :=
  leaves_terminal terminal_special

instance leaves_asyncIterable : Leaves asyncIterable :=
  leaves_terminal terminal_asyncIterable

instance leaves_constType : Leaves constType := by
  unfold constType
  infer_instance

/-- A level whose parsers leave ends of their texts. -/
class Nested.Leaves (level : Nested) : Prop where
  type : Grammar.Leaves level.type
  nonAny : Grammar.Leaves level.nonAny
  union : Grammar.Leaves level.union
  attributes : Grammar.Leaves level.attributes

attribute [instance] Nested.Leaves.type Nested.Leaves.nonAny Nested.Leaves.union
  Nested.Leaves.attributes

instance leaves_returnForm {type : Parser TypeForm} [Leaves type] : Leaves (returnForm type) := by
  unfold returnForm
  infer_instance

instance leaves_recordKey {nonAny : Parser NonAnyType} [Leaves nonAny] :
    Leaves (recordKey nonAny) := by
  unfold recordKey
  infer_instance

section

variable {level : Nested} [level.Leaves]

instance leaves_nonAnyType : Leaves (nonAnyType level) := by
  unfold nonAnyType
  infer_instance

instance leaves_unionType : Leaves (unionType level) := by
  unfold unionType unionMember
  infer_instance

instance leaves_typeForm : Leaves (typeForm (nonAnyType level) (unionType level)) := by
  unfold typeForm
  infer_instance

instance leaves_attributedType : Leaves (attributedType level) := by
  unfold attributedType
  infer_instance

instance leaves_default : Leaves default := by
  unfold default
  infer_instance

instance leaves_arguments : Leaves (arguments level) := by
  unfold arguments argument
  infer_instance

instance leaves_extendedAttributes : Leaves (extendedAttributes level) := by
  unfold extendedAttributes extendedAttribute
  infer_instance

instance leaves_typePair : Leaves (typePair level) := by
  unfold typePair
  infer_instance

instance leaves_constant : Leaves constant := by
  unfold constant
  infer_instance

instance leaves_constMember : Leaves constMember := by
  unfold constMember
  infer_instance

instance leaves_attributeMember : Leaves (attributeMember level) := by
  unfold attributeMember
  infer_instance

instance leaves_constructorMember : Leaves (constructorMember level) := by
  unfold constructorMember
  infer_instance

instance leaves_operationMember : Leaves (operationMember level) := by
  unfold operationMember
  infer_instance

instance leaves_iterableMember : Leaves (iterableMember level) := by
  unfold iterableMember
  infer_instance

instance leaves_iterablePairMember : Leaves (iterablePairMember level) := by
  unfold iterablePairMember
  infer_instance

instance leaves_asyncIterableMember : Leaves (asyncIterableMember level) := by
  unfold asyncIterableMember
  infer_instance

instance leaves_asyncIterablePairMember : Leaves (asyncIterablePairMember level) := by
  unfold asyncIterablePairMember
  infer_instance

instance leaves_maplikeMember : Leaves (maplikeMember level) := by
  unfold maplikeMember
  infer_instance

instance leaves_setlikeMember : Leaves (setlikeMember level) := by
  unfold setlikeMember
  infer_instance

instance leaves_stringifierMember : Leaves stringifierMember := by
  unfold stringifierMember
  infer_instance

instance leaves_interfaceMember : Leaves (interfaceMember level) := by
  unfold interfaceMember
  infer_instance

instance leaves_mixinMember : Leaves (mixinMember level) := by
  unfold mixinMember mixinConst mixinOperation mixinAttribute mixinStringifier
  infer_instance

instance leaves_namespaceMember : Leaves (namespaceMember level) := by
  unfold namespaceMember namespaceOperation namespaceAttribute
  infer_instance

instance leaves_dictionaryMember : Leaves (dictionaryMember level) := by
  unfold dictionaryMember
  infer_instance

instance leaves_annotated {p : Parser α} [Leaves p] : Leaves (annotated level p) := by
  unfold annotated
  infer_instance

instance leaves_step : level.step.Leaves where
  type := inferInstanceAs (Leaves (typeForm (nonAnyType level) (unionType level)))
  nonAny := inferInstanceAs (Leaves (nonAnyType level))
  union := inferInstanceAs (Leaves (unionType level))
  attributes := inferInstanceAs (Leaves (extendedAttributes level))

end

instance leaves_nested (n : Nat) : (nested n).Leaves := by
  induction n with
  | zero => exact ⟨reads_failure, reads_failure, reads_failure, reads_failure⟩
  | succ n ih => exact leaves_step

/-! ## Definitions -/

instance leaves_inheritance : Leaves inheritance := by
  unfold inheritance
  infer_instance

instance leaves_enumerationForm : Leaves enumerationForm := by
  unfold enumerationForm enumValues sepBy1
  infer_instance

section

variable {level : Nested} [level.Leaves]

instance leaves_body {member : Parser α} [Leaves member] : Leaves (body level member) := by
  unfold body
  infer_instance

instance leaves_callbackForm : Leaves (callbackForm level) := by
  unfold callbackForm
  infer_instance

instance leaves_callbackInterfaceForm : Leaves (callbackInterfaceForm level) := by
  unfold callbackInterfaceForm
  infer_instance

instance leaves_interfaceForm : Leaves (interfaceForm level) := by
  unfold interfaceForm
  infer_instance

instance leaves_mixinForm : Leaves (mixinForm level) := by
  unfold mixinForm
  infer_instance

instance leaves_namespaceForm : Leaves (namespaceForm level) := by
  unfold namespaceForm
  infer_instance

instance leaves_dictionaryForm : Leaves (dictionaryForm level) := by
  unfold dictionaryForm
  infer_instance

instance leaves_partialInterfaceForm : Leaves (partialInterfaceForm level) := by
  unfold partialInterfaceForm
  infer_instance

instance leaves_partialMixinForm : Leaves (partialMixinForm level) := by
  unfold partialMixinForm
  infer_instance

instance leaves_partialDictionaryForm : Leaves (partialDictionaryForm level) := by
  unfold partialDictionaryForm
  infer_instance

instance leaves_partialNamespaceForm : Leaves (partialNamespaceForm level) := by
  unfold partialNamespaceForm
  infer_instance

instance leaves_typedefForm : Leaves (typedefForm level) := by
  unfold typedefForm
  infer_instance

instance leaves_definitionForm : Leaves (definitionForm level) := by
  unfold definitionForm includesForm implementsForm
  infer_instance

instance leaves_definition : Leaves (definition level) := by
  unfold definition
  infer_instance

end

/-- What no definition begins is an end of the text. -/
theorem definitions_suffix (s : List Char) : (definitions s).2 <:+ s := by
  rw [definitions]
  cases found : many (definition (nested (s.length + 1))) s with
  | none => exact List.suffix_rfl
  | some result => exact Leaves.suffix found

/-! ## Bodies -/

/-- A mark that is read stands behind the blanks, and the blanks behind it are read with it. -/
theorem eq_of_symbol {mark : String} {c : Char} {u : Unit} (sole : mark.toList = [c])
    (found : symbol mark s = some (u, t)) :
    ∃ rest, skipBlanks s = c :: rest ∧ t = skipBlanks rest := by
  simp only [symbol, token, bind_apply, Option.bind_eq_some_iff, blanks, Option.some.injEq,
    exists_eq_left', sole] at found
  obtain ⟨⟨_, rest⟩, reads, ends⟩ := found
  refine ⟨rest, eq_append_of_exactly reads, ?_⟩
  cases ends
  rfl

/-- A body that is read to its semicolon ends at a bracket of the text. -/
theorem closed_body {level : Nested} [level.Leaves] {member : Parser α} [Leaves member]
    {xs : List (Annotated α)} (found : closed (body level member) s = some (xs, t)) :
    ∃ u v w, s = u ++ '\x7d' :: v ∧ skipBlanks v = ';' :: w ∧ t = skipBlanks w := by
  simp only [closed, body, braced, bind_apply, Option.bind_eq_some_iff] at found
  obtain ⟨⟨_, after⟩, ⟨⟨_, inside⟩, opens, ⟨_, members⟩, reads, ⟨_, behind⟩, closes, same⟩,
    ⟨_, rest⟩, ends, same'⟩ := found
  cases same
  cases same'
  obtain ⟨v, bracket, rfl⟩ := eq_of_symbol (c := '\x7d') rfl closes
  obtain ⟨w, semicolon, rfl⟩ := eq_of_symbol (c := ';') rfl ends
  rw [skipBlanks_skipBlanks] at semicolon
  -- Every reader leaves an end of its text.
  have part : '\x7d' :: v <:+ s := by
    rw [← bracket]
    exact (skipBlanks_suffix members).trans
      ((Leaves.suffix reads).trans (Leaves.suffix opens))
  obtain ⟨u, whole⟩ := part
  exact ⟨u, v, w, whole.symm, semicolon, rfl⟩

end IdlTypings.Grammar
