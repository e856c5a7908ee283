import Mathlib
import IdlTypings.Proofs.TerminalForms

/-! # The grammar within a statement

Every production of the grammar is steady: it reads the same in front of anything, and at every
level that is deep enough for its text.

* `Terminal.steady` is about the forms without brackets, at no level;
* `Nested.Agree` compares two levels, and `nested_agree` any two that are deep enough;
* `steady_arguments` and the laws around it are about what contains one another;
* `closing_definition` is about a whole statement, which ends at its semicolon.

The proofs follow the productions.  Only brackets need care: inside a bracket the text is shorter,
which pays for the level below.
-/

namespace IdlTypings.Grammar

open IdlTypings.Parser

variable {α β : Type} {R : Region} {more : List Char} {n d : Nat}

/-! ## Terminal forms -/

section

variable {eats : Bool} {p : Parser α}

theorem Lexeme.steady (lexeme : Lexeme eats p) : Steady R more n eats d d p p := by
  induction lexeme with
  | pure x => exact steady_pure x
  | satisfy line => exact steady_satisfy (Bool.and_eq_true_iff.mp line).1
  | takeWhile line => exact steady_takeWhile (Bool.and_eq_true_iff.mp line).1
  | notFollowedBy test => exact steady_notFollowedBy test
  | bind _ _ first second => exact steady_bind first second
  | orElse _ _ first second => exact steady_orElse first second

theorem Terminal.steady (terminal : Terminal eats p) : Steady R more n eats d d p p := by
  induction terminal with
  | pure x => exact steady_pure x
  | failure => exact steady_failure
  | token lexeme _ => exact steady_token lexeme.steady
  | keyword foreign => exact steady_keyword (isFlatText_of_isWord (of_decide_eq_true foreign).1)
  | bind _ _ first second => exact steady_bind first second
  | orElse _ _ first second => exact steady_orElse first second

end

theorem steady_defaultValue : Steady R more n true d d defaultValue defaultValue :=
  steady_orElse (steady_bind terminal_booleanLiteral.steady fun _ => steady_pure _) <|
  steady_orElse
    (steady_bind steady_openSquare fun _ =>
      steady_bind steady_closeSquare fun _ =>
      steady_pure _) <|
  steady_orElse
    (steady_bind steady_openCurly fun _ =>
      steady_bind steady_closeCurly fun _ =>
      steady_pure _) <|
  steady_orElse (steady_bind terminal_floatLiteral.steady fun _ => steady_pure _) <|
  steady_orElse (steady_bind terminal_integerLiteral.steady fun _ => steady_pure _) <|
  steady_orElse (Terminal.word (by decide) _).steady <|
  steady_bind steady_stringLiteral fun _ => steady_pure _

/-! ## Brackets -/

section

variable {eats : Bool} {p q : Parser α}

/-- Between brackets the text is shorter by the one that opens. -/
theorem steady_between {left right : String} (opens : isFlatText left = true)
    (closes : isFlatText right = true) (inner : Steady R more n eats d d p q) :
    Steady R more (n + 1) true d d (do symbol left; let x ← p; symbol right; return x)
      (do symbol left; let x ← q; symbol right; return x) :=
  steady_bind_within (steady_symbol opens)
    (fun _ =>
      steady_bind inner fun _ =>
      steady_bind (steady_symbol closes) fun _ =>
      steady_pure _)
    (Nat.le_refl _)

theorem steady_parenthesized (inner : Steady R more n eats d d p q) :
    Steady R more (n + 1) true d d (parenthesized p) (parenthesized q) :=
  steady_between (by decide) (by decide) inner

theorem steady_bracketed (inner : Steady R more n eats (R.square d) (R.square d) p q) :
    Steady R more (n + 1) true d d (bracketed p) (bracketed q) :=
  steady_bind_within steady_openSquare
    (fun _ =>
      steady_bind inner fun _ =>
      steady_bind steady_closeSquare fun _ =>
      steady_pure _)
    (Nat.le_refl _)

theorem steady_angled (inner : Steady R more n eats d d p q) :
    Steady R more (n + 1) true d d (angled p) (angled q) :=
  steady_between (by decide) (by decide) inner

theorem steady_braced (inner : Steady R more n eats (R.curly d) (R.curly d) p q) :
    Steady R more n true d d (braced p) (braced q) :=
  steady_bind steady_openCurly fun _ =>
  steady_bind inner fun _ =>
  steady_bind steady_closeCurly fun _ =>
  steady_pure _

end

/-! ## Types without brackets -/

/-- A form that a `?` may follow. -/
theorem steady_maybeNull {p q : Parser α} {f : α → Bool → β} (steady : Steady R more n true d d p q) :
    Steady R more n true d d (do return f (← p) (← nullable)) (do return f (← q) (← nullable)) :=
  steady_bind steady fun _ => steady_bind terminal_nullable.steady fun _ => steady_pure _

theorem steady_constType : Steady R more n true d d constType constType :=
  steady_orElse (steady_maybeNull terminal_integerType.steady) <|
  steady_orElse (steady_maybeNull terminal_floatType.steady) <|
  steady_orElse (terminal_typeWord (by decide)).steady <|
  steady_orElse (terminal_typeWord (by decide)).steady <|
  steady_orElse (terminal_typeWord (by decide)).steady <|
  steady_maybeNull steady_identifier

/-! ## One level over another -/

/-- Two levels whose parsers agree on texts shorter than `n`. -/
structure Nested.Agree (R : Region) (more : List Char) (n : Nat) (inner inner' : Nested) : Prop where
  type (d : Nat) : Steady R more n true d d inner.type inner'.type
  nonAny (d : Nat) : Steady R more n true d d inner.nonAny inner'.nonAny
  union (d : Nat) : Steady R more n true d d inner.union inner'.union
  attributes (d : Nat) : Steady R more n true d d inner.attributes inner'.attributes

theorem steady_returnForm {type type' : Parser TypeForm}
    (steady : Steady R more n true d d type type') :
    Steady R more n true d d (returnForm type) (returnForm type') :=
  steady_orElse (Terminal.word (by decide) _).steady (steady_bind steady fun _ => steady_pure _)

theorem steady_recordKey {nonAny nonAny' : Parser NonAnyType}
    (steady : Steady R more n true d d nonAny nonAny') :
    Steady R more n true d d (recordKey nonAny) (recordKey nonAny') :=
  steady_orElse (Terminal.word (by decide) _).steady <|
  steady_orElse (Terminal.word (by decide) _).steady <|
  steady_orElse (Terminal.word (by decide) _).steady <|
  steady_bind steady fun _ => steady_pure _

/-- A word of the grammar with arguments in angle brackets, and an optional `?`. -/
theorem steady_generic {w : String} {p q : Parser α} {f : α → Bool → β}
    (flat : isFlatText w = true) (inner : Steady R more n eats d d p q) :
    Steady R more (n + 1) true d d (do keyword w; let x ← angled p; return f x (← nullable))
      (do keyword w; let x ← angled q; return f x (← nullable)) :=
  steady_bind (steady_keyword flat) fun _ => steady_maybeNull (steady_angled inner)

section

variable {inner inner' : Nested}

theorem steady_nonAnyType (agree : Nested.Agree R more n inner inner') :
    Steady R more (n + 1) true d d (nonAnyType inner) (nonAnyType inner') :=
  steady_orElse
    (steady_bind (steady_keyword (by decide)) fun _ =>
      steady_bind (steady_angled (steady_returnForm (agree.type d))) fun _ =>
      steady_pure _) <|
  steady_orElse (steady_maybeNull terminal_integerType.steady) <|
  steady_orElse (steady_maybeNull terminal_floatType.steady) <|
  steady_orElse (terminal_builtInOf _).steady <|
  steady_orElse (steady_generic (by decide) (agree.type d)) <|
  steady_orElse (terminal_builtInOf _).steady <|
  steady_orElse (steady_generic (by decide) (agree.type d)) <|
  steady_orElse
    (steady_generic (f := fun x : RecordKey × TypeForm => NonAnyType.record x.1 x.2) (by decide) <|
      steady_bind (steady_recordKey (agree.nonAny d)) fun _ =>
      steady_bind (steady_symbol (by decide)) fun _ =>
      steady_bind (agree.type d) fun _ =>
      steady_pure _) <|
  steady_maybeNull steady_identifier

theorem steady_unionMember (agree : Nested.Agree R more n inner inner') :
    Steady R more n true d d (unionMember inner) (unionMember inner') :=
  steady_orElse
    (steady_bind (steady_optional (agree.attributes d)) fun _ =>
      steady_bind (agree.nonAny d) fun _ =>
      steady_pure _) <|
  steady_maybeNull (agree.union d)

theorem steady_unionType (agree : Nested.Agree R more n inner inner') :
    Steady R more (n + 1) true d d (unionType inner) (unionType inner') :=
  steady_parenthesized (steady_sepBy (steady_unionMember agree) (steady_keyword (by decide)))

theorem steady_typeForm {nonAny nonAny' : Parser NonAnyType}
    {union union' : Parser (List UnionMember)} (single : Steady R more n true d d nonAny nonAny')
    (several : Steady R more n true d d union union') :
    Steady R more n true d d (typeForm nonAny union) (typeForm nonAny' union') :=
  steady_orElse (Terminal.word (by decide) _).steady <|
  steady_orElse (steady_bind single fun _ => steady_pure _) <|
  steady_maybeNull several

theorem steady_attributedType (agree : Nested.Agree R more n inner inner') :
    Steady R more n true d d (attributedType inner) (attributedType inner') :=
  steady_bind (steady_optional (agree.attributes d)) fun _ =>
  steady_bind (agree.type d) fun _ =>
  steady_pure _

theorem steady_default : Steady R more n true d d default default :=
  steady_bind (steady_symbol (by decide)) fun _ => steady_defaultValue

theorem steady_ite {eats : Bool} {p q p' q' : Parser α} {c : Prop} [Decidable c]
    (first : Steady R more n eats d d p q) (second : Steady R more n eats d d p' q') :
    Steady R more n eats d d (if c then p else p') (if c then q else q') := by
  split
  · exact first
  · exact second

theorem steady_argument (agree : Nested.Agree R more n inner inner') :
    Steady R more n true d d (argument inner) (argument inner') :=
  steady_bind (steady_optional (agree.attributes d)) fun _ =>
  steady_orElse
    (steady_bind (steady_present (steady_keyword (by decide))) fun _ =>
      steady_bind (steady_attributedType agree) fun _ =>
      steady_bind steady_identifier fun _ =>
      steady_ite
        (steady_bind (steady_optional steady_default) fun _ => steady_pure _)
        (steady_bind (steady_pure none) fun _ => steady_pure _)) <|
  steady_bind (agree.type d) fun _ =>
  steady_bind (steady_symbol (by decide)) fun _ =>
  steady_bind steady_identifier fun _ =>
  steady_pure _

theorem steady_arguments (agree : Nested.Agree R more n inner inner') :
    Steady R more n true d d (arguments inner) (arguments inner') :=
  (steady_parenthesized (steady_sepBy (steady_argument agree) (steady_symbol (by decide)))).mono
    (Nat.le_succ n)

theorem steady_extendedAttribute (agree : Nested.Agree R more n inner inner') :
    Steady R more n true d d (extendedAttribute inner) (extendedAttribute inner') :=
  steady_bind steady_identifier fun _ =>
  steady_orElse (steady_bind (steady_arguments agree) fun _ => steady_pure _) <|
  steady_orElse
    (steady_bind (steady_symbol (by decide)) fun _ =>
      steady_bind steady_identifier fun _ =>
      steady_bind (steady_arguments agree) fun _ =>
      steady_pure _) <|
  steady_orElse
    (steady_bind (steady_symbol (by decide)) fun _ =>
      steady_bind
        ((steady_parenthesized (steady_sepBy steady_identifier (steady_symbol (by decide)))).mono
          (Nat.le_succ n)) fun _ =>
      steady_pure _) <|
  steady_orElse
    (steady_bind (steady_symbol (by decide)) fun _ =>
      steady_bind steady_identifier fun _ =>
      steady_pure _) <|
  steady_orElse
    (steady_bind (steady_symbol (by decide)) fun _ =>
      steady_bind steady_stringLiteral fun _ =>
      steady_pure _) <|
  steady_pure _

theorem steady_extendedAttributes (agree : Nested.Agree R more n inner inner') :
    Steady R more (n + 1) true d d (extendedAttributes inner) (extendedAttributes inner') :=
  steady_bracketed (steady_sepBy (steady_extendedAttribute agree) (steady_symbol (by decide)))

/-- A level pays for a bracket. -/
theorem Nested.Agree.step (agree : Nested.Agree R more n inner inner') :
    Nested.Agree R more (n + 1) inner.step inner'.step where
  type _ := steady_typeForm (steady_nonAnyType agree) (steady_unionType agree)
  nonAny _ := steady_nonAnyType agree
  union _ := steady_unionType agree
  attributes _ := steady_extendedAttributes agree

end

/-- Levels that are deep enough for a text agree on it. -/
theorem nested_agree {m : Nat} (deeper : n ≤ m) : Nested.Agree R more n (nested n) (nested m) := by
  induction n generalizing m with
  | zero =>
    -- No text is that short, so there is nothing to agree on.
    have vacuous {α : Type} (p q : Parser α) (d : Nat) : Steady R more 0 true d d p q :=
      ⟨fun short => absurd short (Nat.not_lt_zero _), fun short => absurd short (Nat.not_lt_zero _)⟩
    exact ⟨vacuous _ _, vacuous _ _, vacuous _ _, vacuous _ _⟩
  | succ n ih =>
    cases m with
    | zero => omega
    | succ m => exact (ih (Nat.le_of_succ_le_succ deeper)).step

/-! ## Members -/

section

variable {level level' : Nested}

theorem steady_annotated {p q : Parser α} (agree : Nested.Agree .statement more n level level')
    (steady : Steady .statement more n true d d p q) :
    Steady .statement more n true d d (annotated level p) (annotated level' q) :=
  steady_bind (steady_optional (agree.attributes d)) fun _ =>
  steady_bind steady fun _ =>
  steady_pure _

/-- Inside curly brackets a semicolon ends a member and no statement. -/
theorem steady_closed {p q : Parser α} (steady : Steady .statement more n true (d + 1) (d + 1) p q) :
    Steady .statement more n true (d + 1) (d + 1) (closed p) (closed q) :=
  steady_bind steady fun _ =>
  steady_bind steady_semicolon fun _ =>
  steady_pure _

theorem steady_typePair (agree : Nested.Agree .statement more n level level') :
    Steady .statement more n true d d (typePair level) (typePair level') :=
  (steady_angled
    (steady_bind (steady_attributedType agree) fun _ =>
      steady_bind (steady_symbol (by decide)) fun _ =>
      steady_bind (steady_attributedType agree) fun _ =>
      steady_pure _)).mono (Nat.le_succ n)

theorem steady_typeArgument (agree : Nested.Agree .statement more n level level') :
    Steady .statement more n true d d (angled (attributedType level)) (angled (attributedType level')) :=
  (steady_angled (steady_attributedType agree)).mono (Nat.le_succ n)

theorem steady_constant : Steady .statement more n true d d constant constant :=
  steady_bind (steady_keyword (by decide)) fun _ =>
  steady_bind steady_constType fun _ =>
  steady_bind steady_identifier fun _ =>
  steady_bind (steady_symbol (by decide)) fun _ =>
  steady_bind terminal_constValue.steady fun _ =>
  steady_pure _

theorem steady_attributeMember (agree : Nested.Agree .statement more n level level') :
    Steady .statement more n true (d + 1) (d + 1) (attributeMember level) (attributeMember level') :=
  steady_closed <|
    steady_bind (steady_optional terminal_attributeModifier.steady) fun _ =>
    steady_bind (steady_present (steady_keyword (by decide))) fun _ =>
    steady_bind (steady_keyword (by decide)) fun _ =>
    steady_bind (steady_attributedType agree) fun _ =>
    steady_bind steady_identifier fun _ =>
    steady_pure _

theorem steady_operationMember (agree : Nested.Agree .statement more n level level') :
    Steady .statement more n true (d + 1) (d + 1) (operationMember level) (operationMember level') :=
  steady_closed <|
    steady_bind (steady_optional terminal_operationModifier.steady) fun _ =>
    steady_bind (steady_optional terminal_special.steady) fun _ =>
    steady_bind (steady_returnForm (agree.type _)) fun _ =>
    steady_bind (steady_optional steady_identifier) fun _ =>
    steady_bind (steady_arguments agree) fun _ =>
    steady_pure _

theorem steady_asyncIterableMember (agree : Nested.Agree .statement more n level level') :
    Steady .statement more n true (d + 1) (d + 1) (asyncIterableMember level) (asyncIterableMember level') :=
  steady_closed <|
    steady_bind terminal_asyncIterable.steady fun _ =>
    steady_bind (steady_typeArgument agree) fun _ =>
    steady_bind (steady_optional (steady_arguments agree)) fun _ =>
    steady_pure _

theorem steady_asyncIterablePairMember (agree : Nested.Agree .statement more n level level') :
    Steady .statement more n true (d + 1) (d + 1) (asyncIterablePairMember level)
      (asyncIterablePairMember level') :=
  steady_closed <|
    steady_bind terminal_asyncIterable.steady fun _ =>
    steady_bind (steady_typePair agree) fun _ =>
    steady_bind (steady_optional (steady_arguments agree)) fun _ =>
    steady_pure _

theorem steady_interfaceMember (agree : Nested.Agree .statement more n level level') :
    Steady .statement more n true (d + 1) (d + 1) (interfaceMember level) (interfaceMember level') := by
  refine steady_firstOf ?_
  refine .cons (steady_closed ?const) <|
    .cons (steady_attributeMember agree) <|
    .cons (steady_closed ?constructor) <|
    .cons (steady_operationMember agree) <|
    .cons (steady_closed ?iterable) <|
    .cons (steady_closed ?iterablePair) <|
    .cons (steady_asyncIterableMember agree) <|
    .cons (steady_asyncIterablePairMember agree) <|
    .cons (steady_closed ?maplike) <|
    .cons (steady_closed ?setlike) <|
    .cons (steady_closed ?stringifier) .nil
  case const => exact steady_bind steady_constant fun _ => steady_pure _
  case constructor =>
    exact steady_bind (steady_keyword (by decide)) fun _ =>
      steady_bind (steady_arguments agree) fun _ =>
      steady_pure _
  case iterable =>
    exact steady_bind (steady_keyword (by decide)) fun _ =>
      steady_bind (steady_typeArgument agree) fun _ =>
      steady_pure _
  case iterablePair =>
    exact steady_bind (steady_keyword (by decide)) fun _ =>
      steady_bind (steady_typePair agree) fun _ =>
      steady_pure _
  case maplike =>
    exact steady_bind (steady_present (steady_keyword (by decide))) fun _ =>
      steady_bind (steady_keyword (by decide)) fun _ =>
      steady_bind (steady_typePair agree) fun _ =>
      steady_pure _
  case setlike =>
    exact steady_bind (steady_present (steady_keyword (by decide))) fun _ =>
      steady_bind (steady_keyword (by decide)) fun _ =>
      steady_bind (steady_typeArgument agree) fun _ =>
      steady_pure _
  case stringifier => exact (Terminal.word (by decide) _).steady

theorem steady_mixinMember (agree : Nested.Agree .statement more n level level') :
    Steady .statement more n true (d + 1) (d + 1) (mixinMember level) (mixinMember level') := by
  refine steady_firstOf ?_
  refine .cons (steady_closed ?const) <|
    .cons (steady_closed ?operation) <|
    .cons (steady_closed ?property) <|
    .cons (steady_closed ?stringifier) .nil
  case const => exact steady_bind steady_constant fun _ => steady_pure _
  case operation =>
    exact steady_bind (steady_present (steady_keyword (by decide))) fun _ =>
      steady_bind (steady_returnForm (agree.type _)) fun _ =>
      steady_bind (steady_optional steady_identifier) fun _ =>
      steady_bind (steady_arguments agree) fun _ =>
      steady_pure _
  case property =>
    exact steady_bind (steady_present (steady_keyword (by decide))) fun _ =>
      steady_bind (steady_present (steady_keyword (by decide))) fun _ =>
      steady_bind (steady_keyword (by decide)) fun _ =>
      steady_bind (steady_attributedType agree) fun _ =>
      steady_bind steady_identifier fun _ =>
      steady_pure _
  case stringifier => exact (Terminal.word (by decide) _).steady

theorem steady_namespaceMember (agree : Nested.Agree .statement more n level level') :
    Steady .statement more n true (d + 1) (d + 1) (namespaceMember level) (namespaceMember level') := by
  refine steady_firstOf ?_
  refine .cons (steady_closed ?operation) <|
    .cons (steady_closed ?property) .nil
  case operation =>
    exact steady_bind (steady_returnForm (agree.type _)) fun _ =>
      steady_bind (steady_optional steady_identifier) fun _ =>
      steady_bind (steady_arguments agree) fun _ =>
      steady_pure _
  case property =>
    exact steady_bind (steady_keyword (by decide)) fun _ =>
      steady_bind (steady_keyword (by decide)) fun _ =>
      steady_bind (steady_attributedType agree) fun _ =>
      steady_bind steady_identifier fun _ =>
      steady_pure _

theorem steady_dictionaryMember (agree : Nested.Agree .statement more n level level') :
    Steady .statement more n true (d + 1) (d + 1) (dictionaryMember level) (dictionaryMember level') :=
  steady_closed <|
    steady_bind (steady_present (steady_keyword (by decide))) fun _ =>
    steady_bind (agree.type _) fun _ =>
    steady_bind steady_identifier fun _ =>
    steady_bind (steady_optional steady_default) fun _ =>
    steady_pure _

theorem steady_body {p q : Parser α} (agree : Nested.Agree .statement more n level level')
    (member : Steady .statement more n true (d + 1) (d + 1) p q) :
    Steady .statement more n true d d (body level p) (body level' q) :=
  steady_braced (steady_many (steady_annotated agree member))

/-! ## Statements -/

theorem steady_inheritance : Steady .statement more n true d d inheritance inheritance :=
  steady_bind (steady_symbol (by decide)) fun _ => steady_identifier

theorem steady_enumValues : Steady .statement more n true d d enumValues enumValues :=
  steady_braced <|
    steady_bind (steady_sepBy1 steady_stringLiteral (steady_symbol (by decide))) fun _ =>
    steady_bind (steady_present (steady_symbol (by decide))) fun _ =>
    steady_pure _

theorem closing_definitionForm (agree : Nested.Agree .statement more n level level') :
    Closing more n (definitionForm level) (definitionForm level') := by
  -- One goal for each form, named after it.
  refine closing_firstOf ?_
  refine .cons (closing_closed ?callback) <|
    .cons (closing_closed ?callbackInterface) <|
    .cons (closing_closed ?interface) <|
    .cons (closing_closed ?mixin) <|
    .cons (closing_closed ?namespaceOf) <|
    .cons (closing_closed ?dictionary) <|
    .cons (closing_closed ?partialInterface) <|
    .cons (closing_closed ?partialMixin) <|
    .cons (closing_closed ?partialDictionary) <|
    .cons (closing_closed ?partialNamespace) <|
    .cons (closing_closed ?enumeration) <|
    .cons (closing_closed ?typedef) <|
    .cons (closing_closed ?includes) <|
    .cons (closing_closed ?implements) .nil
  case callback =>
    exact steady_bind (steady_keyword (by decide)) fun _ =>
      steady_bind steady_identifier fun _ =>
      steady_bind (steady_symbol (by decide)) fun _ =>
      steady_bind (steady_returnForm (agree.type _)) fun _ =>
      steady_bind (steady_arguments agree) fun _ =>
      steady_pure _
  case callbackInterface =>
    exact steady_bind (steady_keyword (by decide)) fun _ =>
      steady_bind (steady_keyword (by decide)) fun _ =>
      steady_bind steady_identifier fun _ =>
      steady_bind (steady_optional steady_inheritance) fun _ =>
      steady_bind (steady_body agree (steady_interfaceMember agree)) fun _ =>
      steady_pure _
  case interface =>
    exact steady_bind (steady_keyword (by decide)) fun _ =>
      steady_bind steady_identifier fun _ =>
      steady_bind (steady_optional steady_inheritance) fun _ =>
      steady_bind (steady_body agree (steady_interfaceMember agree)) fun _ =>
      steady_pure _
  case mixin =>
    exact steady_bind (steady_keyword (by decide)) fun _ =>
      steady_bind (steady_keyword (by decide)) fun _ =>
      steady_bind steady_identifier fun _ =>
      steady_bind (steady_body agree (steady_mixinMember agree)) fun _ =>
      steady_pure _
  case namespaceOf =>
    exact steady_bind (steady_keyword (by decide)) fun _ =>
      steady_bind steady_identifier fun _ =>
      steady_bind (steady_body agree (steady_namespaceMember agree)) fun _ =>
      steady_pure _
  case dictionary =>
    exact steady_bind (steady_keyword (by decide)) fun _ =>
      steady_bind steady_identifier fun _ =>
      steady_bind (steady_optional steady_inheritance) fun _ =>
      steady_bind (steady_body agree (steady_dictionaryMember agree)) fun _ =>
      steady_pure _
  case partialInterface =>
    exact steady_bind (steady_keyword (by decide)) fun _ =>
      steady_bind (steady_keyword (by decide)) fun _ =>
      steady_bind steady_identifier fun _ =>
      steady_bind (steady_body agree (steady_interfaceMember agree)) fun _ =>
      steady_pure _
  case partialMixin =>
    exact steady_bind (steady_keyword (by decide)) fun _ =>
      steady_bind (steady_keyword (by decide)) fun _ =>
      steady_bind (steady_keyword (by decide)) fun _ =>
      steady_bind steady_identifier fun _ =>
      steady_bind (steady_body agree (steady_mixinMember agree)) fun _ =>
      steady_pure _
  case partialDictionary =>
    exact steady_bind (steady_keyword (by decide)) fun _ =>
      steady_bind (steady_keyword (by decide)) fun _ =>
      steady_bind steady_identifier fun _ =>
      steady_bind (steady_body agree (steady_dictionaryMember agree)) fun _ =>
      steady_pure _
  case partialNamespace =>
    exact steady_bind (steady_keyword (by decide)) fun _ =>
      steady_bind (steady_keyword (by decide)) fun _ =>
      steady_bind steady_identifier fun _ =>
      steady_bind (steady_body agree (steady_namespaceMember agree)) fun _ =>
      steady_pure _
  case enumeration =>
    exact steady_bind (steady_keyword (by decide)) fun _ =>
      steady_bind steady_identifier fun _ =>
      steady_bind steady_enumValues fun _ =>
      steady_pure _
  case typedef =>
    exact steady_bind (steady_keyword (by decide)) fun _ =>
      steady_bind (steady_attributedType agree) fun _ =>
      steady_bind steady_identifier fun _ =>
      steady_pure _
  case includes =>
    exact steady_bind steady_identifier fun _ =>
      steady_bind (steady_keyword (by decide)) fun _ =>
      steady_bind steady_identifier fun _ =>
      steady_pure _
  case implements =>
    exact steady_bind steady_identifier fun _ =>
      steady_bind (steady_keyword (by decide)) fun _ =>
      steady_bind steady_identifier fun _ =>
      steady_pure _

theorem closing_definition (agree : Nested.Agree .statement more n level level') :
    Closing more n (definition level) (definition level') :=
  closing_bind (steady_optional (agree.attributes 0)) fun attributes =>
  closing_map (Annotated.mk attributes) (closing_definitionForm agree)

end

end IdlTypings.Grammar
