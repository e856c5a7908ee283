import Mathlib
import IdlTypings.Proofs.WrittenTypes

/-! # Members written in WebIDL

`memberTokens` writes a member of an interface, a mixin or a dictionary, and the grammar reads it:

* `arguments_reads` reads what stands between parentheses;
* `constant_reads` and `operation_reads` read the parts that members of interfaces and mixins share;
* `interfaceMember_reads`, `mixinMember_reads` and `dictionaryMember_reads` read one member.

Each kind of member is read only after the kinds before it have been ruled out.  Most of them are
ruled out by their first word; an attribute of a mixin is ruled out as an operation further on,
`mixinOperation_attribute`.
-/

namespace IdlTypings.Grammar

open IdlTypings.Parser
open Idl (IdlType)

/-! ## Writing members -/

def argumentTokens (layout : Layout) (argument : Idl.Argument) : List Token :=
  (if argument.optional then [.word "optional"] else []) ++
    (typeTokens layout argument.type ++ [.word argument.name])

def argumentsTokens (layout : Layout) (arguments : List Idl.Argument) : List Token :=
  .mark .openParen :: (separated (.mark .comma) (argumentTokens layout) arguments ++
    [.mark .closeParen])

/-- The tokens of a member.  Every constant is given the value zero. -/
def memberTokens (layout : Layout) : Idl.Member → List Token
  | .attribute name type readonly =>
    (if readonly then [.word "readonly"] else []) ++
      .word "attribute" :: (typeTokens layout type ++ [.word name, .mark .semicolon])
  | .operation name arguments returns =>
    typeTokens layout returns ++ ((name.map Token.word).toList ++
      (argumentsTokens layout arguments ++ [.mark .semicolon]))
  | .constructor arguments =>
    .word "constructor" :: (argumentsTokens layout arguments ++ [.mark .semicolon])
  | .field name type required =>
    (if required then [.word "required"] else []) ++
      (typeTokens layout type ++ [.word name, .mark .semicolon])
  | .const name type =>
    .word "const" :: (typeTokens layout type ++
      [.word name, .mark .equals, .zero, .mark .semicolon])
  | .iterable types =>
    .word "iterable" :: .mark .openAngle ::
      (separated (.mark .comma) (typeTokens layout) types ++ [.mark .closeAngle, .mark .semicolon])
  | .unsupported _ => []

/-! ## What can be written -/

/-- An argument that can be written. -/
def WritableArgument (argument : Idl.Argument) : Prop :=
  IsIdentifier argument.name ∧ Writable argument.type

/-- The types of constants that can be written. -/
inductive WritableConst : IdlType → Prop where
  | integer (type : IntegerType) : WritableConst (.named type.spelling)
  | float (type : FloatType) : WritableConst (.named type.spelling)
  | word {name : String} (known : name ∈ ["boolean", "byte", "octet"] ∨ IsIdentifier name) :
      WritableConst (.named name)

/-- A member that can be written in an interface. -/
def WritableInInterface : Idl.Member → Prop
  | .const name type => IsIdentifier name ∧ WritableConst type
  | .attribute name type _ => IsIdentifier name ∧ Writable type
  | .operation (some name) arguments returns =>
    IsIdentifier name ∧ (∀ argument ∈ arguments, WritableArgument argument) ∧ Returned returns
  | .constructor arguments => ∀ argument ∈ arguments, WritableArgument argument
  | .iterable [type] => Writable type
  | .iterable [key, value] => Writable key ∧ Writable value
  | _ => False

/-- A member that can be written in a mixin. -/
def WritableInMixin : Idl.Member → Prop
  | .const name type => IsIdentifier name ∧ WritableConst type
  | .attribute name type _ => IsIdentifier name ∧ Writable type
  | .operation (some name) arguments returns =>
    IsIdentifier name ∧ (∀ argument ∈ arguments, WritableArgument argument) ∧ Returned returns
  | _ => False

/-- A member that can be written in a dictionary. -/
def WritableInDictionary : Idl.Member → Prop
  | .field name type _ => IsIdentifier name ∧ Writable type
  | _ => False

/-! ## Arguments -/

variable {layout : Layout} {ts rest : List Token}

/-- Tokens that end an item of a list: a comma or the bracket at its end. -/
def Closes : List Token → Prop
  | .mark .comma :: _ | .mark .closeParen :: _ | .mark .closeBracket :: _
  | .mark .closeBrace :: _ => True
  | _ => False

theorem IsIdentifier.ends {name : String} (isIdentifier : IsIdentifier name) (ts : List Token) :
    Ends (.word name :: ts) :=
  ⟨isIdentifier.word, isIdentifier.ne (by decide)⟩

theorem Closes.opens (closes : Closes rest) : Opens rest := by
  match rest with
  | .mark _ :: _ => trivial

theorem Closes.not_equals (closes : Closes rest) : symbol "=" (spell layout rest) = none := by
  refine symbol_of_head (by simp) closes.opens ?_
  match rest with
  | .mark .comma :: _ | .mark .closeParen :: _ | .mark .closeBracket :: _
  | .mark .closeBrace :: _ => simp [spell, Token.text]

theorem Closes.not_open (closes : Closes rest) : symbol "(" (spell layout rest) = none := by
  refine symbol_of_head (by simp) closes.opens ?_
  match rest with
  | .mark .comma :: _ | .mark .closeParen :: _ | .mark .closeBracket :: _
  | .mark .closeBrace :: _ => simp [spell, Token.text]

theorem opens_argumentTokens {argument : Idl.Argument} (writable : WritableArgument argument)
    (ts : List Token) : Opens (argumentTokens layout argument ++ ts) := by
  obtain ⟨name, type, optional⟩ := argument
  cases optional with
  | false =>
    rw [argumentTokens, List.append_assoc, List.append_assoc]
    exact opens_typeTokens layout writable.2 _
  | true => simp [argumentTokens]

theorem keyword_optional {type : IdlType} (writable : Writable type) (ts : List Token) :
    keyword "optional" (spell layout (typeTokens layout type ++ ts)) = none :=
  keyword_typeTokens layout writable (by simp) (by decide) ts

theorem argument_reads (layout : Layout) {argument : Idl.Argument}
    (writable : WritableArgument argument) (n : Nat) :
    ReadsItem layout Closes n (Grammar.argument (nested n)) Argument.lower (argumentTokens layout)
      argument := by
  intro rest closes fits
  obtain ⟨name, type, isOptional⟩ := argument
  obtain ⟨isIdentifier, writable⟩ := writable
  have word : isWord name = true := isIdentifier.word
  have named := isIdentifier.ends rest
  cases isOptional with
  | false =>
    simp only [argumentTokens, Bool.false_eq_true, if_false, List.nil_append, List.append_assoc,
      List.cons_append] at fits ⊢
    obtain ⟨form, read, lowered⟩ := attributedType_reads layout writable n _ named fits
    have bare := attributes_none (not_bracket layout writable (.word name :: rest)) n
    refine ⟨.single none false form name none, ?_, by simp [Argument.lower, lowered]⟩
    simp [Grammar.argument, bare, keyword_optional writable, read, word, closes.opens]
  | true =>
    simp only [argumentTokens, if_true, List.append_assoc, List.cons_append, List.nil_append]
      at fits ⊢
    have inner := fits_cons fits
    obtain ⟨form, read, lowered⟩ := attributedType_reads layout writable n _ named inner
    have bare : (nested n).attributes (spell layout (.word "optional" ::
        (typeTokens layout type ++ .word name :: rest))) = none := attributes_none (by simp) n
    -- An optional argument may have a default, which an equals sign would begin.
    refine ⟨.single none true form name none, ?_, by simp [Argument.lower, lowered]⟩
    simp [Grammar.argument, bare, keyword_word, opens_typeTokens layout writable, read, word,
      closes.opens, default, closes.not_equals]

/-- No type begins with a mark that is no parenthesis. -/
theorem type_mark {m : Mark} (notOpen : m ≠ .openParen) (n : Nat) (opens : Opens ts) :
    (nested n).type (spell layout (.mark m :: ts)) = none := by
  cases n with
  | zero => rfl
  | succ n =>
    have noParen : symbol "(" (spell layout (.mark m :: ts)) = none := by
      cases m <;> simp_all
    simp [nested, Nested.step, typeForm, nonAnyType_mark, unionType, parenthesized, noParen]

theorem argument_mark {m : Mark} (notOpen : m ≠ .openParen) (notBracket : m ≠ .openBracket) (n : Nat)
    (opens : Opens ts) : Grammar.argument (nested n) (spell layout (.mark m :: ts)) = none := by
  have bare : (nested n).attributes (spell layout (.mark m :: ts)) = none :=
    attributes_none (by cases m <;> simp_all) n
  simp [Grammar.argument, bare, attributedType, type_mark notOpen n opens]

/-- Arguments between parentheses. -/
theorem arguments_reads (layout : Layout) {arguments : List Idl.Argument}
    (writable : ∀ argument ∈ arguments, WritableArgument argument) (n : Nat) :
    ReadsItem layout Opens n (Grammar.arguments (nested n)) lowerArguments (argumentsTokens layout)
      arguments := by
  intro rest opens fits
  have closing : Closes (.mark .closeParen :: rest) := trivial
  have last : symbol "," (spell layout (.mark .closeParen :: rest)) = none := by simp [opens]
  cases arguments with
  | nil =>
    refine ⟨[], ?_, rfl⟩
    simp [argumentsTokens, separated, Grammar.arguments, parenthesized, sepBy, sepBy1,
      argument_mark, opens]
  | cons argument arguments =>
    simp only [argumentsTokens, List.cons_append, List.append_assoc, List.nil_append] at fits ⊢
    have inner := fits_cons fits
    obtain ⟨forms, read, lowered⟩ := sepBy1_separated separates_comma (fun _ => trivial)
      (fun argument member => argument_reads layout (writable argument member) n)
      (fun argument member => opens_argumentTokens (writable argument member)) closing last inner
    have inside := opens_separated (argumentTokens layout)
      (opens_argumentTokens (writable argument List.mem_cons_self)) (.mark .comma) arguments
      (.mark .closeParen :: rest)
    refine ⟨forms, ?_, lowered⟩
    simp [Grammar.arguments, parenthesized, sepBy, inside, read, opens]

@[simp] theorem opens_argumentsTokens (arguments : List Idl.Argument) (ts : List Token) :
    Opens (argumentsTokens layout arguments ++ ts) :=
  trivial

theorem parenthesized_none {α : Type} {p : Parser α} {s : List Char} (absent : symbol "(" s = none) :
    parenthesized p s = none := by
  simp [parenthesized, absent]

theorem arguments_none {level : Nested} {s : List Char} (absent : symbol "(" s = none) :
    Grammar.arguments level s = none :=
  parenthesized_none absent

/-! ## Members -/

/-- The type of a constant. -/
theorem constType_reads (layout : Layout) {type : IdlType} (writable : WritableConst type)
    (ends : Ends rest) :
    ∃ form, constType (spell layout (typeTokens layout type ++ rest)) = some (form, spell layout rest) ∧
      form.lower = type := by
  have opens := ends.opens
  cases writable with
  | integer type =>
    refine ⟨.integer type false, ?_, rfl⟩
    rw [typeTokens, nameTokens_integer]
    simp [constType, integerType_reads type ends, nullable_none opens]
  | float type =>
    refine ⟨.float type false, ?_, rfl⟩
    rw [typeTokens, nameTokens_float]
    simp [constType, integerType_float, floatType_reads type opens, nullable_none opens]
  | @word name known =>
    have word : isWord name = true ∧ name ≠ "void" ∧ name ∉ integerWords ∧ name ∉ floatWords := by
      rcases known with member | isIdentifier
      · fin_cases member <;> refine ⟨by simp, ?_⟩ <;> decide
      · have plain := isIdentifier.plain
        simp only [List.mem_append, not_or] at plain
        exact ⟨isIdentifier.word, isIdentifier.ne (by decide), plain.2.1, plain.2.2⟩
    -- The grammar tries numbers first, so they have to be ruled out.
    have noInteger : integerType (spell layout (.word name :: rest)) = none :=
      integerType_word word.1 word.2.2.1
    have noFloat : floatType (spell layout (.word name :: rest)) = none :=
      floatType_word word.1 word.2.2.2
    rw [typeTokens, nameTokens_word word.1 word.2.1]
    rcases known with member | isIdentifier
    · fin_cases member
      · refine ⟨.boolean false, ?_, rfl⟩
        simp [constType, noInteger, noFloat, keyword_word, opens, nullable_none opens]
      · refine ⟨.byte false, ?_, rfl⟩
        simp [constType, noInteger, noFloat, keyword_word, opens, nullable_none opens]
      · refine ⟨.octet false, ?_, rfl⟩
        simp [constType, noInteger, noFloat, keyword_word, opens, nullable_none opens]
    · have other : ∀ w ∈ ["boolean", "byte", "octet"], name ≠ w :=
        fun w member => isIdentifier.ne (by revert w; decide)
      simp only [List.forall_mem_cons] at other
      refine ⟨.identifier name false, ?_, rfl⟩
      simp [constType, noInteger, noFloat, keyword_other, other, word.1, opens, nullable_none opens]

theorem WritableConst.writable {type : IdlType} (writable : WritableConst type) : Writable type := by
  cases writable with
  | integer type => exact .integer type
  | float type => exact .float type
  | word known =>
    rcases known with member | isIdentifier
    · fin_cases member
      · exact .builtIn .boolean
      · exact .builtIn .byte
      · exact .builtIn .octet
    · exact .identifier isIdentifier

/-- The parts of a constant, up to its semicolon. -/
theorem constant_reads (layout : Layout) {name : String} {type : IdlType}
    (isIdentifier : IsIdentifier name) (writable : WritableConst type) (rest : List Token) :
    ∃ form value, constant (spell layout (memberTokens layout (.const name type) ++ rest)) =
        some ((form, name, value), spell layout (.mark .semicolon :: rest)) ∧ form.lower = type := by
  obtain ⟨form, read, lowered⟩ := constType_reads layout writable
    (isIdentifier.ends (.mark .equals :: .zero :: .mark .semicolon :: rest))
  refine ⟨form, .integer (.oct "0"), ?_, lowered⟩
  simp [memberTokens, constant, keyword_word, opens_typeTokens layout writable.writable, read,
    isIdentifier.word, constValue_zero]

theorem constMember_none {s : List Char} (absent : keyword "const" s = none) :
    constMember s = none := by
  simp [constMember, closed, constant, absent]

theorem mixinConst_none {s : List Char} (absent : keyword "const" s = none) :
    mixinConst s = none := by
  simp [mixinConst, closed, constant, absent]

/-- Members of interfaces are told apart from attributes by their first word. -/
theorem attributeMember_none {s : List Char}
    (absent : ∀ w ∈ memberWords, keyword w s = none) (level : Nested) :
    attributeMember level s = none := by
  simp only [memberWords, List.forall_mem_cons] at absent
  simp [attributeMember, closed, attributeModifier, absent]

/-- A form without extended attributes of its own. -/
theorem annotated_bare {α : Type} {p : Parser α} {s t : List Char} {x : α}
    (bare : symbol "[" s = none) (reads : p s = some (x, t)) (n : Nat) :
    annotated (nested n) p s = some (⟨none, x⟩, t) := by
  simp [annotated, attributes_none bare, reads]

/-- The tokens of an attribute, with its semicolon at the end of what it is read from. -/
theorem attributeTokens_append (name : String) (type : IdlType) (readonly : Bool)
    (rest : List Token) :
    memberTokens layout (.attribute name type readonly) ++ rest =
      (if readonly then [.word "readonly"] else []) ++ .word "attribute" ::
        (typeTokens layout type ++ .word name :: .mark .semicolon :: rest) := by
  cases readonly <;> simp [memberTokens]

theorem operationTokens_append (name : String) (arguments : List Idl.Argument) (returns : IdlType)
    (rest : List Token) :
    memberTokens layout (.operation (some name) arguments returns) ++ rest =
      typeTokens layout returns ++ .word name ::
        (argumentsTokens layout arguments ++ .mark .semicolon :: rest) := by
  simp [memberTokens]

/-- The result and the arguments of an operation, read one after the other. -/
theorem operation_reads (layout : Layout) {name : String} {arguments : List Idl.Argument}
    {returns : IdlType} (isIdentifier : IsIdentifier name)
    (writable : ∀ argument ∈ arguments, WritableArgument argument) (returned : Returned returns)
    {n : Nat} (fits : (spell layout (typeTokens layout returns ++ .word name ::
      (argumentsTokens layout arguments ++ .mark .semicolon :: rest))).length ≤ n) :
    ∃ form forms, returnForm (nested n).type (spell layout (typeTokens layout returns ++
          .word name :: (argumentsTokens layout arguments ++ .mark .semicolon :: rest))) =
        some (form, spell layout (.word name ::
          (argumentsTokens layout arguments ++ .mark .semicolon :: rest))) ∧
      Grammar.arguments (nested n)
          (spell layout (argumentsTokens layout arguments ++ .mark .semicolon :: rest)) =
        some (forms, spell layout (.mark .semicolon :: rest)) ∧
      form.lower = returns ∧ lowerArguments forms = arguments := by
  obtain ⟨form, read, lowered⟩ := return_reads layout returned n _ (isIdentifier.ends _) fits
  have inner := fits_cons (fits_append fits)
  obtain ⟨forms, readAll, loweredAll⟩ :=
    arguments_reads layout writable n _ (opens_mark .semicolon rest) inner
  exact ⟨form, forms, read, readAll, lowered, loweredAll⟩

/-- An iterable is no operation: nothing between parentheses follows its first word. -/
theorem operationMember_iterable (n : Nat) (opens : Opens ts) :
    operationMember (nested n) (spell layout (.word "iterable" :: .mark .openAngle :: ts)) = none := by
  cases n with
  | zero =>
    simp [operationMember, closed, operationModifier, special, returnForm, keyword_word, nested,
      Nested.empty]
  | succ n =>
    have isWord_iterable : isWord "iterable" = true := by simp
    obtain ⟨form, read, -⟩ := returnForm_word layout n isWord_iterable (by decide) (by decide)
      (opens_mark .openAngle ts)
    simp [operationMember, closed, operationModifier, special, keyword_word, read, arguments_none,
      opens]

theorem interfaceMember_reads (layout : Layout) {member : Idl.Member}
    (writable : WritableInInterface member) (n : Nat) :
    ReadsItem layout Opens n (annotated (nested n) (interfaceMember (nested n)))
      InterfaceMember.lower (memberTokens layout) member := by
  intro rest opens fits
  -- The forms that come before the right one fail at the first word.
  match member with
  | .const name type =>
    obtain ⟨form, value, read, lowered⟩ := constant_reads layout writable.1 writable.2 rest
    refine ⟨⟨none, .const form name value⟩, annotated_bare ?_ ?_ n,
      by simp [InterfaceMember.lower, lowered]⟩
    · simp [memberTokens]
    · simp [interfaceMember, firstOf_cons_apply, constMember, closed, read, opens]
  | .attribute name type readonly =>
    have word : isWord name = true := writable.1.word
    rw [attributeTokens_append] at fits ⊢
    have inner := fits_cons (fits_append fits)
    obtain ⟨form, read, lowered⟩ := attributedType_reads layout writable.2 n _ (writable.1.ends _) inner
    refine ⟨⟨none, .attribute none readonly form name⟩, annotated_bare ?_ ?_ n,
      by simp [InterfaceMember.lower, lowered]⟩
    · cases readonly <;> simp
    · cases readonly <;>
        simp [interfaceMember, firstOf_cons_apply, constMember_none, attributeMember, closed,
          attributeModifier, keyword_word, opens_typeTokens layout writable.2, read, word, opens]
  | .operation (some name) arguments returns =>
    obtain ⟨isIdentifier, writableArguments, returned⟩ := writable
    have word : isWord name = true := isIdentifier.word
    rw [operationTokens_append] at fits ⊢
    obtain ⟨form, forms, read, readAll, lowered, loweredAll⟩ :=
      operation_reads layout isIdentifier writableArguments returned fits
    have absent := keyword_returnTokens layout returned
      (.word name :: (argumentsTokens layout arguments ++ .mark .semicolon :: rest))
    have noAttribute := attributeMember_none absent (nested n)
    simp only [memberWords, List.forall_mem_cons] at absent
    refine ⟨⟨none, .operation none none form (some name) forms⟩,
      annotated_bare (not_bracket_return layout returned _) ?_ n,
      by simp [InterfaceMember.lower, lowered, loweredAll]⟩
    simp [interfaceMember, firstOf_cons_apply, constMember_none, absent, noAttribute,
      constructorMember, operationMember, closed, operationModifier, special, read, word, readAll,
      opens]
  | .constructor arguments =>
    have text : memberTokens layout (.constructor arguments) ++ rest = .word "constructor" ::
        (argumentsTokens layout arguments ++ .mark .semicolon :: rest) := by
      simp [memberTokens]
    rw [text] at fits ⊢
    obtain ⟨forms, read, lowered⟩ := arguments_reads layout writable n _
      (opens_mark .semicolon rest) (fits_cons fits)
    refine ⟨⟨none, .constructor forms⟩, annotated_bare (by simp) ?_ n,
      by simp [InterfaceMember.lower, lowered]⟩
    simp [interfaceMember, firstOf_cons_apply, constMember_none, attributeMember, closed,
      attributeModifier, constructorMember, keyword_word, read, opens]
  | .iterable [type] =>
    have text : memberTokens layout (.iterable [type]) ++ rest = .word "iterable" ::
        .mark .openAngle :: (typeTokens layout type ++
          .mark .closeAngle :: .mark .semicolon :: rest) := by
      simp [memberTokens, separated]
    rw [text] at fits ⊢
    have inner := fits_cons (fits_cons fits)
    obtain ⟨form, read, lowered⟩ := attributedType_reads layout writable n _
      (ends_mark .closeAngle (.mark .semicolon :: rest)) inner
    have inside := angled_reads (opens_typeTokens layout writable _) (opens_mark .semicolon rest) read
    refine ⟨⟨none, .iterable form⟩, annotated_bare (by simp) ?_ n,
      by simp [InterfaceMember.lower, lowered]⟩
    simp [interfaceMember, firstOf_cons_apply, constMember_none, attributeMember, closed,
      attributeModifier, constructorMember, keyword_word, operationMember_iterable,
      opens_typeTokens layout writable, iterableMember, inside, opens]
  | .iterable [key, value] =>
    have text : memberTokens layout (.iterable [key, value]) ++ rest = .word "iterable" ::
        .mark .openAngle :: (typeTokens layout key ++ .mark .comma ::
          (typeTokens layout value ++ .mark .closeAngle :: .mark .semicolon :: rest)) := by
      simp [memberTokens, separated]
    rw [text] at fits ⊢
    have outer := fits_cons (fits_cons fits)
    have inner := fits_cons (fits_append outer)
    obtain ⟨keyForm, keyRead, keyLowered⟩ := attributedType_reads layout writable.1 n _
      (ends_mark .comma _) outer
    obtain ⟨form, read, lowered⟩ := attributedType_reads layout writable.2 n _
      (ends_mark .closeAngle (.mark .semicolon :: rest)) inner
    have opensKey := opens_typeTokens layout writable.1
    have opensValue := opens_typeTokens layout writable.2
    refine ⟨⟨none, .iterablePair keyForm form⟩, annotated_bare (by simp) ?_ n,
      by simp [InterfaceMember.lower, keyLowered, lowered]⟩
    simp [interfaceMember, firstOf_cons_apply, constMember_none, attributeMember, closed,
      attributeModifier, constructorMember, keyword_word, operationMember_iterable, opensKey,
      opensValue, iterableMember, iterablePairMember, typePair, angled, keyRead, read, opens]

/-- A union is no list of arguments: after its first type and the word `or`, read as a name, there
    is neither a comma nor the end of the list. -/
theorem arguments_union {members : List IdlType} (writable : Writable (.union members)) {n : Nat}
    (fits : (spell layout (typeTokens layout (.union members) ++ rest)).length ≤ n) :
    Grammar.arguments (nested n) (spell layout (typeTokens layout (.union members) ++ rest)) =
      none := by
  cases writable with
  | union several _ writable =>
    match members with
    | [] | [_] => simp at several
    | first :: second :: others =>
      simp only [List.forall_mem_cons] at writable
      obtain ⟨writableFirst, writableSecond, -⟩ := writable
      obtain ⟨more, text⟩ : ∃ more, typeTokens layout (.union (first :: second :: others)) ++ rest =
          .mark .openParen ::
            (typeTokens layout first ++ .word "or" :: (typeTokens layout second ++ more)) := by
        simp [typeTokens, typesTokens, moreTypesTokens]
      rw [text] at fits ⊢
      have inner := fits_cons fits
      have opensFirst := opens_typeTokens layout writableFirst
      have opensSecond := opens_typeTokens layout writableSecond more
      obtain ⟨form, read, -⟩ := attributedType_reads layout writableFirst n _ (by simp) inner
      have bare := attributes_none
        (not_bracket layout writableFirst (.word "or" :: (typeTokens layout second ++ more))) n
      have argument : Grammar.argument (nested n) (spell layout (typeTokens layout first ++
            .word "or" :: (typeTokens layout second ++ more))) =
          some (.single none false form "or" none, spell layout (typeTokens layout second ++ more)) := by
        simp [Grammar.argument, bare, keyword_optional writableFirst, read, opensSecond]
      have noComma : symbol "," (spell layout (typeTokens layout second ++ more)) = none :=
        symbol_typeTokens layout writableSecond (by simp) (by simp) (by simp) more
      have noEnd : symbol ")" (spell layout (typeTokens layout second ++ more)) = none :=
        symbol_typeTokens layout writableSecond (by simp) (by simp) (by simp) more
      -- One argument is read, and neither a second one nor the closing parenthesis is there.
      have single := sepBy1_of_rounds argument .done noComma
      simp [Grammar.arguments, parenthesized, sepBy, opensFirst, single, noEnd]

/-- A type is a union, or a word that no parenthesis follows. -/
theorem typeTokens_cases (layout : Layout) {type : IdlType} (writable : Writable type) {name : String}
    (word : isWord name = true) (ts : List Token) :
    (∃ members, type = .union members) ∨
      ∃ w us, typeTokens layout type ++ .word name :: ts = .word w :: us ∧ isWord w = true ∧
        Opens us ∧ symbol "(" (spell layout us) = none := by
  cases writable with
  | any =>
    rw [typeTokens, nameTokens_word (by simp) (by decide)]
    exact .inr ⟨_, _, rfl, by simp, word, by simp [word]⟩
  | integer type =>
    rw [typeTokens, nameTokens_integer]
    obtain ⟨unsigned, size⟩ := type
    cases unsigned <;> cases size <;>
      exact .inr ⟨_, _, rfl, by simp, by simp [word], by simp [word]⟩
  | float type =>
    rw [typeTokens, nameTokens_float]
    obtain ⟨unrestricted, size⟩ := type
    cases unrestricted <;> cases size <;>
      exact .inr ⟨_, _, rfl, by simp, by simp [word], by simp [word]⟩
  | builtIn type =>
    have known := builtIn_word type
    rw [typeTokens, nameTokens_word known.1 known.2.1]
    exact .inr ⟨_, _, rfl, known.1, word, by simp [word]⟩
  | identifier isIdentifier =>
    rw [typeTokens, nameTokens_word isIdentifier.word (isIdentifier.ne (by decide))]
    exact .inr ⟨_, _, rfl, isIdentifier.word, word, by simp [word]⟩
  | sequence _ | frozenArray _ | promise _ | promiseVoid | record _ _ =>
    refine .inr ⟨_, _, rfl, by simp, trivial, ?_⟩
    exact symbol_of_head (by simp) trivial (by simp [spell, Token.text])
  | union _ _ _ => exact .inl ⟨_, rfl⟩

/-- An attribute is no operation of a mixin.  Its first word would be a type and what follows a name,
    but then no arguments follow. -/
theorem mixinOperation_attribute {name : String} {type : IdlType} (isIdentifier : IsIdentifier name)
    (writable : Writable type) (readonly : Bool) {n : Nat}
    (fits : (spell layout (memberTokens layout (.attribute name type readonly) ++ rest)).length ≤ n) :
    mixinOperation (nested n)
      (spell layout (memberTokens layout (.attribute name type readonly) ++ rest)) = none := by
  rw [attributeTokens_append] at fits ⊢
  have inner := fits_cons (fits_append fits)
  have opens := opens_typeTokens layout writable (.word name :: .mark .semicolon :: rest)
  have isWord_readonly : isWord "readonly" = true := by simp
  have isWord_attribute : isWord "attribute" = true := by simp
  have split := typeTokens_cases layout writable isIdentifier.word (.mark .semicolon :: rest)
  cases readonly with
  | true =>
    -- `readonly` is read as the result, `attribute` as the name, and the type has to be arguments.
    have noArguments : Grammar.arguments (nested n)
        (spell layout (typeTokens layout type ++ .word name :: .mark .semicolon :: rest)) = none := by
      obtain ⟨members, rfl⟩ | ⟨w, us, text, word, -⟩ := split
      · exact arguments_union writable inner
      · rw [text]
        exact arguments_none (by simp [word])
    obtain ⟨n, rfl⟩ := exists_level_word isWord_readonly fits
    obtain ⟨form, read, -⟩ := returnForm_word layout n isWord_readonly (by decide) (by decide)
      (show Opens (.word "attribute" ::
        (typeTokens layout type ++ .word name :: .mark .semicolon :: rest)) from isWord_attribute)
    simp [mixinOperation, closed, keyword_word, read, opens, noArguments]
  | false =>
    -- `attribute` is read as the result, and the first word of the type as the name if it has one.
    obtain ⟨m, rfl⟩ := exists_level_word isWord_attribute fits
    obtain ⟨form, read, -⟩ := returnForm_word layout m isWord_attribute (by decide) (by decide) opens
    obtain ⟨members, rfl⟩ | ⟨w, us, text, word, opensMore, noParen⟩ := split
    · have noName : identifier (spell layout (typeTokens layout (.union members) ++
          .word name :: .mark .semicolon :: rest)) = none := identifier_mark .openParen
      simp [mixinOperation, closed, keyword_word, read, opens, noName, arguments_union writable inner]
    · rw [text] at read opens ⊢
      simp [mixinOperation, closed, keyword_word, word, read, opensMore, arguments_none noParen]

theorem mixinMember_reads (layout : Layout) {member : Idl.Member}
    (writable : WritableInMixin member) (n : Nat) :
    ReadsItem layout Opens n (annotated (nested n) (mixinMember (nested n)))
      MixinMember.lower (memberTokens layout) member := by
  intro rest opens fits
  match member with
  | .const name type =>
    obtain ⟨form, value, read, lowered⟩ := constant_reads layout writable.1 writable.2 rest
    refine ⟨⟨none, .const form name value⟩, annotated_bare ?_ ?_ n,
      by simp [MixinMember.lower, lowered]⟩
    · simp [memberTokens]
    · simp [mixinMember, firstOf_cons_apply, mixinConst, closed, read, opens]
  | .attribute name type readonly =>
    have word : isWord name = true := writable.1.word
    -- In a mixin an operation is tried before an attribute.
    have noOperation := mixinOperation_attribute writable.1 writable.2 readonly fits
    rw [attributeTokens_append] at fits noOperation ⊢
    have inner := fits_cons (fits_append fits)
    obtain ⟨form, read, lowered⟩ := attributedType_reads layout writable.2 n _ (writable.1.ends _) inner
    refine ⟨⟨none, .attribute false readonly form name⟩, annotated_bare ?_ ?_ n,
      by simp [MixinMember.lower, lowered]⟩
    · cases readonly <;> simp
    · rw [mixinMember, firstOf_cons_apply, firstOf_cons_apply, noOperation]
      cases readonly <;>
        simp [firstOf_cons_apply, mixinConst_none, mixinAttribute, closed, keyword_word,
          opens_typeTokens layout writable.2, read, word, opens]
  | .operation (some name) arguments returns =>
    obtain ⟨isIdentifier, writableArguments, returned⟩ := writable
    have word : isWord name = true := isIdentifier.word
    rw [operationTokens_append] at fits ⊢
    obtain ⟨form, forms, read, readAll, lowered, loweredAll⟩ :=
      operation_reads layout isIdentifier writableArguments returned fits
    have absent := keyword_returnTokens layout returned
      (.word name :: (argumentsTokens layout arguments ++ .mark .semicolon :: rest))
    simp only [memberWords, List.forall_mem_cons] at absent
    refine ⟨⟨none, .operation false form (some name) forms⟩,
      annotated_bare (not_bracket_return layout returned _) ?_ n,
      by simp [MixinMember.lower, lowered, loweredAll]⟩
    simp [mixinMember, firstOf_cons_apply, mixinConst_none, absent, mixinOperation, closed, read, word,
      readAll, opens]

theorem dictionaryMember_reads (layout : Layout) {member : Idl.Member}
    (writable : WritableInDictionary member) (n : Nat) :
    ReadsItem layout Opens n (annotated (nested n) (dictionaryMember (nested n)))
      DictionaryMember.lower (memberTokens layout) member := by
  intro rest opens fits
  match member with
  | .field name type required =>
    obtain ⟨isIdentifier, writable⟩ := writable
    have word : isWord name = true := isIdentifier.word
    have text : memberTokens layout (.field name type required) ++ rest =
        (if required then [.word "required"] else []) ++
          (typeTokens layout type ++ .word name :: .mark .semicolon :: rest) := by
      cases required <;> simp [memberTokens]
    rw [text] at fits ⊢
    obtain ⟨form, read, lowered⟩ := type_reads layout writable n _ (isIdentifier.ends _)
      (fits_append fits)
    have noDefault : symbol "=" (spell layout (.mark .semicolon :: rest)) = none := by simp [opens]
    refine ⟨⟨none, ⟨required, form, name, none⟩⟩, annotated_bare ?_ ?_ n,
      by simp [DictionaryMember.lower, lowered]⟩
    · cases required <;> simp [not_bracket layout writable]
    -- No type begins with the word `required`.
    · have bare := keyword_typeTokens layout writable (show isWord "required" = true by simp)
        (by decide) (.word name :: .mark .semicolon :: rest)
      cases required <;>
        simp [dictionaryMember, closed, keyword_word, bare, opens_typeTokens layout writable, read,
          word, default, noDefault, opens]

/-! ## Members in a row -/

theorem WritableInMixin.inInterface {member : Idl.Member} (writable : WritableInMixin member) :
    WritableInInterface member := by
  match member with
  | .const _ _ | .attribute _ _ _ | .operation (some _) _ _ => exact writable

theorem opens_memberTokens (layout : Layout) {member : Idl.Member}
    (writable : WritableInInterface member ∨ WritableInDictionary member) (ts : List Token) :
    Opens (memberTokens layout member ++ ts) := by
  match member with
  | .const _ _ | .constructor _ | .iterable _ => simp [memberTokens]
  | .attribute _ _ readonly => cases readonly <;> simp [memberTokens]
  | .operation (some name) _ _ =>
    obtain ⟨-, -, returned⟩ | ⟨⟨⟩⟩ := writable
    rw [operationTokens_append]
    exact opens_returnTokens returned _
  | .field _ _ required =>
    obtain ⟨⟨⟩⟩ | ⟨-, writable⟩ := writable
    cases required with
    | false =>
      rw [memberTokens, List.append_assoc, List.append_assoc]
      exact opens_typeTokens layout writable _
    | true => simp [memberTokens]
  | .operation none _ _ | .unsupported _ => simp [WritableInInterface, WritableInDictionary] at writable

theorem memberTokens_closed (layout : Layout) {member : Idl.Member}
    (writable : WritableInInterface member ∨ WritableInDictionary member) :
    (memberTokens layout member).getLast? = some (.mark .semicolon) := by
  match member with
  | .const _ _ | .constructor _ | .iterable _ | .attribute _ _ _ | .operation _ _ _ | .field _ _ _ =>
    simp [memberTokens, List.getLast?_cons]
  | .unsupported _ => simp [WritableInInterface, WritableInDictionary] at writable

theorem interfaceMember_statement (layout : Layout) {member : Idl.Member}
    (writable : WritableInInterface member) (n : Nat) :
    ReadsStatement layout n (annotated (nested n) (interfaceMember (nested n))) InterfaceMember.lower
      (memberTokens layout) member where
  reads := interfaceMember_reads layout writable n
  opens := opens_memberTokens layout (.inl writable)
  closed := memberTokens_closed layout (.inl writable)

theorem mixinMember_statement (layout : Layout) {member : Idl.Member}
    (writable : WritableInMixin member) (n : Nat) :
    ReadsStatement layout n (annotated (nested n) (mixinMember (nested n))) MixinMember.lower
      (memberTokens layout) member where
  reads := mixinMember_reads layout writable n
  opens := opens_memberTokens layout (.inl writable.inInterface)
  closed := memberTokens_closed layout (.inl writable.inInterface)

theorem dictionaryMember_statement (layout : Layout) {member : Idl.Member}
    (writable : WritableInDictionary member) (n : Nat) :
    ReadsStatement layout n (annotated (nested n) (dictionaryMember (nested n)))
      DictionaryMember.lower (memberTokens layout) member where
  reads := dictionaryMember_reads layout writable n
  opens := opens_memberTokens layout (.inr writable)
  closed := memberTokens_closed layout (.inr writable)

end IdlTypings.Grammar
