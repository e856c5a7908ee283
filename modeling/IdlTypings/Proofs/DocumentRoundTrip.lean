import Mathlib
import IdlTypings.Proofs.WrittenMembers

/-! # Documents written in WebIDL

`documentTokens` writes definitions out as WebIDL, and `Grammar.read` reads them back:

* `attributes_reads` reads extended attributes and `body_reads` the members of a definition;
* `definition_reads` reads one definition, and `document_round_trip` a whole document.
-/

namespace IdlTypings.Grammar

open IdlTypings.Parser
open Idl (IdlType)

/-! ## Writing documents -/

def attributeTokens (attr : Idl.ExtendedAttribute) : List Token :=
  .word attr.name ::
    match attr.value with
    | none => []
    | some (.identifier name) => [.mark .equals, .word name]
    | some (.string text) => [.mark .equals, .literal text]
    | some (.identifierList names) =>
      .mark .equals :: .mark .openParen ::
        (separated (.mark .comma) (fun name => [.word name]) names ++ [.mark .closeParen])

/-- The tokens of some extended attributes, between square brackets if there are any. -/
def attributesTokens (attributes : List Idl.ExtendedAttribute) : List Token :=
  if attributes.isEmpty then []
  else .mark .openBracket :: (separated (.mark .comma) attributeTokens attributes ++
    [.mark .closeBracket])

def inheritanceTokens : Option String → List Token
  | none => []
  | some parent => [.mark .colon, .word parent]

def membersTokens (layout : Layout) (members : List Idl.Member) : List Token :=
  .mark .openBrace :: (members.flatMap (memberTokens layout) ++ [.mark .closeBrace])

/-- The tokens of an interface, a mixin or a dictionary, after the words that tell which. -/
def bodyTokens (layout : Layout) (body : Idl.Interface) : List Token :=
  .word body.name :: (inheritanceTokens body.parent ++
    (membersTokens layout body.members ++ [.mark .semicolon]))

def definitionTokens (layout : Layout) : Idl.Definition → List Token
  | .interface body =>
    attributesTokens body.attributes ++ .word "interface" :: bodyTokens layout body
  | .mixin body =>
    attributesTokens body.attributes ++ .word "interface" :: .word "mixin" :: bodyTokens layout body
  | .dictionary body =>
    attributesTokens body.attributes ++ .word "dictionary" :: bodyTokens layout body
  | .includes target included =>
    [.word target, .word "includes", .word included, .mark .semicolon]
  | .enumeration name values =>
    .word "enum" :: .word name :: .mark .openBrace ::
      (separated (.mark .comma) (fun value => [.literal value]) values ++
        [.mark .closeBrace, .mark .semicolon])
  | .callback name arguments returns =>
    .word "callback" :: .word name :: .mark .equals ::
      (typeTokens layout returns ++ (argumentsTokens layout arguments ++ [.mark .semicolon]))
  | .typedef name type =>
    .word "typedef" :: (typeTokens layout type ++ [.word name, .mark .semicolon])
  | .unsupported _ => []

def documentTokens (layout : Layout) (definitions : List Idl.Definition) : List Token :=
  definitions.flatMap (definitionTokens layout)

/-! ## What can be written -/

/-- An extended attribute that can be written. -/
def WritableAttribute (attr : Idl.ExtendedAttribute) : Prop :=
  IsIdentifier attr.name ∧
    match attr.value with
    | none => True
    | some (.identifier name) => IsIdentifier name
    | some (.string text) => '\"' ∉ text.toList
    | some (.identifierList names) => names ≠ [] ∧ ∀ name ∈ names, IsIdentifier name

/-- An interface, a mixin or a dictionary that can be written, given which members can. -/
structure WritableBody (member : Idl.Member → Prop) (body : Idl.Interface) : Prop where
  name : IsIdentifier body.name
  parent : ∀ parent ∈ body.parent, IsIdentifier parent
  attributes : ∀ attr ∈ body.attributes, WritableAttribute attr
  members : ∀ m ∈ body.members, member m

/-- A definition that can be written. -/
def WritableDefinition : Idl.Definition → Prop
  | .interface body => WritableBody WritableInInterface body
  | .mixin body => WritableBody WritableInMixin body ∧ body.parent = none
  | .dictionary body => WritableBody WritableInDictionary body
  | .includes target included => IsIdentifier target ∧ IsIdentifier included
  | .enumeration name values =>
    IsIdentifier name ∧ values ≠ [] ∧ ∀ value ∈ values, '\"' ∉ value.toList
  | .callback name arguments returns =>
    IsIdentifier name ∧ (∀ argument ∈ arguments, WritableArgument argument) ∧ Returned returns
  | .typedef name type => IsIdentifier name ∧ Writable type
  | .unsupported _ => False

/-! ## Extended attributes -/

variable {layout : Layout} {ts rest : List Token}

theorem identifier_reads (layout : Layout) {name : String} (isIdentifier : IsIdentifier name)
    (n : Nat) : ReadsItem layout Closes n identifier id (fun name => [.word name]) name := by
  intro rest closes _
  exact ⟨name, by simp [isIdentifier.word, closes.opens], rfl⟩

/-- Names between parentheses. -/
theorem identifiers_reads (layout : Layout) {names : List String} (nonempty : names ≠ [])
    (writable : ∀ name ∈ names, IsIdentifier name) (opens : Opens rest) :
    parenthesized (sepBy identifier (symbol ",")) (spell layout (.mark .openParen ::
        (separated (.mark .comma) (fun name => [.word name]) names ++ .mark .closeParen :: rest))) =
      some (names, spell layout rest) := by
  obtain ⟨first, others, rfl⟩ := List.exists_cons_of_ne_nil nonempty
  have closing : Closes (.mark .closeParen :: rest) := trivial
  have last : symbol "," (spell layout (.mark .closeParen :: rest)) = none := by simp [opens]
  obtain ⟨forms, read, lowered⟩ := sepBy1_separated separates_comma (fun _ => trivial)
    (fun name member => identifier_reads layout (writable name member) _)
    (fun name member _ => (writable name member).word) closing last (Nat.le_refl _)
  have inside : Opens (separated (.mark .comma) (fun name => [.word name]) (first :: others) ++
      .mark .closeParen :: rest) :=
    (writable first List.mem_cons_self).word
  rw [List.map_id] at lowered
  simp [parenthesized, sepBy, inside, read, opens, lowered]

theorem attribute_reads (layout : Layout) {attr : Idl.ExtendedAttribute}
    (writable : WritableAttribute attr) (inner : Nested) (n : Nat) :
    ReadsItem layout Closes n (extendedAttribute inner) ExtendedAttribute.lower attributeTokens
      attr := by
  intro rest closes _
  obtain ⟨name, value⟩ := attr
  obtain ⟨isIdentifier, known⟩ := writable
  have word : isWord name = true := isIdentifier.word
  have opens := closes.opens
  -- The alternatives of the grammar that stand before the right one need the brackets or the equals
  -- sign that are ruled out here.
  match value with
  | none =>
    refine ⟨.noArguments name, ?_, rfl⟩
    simp [attributeTokens, extendedAttribute, word, opens, arguments_none, closes.not_open,
      closes.not_equals]
  | some (.identifier value) =>
    have valueWord : isWord value = true := known.word
    refine ⟨.identifier name value, ?_, rfl⟩
    simp [attributeTokens, extendedAttribute, word, valueWord, opens, arguments_none,
      parenthesized_none, closes.not_open]
  | some (.string text) =>
    have plain : '\"' ∉ text.toList := known
    refine ⟨.string name text, ?_, rfl⟩
    simp [attributeTokens, extendedAttribute, word, opens, arguments_none, parenthesized_none, plain]
  | some (.identifierList names) =>
    have read := identifiers_reads layout known.1 known.2 opens
    refine ⟨.identifierList name names, ?_, rfl⟩
    simp [attributeTokens, extendedAttribute, word, arguments_none, read]

/-- The extended attributes of a definition are read, or there are none. -/
theorem attributes_reads (layout : Layout) {attributes : List Idl.ExtendedAttribute}
    (writable : ∀ attr ∈ attributes, WritableAttribute attr) (n : Nat) (opens : Opens rest)
    (bare : symbol "[" (spell layout rest) = none) :
    ∃ found, optional (nested (n + 1)).attributes (spell layout (attributesTokens attributes ++ rest)) =
      some (found, spell layout rest) ∧ lowerAttributes found = attributes := by
  cases attributes with
  | nil =>
    refine ⟨none, ?_, rfl⟩
    simp [attributesTokens, attributes_none bare]
  | cons attr attributes =>
    have closing : Closes (.mark .closeBracket :: rest) := trivial
    have last : symbol "," (spell layout (.mark .closeBracket :: rest)) = none := by simp [opens]
    obtain ⟨forms, read, lowered⟩ := sepBy1_separated separates_comma (fun _ => trivial)
      (fun attr member => attribute_reads layout (writable attr member) (nested n) _)
      (fun attr member _ => (writable attr member).1.word) closing last (Nat.le_refl _)
    have inside : Opens (separated (.mark .comma) attributeTokens (attr :: attributes) ++
        .mark .closeBracket :: rest) :=
      (writable attr List.mem_cons_self).1.word
    refine ⟨some forms, ?_, lowered⟩
    simp [attributesTokens, nested, Nested.step, extendedAttributes, bracketed, sepBy, inside, read,
      opens]

/-! ## Bodies -/

theorem interfaceMember_end (n : Nat) (opens : Opens rest) :
    interfaceMember (nested n) (spell layout (.mark .closeBrace :: rest)) = none := by
  simp [interfaceMember, firstOf_cons_apply, firstOf_nil_apply, constMember_none, attributeMember,
    attributeModifier, constructorMember, operationMember, operationModifier, special, returnForm,
    type_mark, iterableMember, iterablePairMember, asyncIterableMember, asyncIterablePairMember,
    asyncIterable, maplikeMember, setlikeMember, stringifierMember, closed, opens]

theorem mixinMember_end (n : Nat) (opens : Opens rest) :
    mixinMember (nested n) (spell layout (.mark .closeBrace :: rest)) = none := by
  simp [mixinMember, firstOf_cons_apply, firstOf_nil_apply, mixinConst_none, mixinOperation, returnForm,
    type_mark, mixinAttribute, mixinStringifier, closed, opens]

theorem dictionaryMember_end (n : Nat) (opens : Opens rest) :
    dictionaryMember (nested n) (spell layout (.mark .closeBrace :: rest)) = none := by
  simp [dictionaryMember, type_mark, closed, opens]

/-- Members between curly brackets are read up to the closing one. -/
theorem body_reads {α : Type} {members : List Idl.Member} {n : Nat} {member : Parser α}
    {lower : Annotated α → Idl.Member}
    (statements : ∀ m ∈ members,
      ReadsStatement layout n (annotated (nested n) member) lower (memberTokens layout) m)
    (last : ∀ {rest}, Opens rest → member (spell layout (.mark .closeBrace :: rest)) = none) :
    ReadsItem layout Opens n (body (nested n) member) (List.map lower) (membersTokens layout)
      members := by
  intro rest opens fits
  -- The repetition stops at the bracket, where neither attributes nor a member begin.
  have ends : annotated (nested n) member (spell layout (.mark .closeBrace :: rest)) = none := by
    have bare : (nested n).attributes (spell layout (.mark .closeBrace :: rest)) = none :=
      attributes_none (by simp [opens]) n
    simp [annotated, bare, last opens]
  have text : membersTokens layout members ++ rest = .mark .openBrace ::
      (members.flatMap (memberTokens layout) ++ .mark .closeBrace :: rest) := by
    simp [membersTokens]
  rw [text] at fits ⊢
  obtain ⟨forms, read, lowered⟩ := many_statements statements (opens_mark .closeBrace rest) ends
    (fits_cons fits)
  have inside := opens_statements (fun m member => (statements m member).opens)
    (opens_mark .closeBrace rest)
  exact ⟨forms, by simp [body, braced, inside, read, opens], lowered⟩

@[simp] theorem opens_membersTokens (members : List Idl.Member) (ts : List Token) :
    Opens (membersTokens layout members ++ ts) :=
  trivial

@[simp] theorem opens_inheritanceTokens (parent : Option String) (members : List Idl.Member)
    (ts : List Token) : Opens (inheritanceTokens parent ++ (membersTokens layout members ++ ts)) := by
  cases parent <;> trivial

theorem inheritance_reads (layout : Layout) {parent : Option String}
    (writable : ∀ name ∈ parent, IsIdentifier name) (members : List Idl.Member) (ts : List Token) :
    optional inheritance (spell layout (inheritanceTokens parent ++
        (membersTokens layout members ++ ts))) =
      some (parent, spell layout (membersTokens layout members ++ ts)) := by
  cases parent with
  | none =>
    have absent : symbol ":" (spell layout (membersTokens layout members ++ ts)) = none :=
      symbol_of_head (by simp) trivial (by simp [membersTokens, spell, Token.text])
    simp [inheritanceTokens, inheritance, absent]
  | some name => simp [inheritanceTokens, inheritance, (writable name rfl).word]

/-! ## Definitions -/

theorem bodyTokens_append (body : Idl.Interface) (rest : List Token) :
    bodyTokens layout body ++ rest = .word body.name :: (inheritanceTokens body.parent ++
      (membersTokens layout body.members ++ .mark .semicolon :: rest)) := by
  simp [bodyTokens]

/-- A form under the extended attributes of its definition. -/
theorem annotated_reads {α : Type} {p : Parser α} {t : List Char} {x : α} {w : String}
    {attributes : List Idl.ExtendedAttribute} (writable : ∀ attr ∈ attributes, WritableAttribute attr)
    (word : isWord w = true) {n : Nat}
    (fits : (spell layout (attributesTokens attributes ++ .word w :: ts)).length ≤ n)
    (reads : p (spell layout (.word w :: ts)) = some (x, t)) :
    ∃ found, annotated (nested n) p (spell layout (attributesTokens attributes ++ .word w :: ts)) =
      some (⟨found, x⟩, t) ∧ lowerAttributes found = attributes := by
  obtain ⟨n, rfl⟩ := exists_level_word word (fits_append fits)
  obtain ⟨found, read, lowered⟩ := attributes_reads layout writable n
    (show Opens (.word w :: ts) from word) (by simp [word])
  exact ⟨found, by simp [annotated, read, reads, -optional_apply], lowered⟩

theorem fits_members {body : Idl.Interface} {n : Nat}
    (fits : (spell layout (bodyTokens layout body ++ rest)).length ≤ n) :
    (spell layout (membersTokens layout body.members ++ .mark .semicolon :: rest)).length ≤ n := by
  rw [bodyTokens_append] at fits
  exact fits_append (fits_cons fits)

theorem interfaceForm_reads (layout : Layout) {body : Idl.Interface}
    (writable : WritableBody WritableInInterface body) {n : Nat} (opens : Opens rest)
    (fits : (spell layout (bodyTokens layout body ++ rest)).length ≤ n) :
    ∃ forms, definitionForm (nested n)
        (spell layout (.word "interface" :: (bodyTokens layout body ++ rest))) =
      some (.interface body.name body.parent forms, spell layout rest) ∧
        forms.map InterfaceMember.lower = body.members := by
  have word := writable.name.word
  obtain ⟨forms, read, lowered⟩ :=
    body_reads (fun m member => interfaceMember_statement layout (writable.members m member) n)
      (interfaceMember_end n) _ (opens_mark .semicolon rest) (fits_members fits)
  have inherited := inheritance_reads layout writable.parent body.members (.mark .semicolon :: rest)
  rw [bodyTokens_append]
  refine ⟨forms, ?_, lowered⟩
  simp [definitionForm, firstOf_cons_apply, callbackForm, callbackInterfaceForm, interfaceForm, closed,
    keyword_word, word, inherited, read, opens, -optional_apply]

/-- A mixin is no interface called `mixin`: there is no body after that word. -/
theorem interfaceForm_mixin (level : Nested) {name : String} (word : isWord name = true) :
    interfaceForm level (spell layout (.word "interface" :: .word "mixin" :: .word name :: ts)) =
      none := by
  simp [interfaceForm, closed, keyword_word, word, inheritance, body, braced]

theorem mixinForm_reads (layout : Layout) {body : Idl.Interface}
    (writable : WritableBody WritableInMixin body) (noParent : body.parent = none) {n : Nat}
    (opens : Opens rest) (fits : (spell layout (bodyTokens layout body ++ rest)).length ≤ n) :
    ∃ forms, definitionForm (nested n)
        (spell layout (.word "interface" :: .word "mixin" :: (bodyTokens layout body ++ rest))) =
      some (.mixin body.name forms, spell layout rest) ∧
        forms.map MixinMember.lower = body.members := by
  have word := writable.name.word
  obtain ⟨forms, read, lowered⟩ :=
    body_reads (fun m member => mixinMember_statement layout (writable.members m member) n)
      (mixinMember_end n) _ (opens_mark .semicolon rest) (fits_members fits)
  rw [bodyTokens_append, noParent]
  refine ⟨forms, ?_, lowered⟩
  simp [definitionForm, firstOf_cons_apply, callbackForm, callbackInterfaceForm, interfaceForm_mixin,
    mixinForm, closed, keyword_word, word, inheritanceTokens, read, opens]

theorem dictionaryForm_reads (layout : Layout) {body : Idl.Interface}
    (writable : WritableBody WritableInDictionary body) {n : Nat} (opens : Opens rest)
    (fits : (spell layout (bodyTokens layout body ++ rest)).length ≤ n) :
    ∃ forms, definitionForm (nested n)
        (spell layout (.word "dictionary" :: (bodyTokens layout body ++ rest))) =
      some (.dictionary body.name body.parent forms, spell layout rest) ∧
        forms.map DictionaryMember.lower = body.members := by
  have word := writable.name.word
  obtain ⟨forms, read, lowered⟩ :=
    body_reads (fun m member => dictionaryMember_statement layout (writable.members m member) n)
      (dictionaryMember_end n) _ (opens_mark .semicolon rest) (fits_members fits)
  have inherited := inheritance_reads layout writable.parent body.members (.mark .semicolon :: rest)
  rw [bodyTokens_append]
  refine ⟨forms, ?_, lowered⟩
  simp [definitionForm, firstOf_cons_apply, callbackForm, callbackInterfaceForm, interfaceForm,
    mixinForm, namespaceForm, dictionaryForm, closed, keyword_word, word, inherited, read, opens,
    -optional_apply]

/-- The words that definitions with members, callbacks and parts of definitions begin with. -/
def bodyWords : List String :=
  ["callback", "interface", "namespace", "dictionary", "partial"]

/-- Without such a word only the last kinds of definition are left. -/
theorem definitionForm_bodiless (level : Nested) {s : List Char}
    (absent : ∀ w ∈ bodyWords, keyword w s = none) :
    definitionForm level s =
      firstOf [enumerationForm, typedefForm level, includesForm, implementsForm] s := by
  simp only [bodyWords, List.forall_mem_cons] at absent
  simp [definitionForm, firstOf_cons_apply, callbackForm, callbackInterfaceForm, interfaceForm,
    mixinForm, namespaceForm, dictionaryForm, partialInterfaceForm, partialMixinForm,
    partialDictionaryForm, partialNamespaceForm, closed, absent]

theorem keyword_bodyWords {w : String} (word : isWord w = true) (other : w ∉ bodyWords) :
    ∀ k ∈ bodyWords, keyword k (spell layout (.word w :: ts)) = none := by
  intro k member
  have isWord_k : isWord k = true := by
    fin_cases member <;> simp
  refine keyword_other isWord_k word ?_
  rintro rfl
  exact other member

theorem includesForm_reads (layout : Layout) (level : Nested) {target included : String}
    (isTarget : IsIdentifier target) (isIncluded : IsIdentifier included) (opens : Opens rest) :
    definitionForm level (spell layout (.word target :: .word "includes" :: .word included ::
        .mark .semicolon :: rest)) =
      some (.includes target included, spell layout rest) := by
  have keywords : ∀ w ∈ bodyWords, w ∈ reserved := by decide
  have other : target ∉ bodyWords := fun member => isTarget.free (keywords target member)
  have notEnum : target ≠ "enum" := isTarget.ne (by decide)
  have notTypedef : target ≠ "typedef" := isTarget.ne (by decide)
  rw [definitionForm_bodiless level (keyword_bodyWords isTarget.word other)]
  simp [firstOf_cons_apply, enumerationForm, typedefForm, includesForm, closed, keyword_word, notEnum,
    notTypedef, isTarget.word, isIncluded.word, opens]

theorem value_reads (layout : Layout) {value : String} (plain : '\"' ∉ value.toList) (n : Nat) :
    ReadsItem layout Closes n stringLiteral id (fun value => [.literal value]) value := by
  intro rest closes _
  exact ⟨value, by simp [plain, closes.opens], rfl⟩

theorem enumerationForm_reads (layout : Layout) (level : Nested) {name : String} {values : List String}
    (isIdentifier : IsIdentifier name) (nonempty : values ≠ [])
    (plain : ∀ value ∈ values, '\"' ∉ value.toList) (opens : Opens rest) :
    definitionForm level (spell layout (.word "enum" :: .word name :: .mark .openBrace ::
        (separated (.mark .comma) (fun value => [.literal value]) values ++
          .mark .closeBrace :: .mark .semicolon :: rest))) =
      some (.enumeration name values, spell layout rest) := by
  obtain ⟨first, others, rfl⟩ := List.exists_cons_of_ne_nil nonempty
  have closing : Closes (.mark .closeBrace :: .mark .semicolon :: rest) := trivial
  have last : symbol "," (spell layout (.mark .closeBrace :: .mark .semicolon :: rest)) = none := by
    simp
  obtain ⟨forms, read, lowered⟩ := sepBy1_separated separates_comma (fun _ => trivial)
    (fun value member => value_reads layout (plain value member) _)
    (fun _ _ _ => trivial) closing last (Nat.le_refl _)
  have inside : Opens (separated (.mark .comma) (fun value => [.literal value]) (first :: others) ++
      .mark .closeBrace :: .mark .semicolon :: rest) :=
    trivial
  rw [List.map_id] at lowered
  rw [definitionForm_bodiless level (keyword_bodyWords (by simp) (by decide))]
  simp [firstOf_cons_apply, enumerationForm, enumValues, braced, closed, keyword_word,
    isIdentifier.word, inside, read, lowered, opens]

theorem callbackForm_reads (layout : Layout) {name : String} {arguments : List Idl.Argument}
    {returns : IdlType} (isIdentifier : IsIdentifier name)
    (writable : ∀ argument ∈ arguments, WritableArgument argument) (returned : Returned returns)
    {n : Nat} (opens : Opens rest)
    (fits : (spell layout (typeTokens layout returns ++
      (argumentsTokens layout arguments ++ .mark .semicolon :: rest))).length ≤ n) :
    ∃ form forms, definitionForm (nested n) (spell layout (.word "callback" :: .word name ::
          .mark .equals :: (typeTokens layout returns ++
            (argumentsTokens layout arguments ++ .mark .semicolon :: rest)))) =
        some (.callback name form forms, spell layout rest) ∧
      form.lower = returns ∧ lowerArguments forms = arguments := by
  obtain ⟨form, read, lowered⟩ := return_reads layout returned n _
    (show Ends (argumentsTokens layout arguments ++ .mark .semicolon :: rest) from trivial) fits
  obtain ⟨forms, readAll, loweredAll⟩ := arguments_reads layout writable n _
    (opens_mark .semicolon rest) (fits_append fits)
  refine ⟨form, forms, ?_, lowered, loweredAll⟩
  simp [definitionForm, firstOf_cons_apply, callbackForm, closed, keyword_word, isIdentifier.word,
    opens_returnTokens returned, read, readAll, opens]

theorem typedefForm_reads (layout : Layout) {name : String} {type : IdlType}
    (isIdentifier : IsIdentifier name) (writable : Writable type) {n : Nat} (opens : Opens rest)
    (fits : (spell layout (typeTokens layout type ++ .word name ::
      .mark .semicolon :: rest)).length ≤ n) :
    ∃ form, definitionForm (nested n) (spell layout (.word "typedef" ::
          (typeTokens layout type ++ .word name :: .mark .semicolon :: rest))) =
        some (.typedef form name, spell layout rest) ∧ form.lower = type := by
  obtain ⟨form, read, lowered⟩ :=
    attributedType_reads layout writable n _ (isIdentifier.ends _) fits
  refine ⟨form, ?_, lowered⟩
  rw [definitionForm_bodiless (nested n) (keyword_bodyWords (by simp) (by decide))]
  simp [firstOf_cons_apply, enumerationForm, typedefForm, closed, keyword_word, isIdentifier.word,
    opens_typeTokens layout writable, read, opens]

/-- Every definition that can be written is read back. -/
theorem definition_reads (layout : Layout) {d : Idl.Definition} (writable : WritableDefinition d)
    (n : Nat) :
    ReadsItem layout Opens n (definition (nested n)) DefinitionForm.lower (definitionTokens layout)
      d := by
  intro rest opens fits
  -- Definitions with members may have attributes in front, the others are bare.
  match d with
  | .interface body =>
    rw [definitionTokens, List.append_assoc, List.cons_append] at fits ⊢
    obtain ⟨forms, read, members⟩ := interfaceForm_reads layout writable opens
      (fits_cons (fits_append fits))
    obtain ⟨found, readAll, attributes⟩ := annotated_reads writable.attributes (by simp) fits read
    exact ⟨_, readAll, by simp [DefinitionForm.lower, members, attributes]⟩
  | .mixin body =>
    rw [definitionTokens, List.append_assoc, List.cons_append, List.cons_append] at fits ⊢
    obtain ⟨forms, read, members⟩ := mixinForm_reads layout writable.1 writable.2 opens
      (fits_cons (fits_cons (fits_append fits)))
    obtain ⟨found, readAll, attributes⟩ := annotated_reads writable.1.attributes (by simp) fits read
    exact ⟨_, readAll, by simp [DefinitionForm.lower, members, attributes, ← writable.2]⟩
  | .dictionary body =>
    rw [definitionTokens, List.append_assoc, List.cons_append] at fits ⊢
    obtain ⟨forms, read, members⟩ := dictionaryForm_reads layout writable opens
      (fits_cons (fits_append fits))
    obtain ⟨found, readAll, attributes⟩ := annotated_reads writable.attributes (by simp) fits read
    exact ⟨_, readAll, by simp [DefinitionForm.lower, members, attributes]⟩
  | .includes target included =>
    have read := includesForm_reads layout (nested n) writable.1 writable.2 opens
    exact ⟨_, annotated_bare (by simp [writable.1.word]) read n, rfl⟩
  | .enumeration name values =>
    have text : definitionTokens layout (.enumeration name values) ++ rest = .word "enum" ::
        .word name :: .mark .openBrace :: (separated (.mark .comma) (fun value => [.literal value])
          values ++ .mark .closeBrace :: .mark .semicolon :: rest) := by
      simp [definitionTokens]
    rw [text]
    have read := enumerationForm_reads layout (nested n) writable.1 writable.2.1 writable.2.2 opens
    exact ⟨_, annotated_bare (by simp) read n, rfl⟩
  | .callback name arguments returns =>
    have text : definitionTokens layout (.callback name arguments returns) ++ rest =
        .word "callback" :: .word name :: .mark .equals :: (typeTokens layout returns ++
          (argumentsTokens layout arguments ++ .mark .semicolon :: rest)) := by
      simp [definitionTokens]
    rw [text] at fits ⊢
    obtain ⟨form, forms, read, lowered, loweredAll⟩ :=
      callbackForm_reads layout writable.1 writable.2.1 writable.2.2 opens
        (fits_cons (fits_cons (fits_cons fits)))
    exact ⟨_, annotated_bare (by simp) read n, by simp [DefinitionForm.lower, lowered, loweredAll]⟩
  | .typedef name type =>
    have text : definitionTokens layout (.typedef name type) ++ rest =
        .word "typedef" :: (typeTokens layout type ++ .word name :: .mark .semicolon :: rest) := by
      simp [definitionTokens]
    rw [text] at fits ⊢
    obtain ⟨form, read, lowered⟩ := typedefForm_reads layout writable.1 writable.2 opens
      (fits_cons fits)
    exact ⟨_, annotated_bare (by simp) read n, by simp [DefinitionForm.lower, lowered]⟩

theorem opens_attributesTokens (attributes : List Idl.ExtendedAttribute) {w : String}
    (word : isWord w = true) (ts : List Token) :
    Opens (attributesTokens attributes ++ .word w :: ts) := by
  cases attributes with
  | nil => exact word
  | cons _ _ => trivial

theorem opens_definitionTokens {d : Idl.Definition} (writable : WritableDefinition d)
    (ts : List Token) : Opens (definitionTokens layout d ++ ts) := by
  match d with
  | .interface body | .mixin body | .dictionary body =>
    rw [definitionTokens, List.append_assoc]
    exact opens_attributesTokens body.attributes (by simp) _
  | .includes _ _ => exact writable.1.word
  | .enumeration _ _ | .callback _ _ _ | .typedef _ _ => simp [definitionTokens]

theorem definitionTokens_closed {d : Idl.Definition} (writable : WritableDefinition d) :
    (definitionTokens layout d).getLast? = some (.mark .semicolon) := by
  match d with
  | .interface _ | .mixin _ | .dictionary _ | .includes _ _ | .enumeration _ _ | .callback _ _ _
  | .typedef _ _ => simp [definitionTokens, bodyTokens, List.getLast?_cons]

theorem definition_statement (layout : Layout) {d : Idl.Definition} (writable : WritableDefinition d)
    (n : Nat) :
    ReadsStatement layout n (definition (nested n)) DefinitionForm.lower (definitionTokens layout)
      d where
  reads := definition_reads layout writable n
  opens := opens_definitionTokens writable
  closed := definitionTokens_closed writable

theorem definition_end (layout : Layout) (n : Nat) :
    definition (nested n) (spell layout []) = none := by
  have bare : (nested n).attributes (spell layout []) = none := attributes_none (by simp) n
  have noForm : definitionForm (nested n) (spell layout []) = none := by
    rw [definitionForm_bodiless (nested n) (by simp [bodyWords])]
    simp [firstOf_cons_apply, firstOf_nil_apply, enumerationForm, typedefForm, includesForm,
      implementsForm, closed]
  simp [definition, annotated, bare, noForm]

/-! ## Documents -/

theorem getLast?_documentTokens (layout : Layout) {ds : List Idl.Definition}
    (writable : ∀ d ∈ ds, WritableDefinition d) (nonempty : ds ≠ []) :
    (documentTokens layout ds).getLast? = some (.mark .semicolon) := by
  obtain ⟨others, d, rfl⟩ := List.eq_nil_or_concat ds |>.resolve_left nonempty
  simp [documentTokens, List.getLast?_append, definitionTokens_closed (writable d (by simp))]

/-- White space around a document is taken off, and nothing else. -/
theorem trim_document (layout : Layout) {ds : List Idl.Definition}
    (writable : ∀ d ∈ ds, WritableDefinition d) {before after : List Char}
    (leading : ∀ c ∈ before, Text.isSpace c = true) (trailing : ∀ c ∈ after, Text.isSpace c = true) :
    Text.trim (before ++ (spell layout (documentTokens layout ds) ++ after)) =
      spell layout (documentTokens layout ds) := by
  -- A document begins with a token and ends in a semicolon, and neither is white space.
  refine trim_around leading trailing ?_ ?_
  · intro c head
    have opens : Opens (documentTokens layout ds ++ []) :=
      opens_statements (fun d member => opens_definitionTokens (writable d member)) opens_nil
    rw [List.append_nil] at opens
    have solid := spell_solid opens c head
    simp only [isSolid, Bool.and_eq_true, Bool.not_eq_true'] at solid
    exact solid.1
  · intro c final
    cases ds with
    | nil => simp [documentTokens, spell] at final
    | cons d ds =>
      obtain ⟨ts, tokens⟩ := List.getLast?_eq_some_iff.mp
        (getLast?_documentTokens layout writable (by simp))
      rw [tokens, getLast?_spell] at final
      obtain rfl : ';' = c := by simpa using final
      decide

/-- Definitions that can be written are read back from their text, however its tokens are laid
    out. -/
theorem document_round_trip (layout : Layout) {ds : List Idl.Definition}
    (writable : ∀ d ∈ ds, WritableDefinition d) {before after : List Char}
    (leading : ∀ c ∈ before, Text.isSpace c = true) (trailing : ∀ c ∈ after, Text.isSpace c = true) :
    read (before ++ (spell layout (documentTokens layout ds) ++ after)) = .ok ds := by
  -- There are more levels than the text has characters, so no type nests too deep to be read.
  obtain ⟨forms, read, lowered⟩ := many_statements
    (fun d member => definition_statement layout (writable d member)
      ((spell layout (documentTokens layout ds)).length + 1))
    opens_nil (definition_end layout _) (by rw [List.append_nil]; exact Nat.le_succ _)
  rw [List.append_nil, ← documentTokens] at read
  have found : definitions (spell layout (documentTokens layout ds)) = (forms, []) := by
    rw [definitions, read]
    rfl
  rw [Grammar.read, parse, trim_document layout writable leading trailing, found]
  exact congrArg Except.ok lowered

/-- A mixin that many kinds of definition and member have to be ruled out for. -/
def exposedMixin : Idl.Definition :=
  .mixin ⟨"interfaces", none,
    [.attribute "mixins" (.union [.named "unsigned long long",
        .generic "record" [.named "USVString", .generic "Promise" [.named "void"]]]) false,
      .operation (some "longs") [⟨"anything", .named "any", true⟩] (.named "void")],
    [⟨"Exposed", some (.identifierList ["Window", "Worker"])⟩]⟩

theorem document_round_trip_mixin :
    WritableDefinition exposedMixin ∧
      read ("[ Exposed = ( Window , Worker ) ] interface mixin interfaces \x7b " ++
        "attribute ( unsigned long long or record < USVString , Promise < undefined > > ) mixins ; " ++
        "undefined longs ( optional any anything ) ; \x7d ;\n").toList = .ok [exposedMixin] := by
  have known : ∀ name ∈ ["interfaces", "mixins", "longs", "anything", "Exposed", "Window", "Worker"],
      isWord name = true ∧ name ∉ reserved := by
    decide +kernel
  have isIdentifier : ∀ name ∈ ["interfaces", "mixins", "longs", "anything", "Exposed", "Window",
      "Worker"], IsIdentifier name :=
    fun name member => ⟨(known name member).1, (known name member).2⟩
  have writable : WritableDefinition exposedMixin := by
    refine ⟨⟨isIdentifier _ (by simp), by simp, ?_, ?_⟩, rfl⟩
    · refine List.forall_mem_singleton.mpr ⟨isIdentifier _ (by simp), by simp, ?_⟩
      intro name member
      exact isIdentifier name (by simp only [List.mem_cons] at member ⊢; tauto)
    · have attributed : WritableInMixin (.attribute "mixins" (.union [.named "unsigned long long",
          .generic "record" [.named "USVString", .generic "Promise" [.named "void"]]]) false) := by
        refine ⟨isIdentifier _ (by simp), .union (by simp) (by simp) ?_⟩
        exact List.forall_mem_cons.mpr ⟨.integer ⟨true, .longLong⟩,
          List.forall_mem_singleton.mpr (.record (.inl (by decide)) .promiseVoid)⟩
      have operation : WritableInMixin (.operation (some "longs") [⟨"anything", .named "any", true⟩]
          (.named "void")) :=
        ⟨isIdentifier _ (by simp), List.forall_mem_singleton.mpr ⟨isIdentifier _ (by simp), .any⟩,
          .inl rfl⟩
      exact List.forall_mem_cons.mpr ⟨attributed, List.forall_mem_singleton.mpr operation⟩
  have text : spell .spaced (documentTokens .spaced [exposedMixin]) ++ ['\n'] =
      ("[ Exposed = ( Window , Worker ) ] interface mixin interfaces \x7b " ++
        "attribute ( unsigned long long or record < USVString , Promise < undefined > > ) mixins ; " ++
        "undefined longs ( optional any anything ) ; \x7d ;\n").toList := by
    decide +kernel
  have newLine : Text.isSpace '\n' = true := by decide
  have read := document_round_trip .spaced (List.forall_mem_singleton.mpr writable)
    (List.forall_mem_nil _) (List.forall_mem_singleton.mpr newLine)
  rw [List.nil_append, text] at read
  exact ⟨writable, read⟩

end IdlTypings.Grammar
