import IdlTypings.Grammar.Type
import IdlTypings.Text.Space

/-!
# The grammar of members, definitions and documents

* `interfaceMember`, `mixinMember`, `namespaceMember` and `dictionaryMember` read one member;
* `definition` reads one statement under its extended attributes;
* `parse` reads a whole document: all definitions in a row, after white space is trimmed from
  the two ends of the text.

Where a document does not parse, `excerpt` is the piece of the remaining text that is shown.
-/

namespace IdlTypings.Grammar

open IdlTypings.Parser

variable {α : Type}

/-! ## Members -/

/-- A form under optional extended attributes. -/
def annotated (level : Nested) (form : Parser α) : Parser (Annotated α) := do
  let attributes ← optional level.attributes
  return ⟨attributes, ← form⟩

/-- The closing semicolon after a form. -/
def closed (form : Parser α) : Parser α := do
  let x ← form
  symbol ";"
  return x

/-- Two types between angle brackets. -/
def typePair (level : Nested) : Parser (AttributedType × AttributedType) :=
  angled (do
    let key ← attributedType level
    symbol ","
    return (key, ← attributedType level))

/-- The parts of a constant after its attributes. -/
def constant : Parser (ConstType × String × ConstValue) := do
  keyword "const"
  let type ← constType
  let name ← identifier
  symbol "="
  return (type, name, ← constValue)

/-- What may stand before an attribute. -/
def attributeModifier : Parser AttributeModifier :=
  (do keyword "stringifier"; return .stringifier) <|>
  (do keyword "inherit"; return .inherit) <|>
  (do keyword "static"; return .static)

/-- What may stand before an operation. -/
def operationModifier : Parser OperationModifier :=
  (do keyword "stringifier"; return .stringifier) <|>
  (do keyword "static"; return .static)

def special : Parser Special :=
  (do keyword "getter"; return .getter) <|>
  (do keyword "setter"; return .setter) <|>
  (do keyword "deleter"; return .deleter) <|>
  (do keyword "legacycaller"; return .legacyCaller)

def asyncIterable : Parser Unit := do
  keyword "async"
  keyword "iterable"

/-! ### Members of interfaces -/

def constMember : Parser InterfaceMember :=
  closed do
    let (type, name, value) ← constant
    return .const type name value

def attributeMember (level : Nested) : Parser InterfaceMember :=
  closed do
    let modifier ← optional attributeModifier
    let readonly ← present (keyword "readonly")
    keyword "attribute"
    let type ← attributedType level
    return .attribute modifier readonly type (← identifier)

def constructorMember (level : Nested) : Parser InterfaceMember :=
  closed do
    keyword "constructor"
    return .constructor (← arguments level)

def operationMember (level : Nested) : Parser InterfaceMember :=
  closed do
    let modifier ← optional operationModifier
    let mark ← optional special
    let returns ← returnForm level.type
    let name ← optional identifier
    return .operation modifier mark returns name (← arguments level)

def iterableMember (level : Nested) : Parser InterfaceMember :=
  closed do
    keyword "iterable"
    return .iterable (← angled (attributedType level))

def iterablePairMember (level : Nested) : Parser InterfaceMember :=
  closed do
    keyword "iterable"
    let (key, value) ← typePair level
    return .iterablePair key value

def asyncIterableMember (level : Nested) : Parser InterfaceMember :=
  closed do
    asyncIterable
    let element ← angled (attributedType level)
    return .asyncIterable element (← optional (arguments level))

def asyncIterablePairMember (level : Nested) : Parser InterfaceMember :=
  closed do
    asyncIterable
    let (key, value) ← typePair level
    return .asyncIterablePair key value (← optional (arguments level))

def maplikeMember (level : Nested) : Parser InterfaceMember :=
  closed do
    let readonly ← present (keyword "readonly")
    keyword "maplike"
    let (key, value) ← typePair level
    return .maplike readonly key value

def setlikeMember (level : Nested) : Parser InterfaceMember :=
  closed do
    let readonly ← present (keyword "readonly")
    keyword "setlike"
    return .setlike readonly (← angled (attributedType level))

def stringifierMember : Parser InterfaceMember :=
  closed do
    keyword "stringifier"
    return .stringifier

/-- A member of an interface, after its attributes.  A member is read to its semicolon before
    another kind is ruled out, so every branch is `closed`. -/
def interfaceMember (level : Nested) : Parser InterfaceMember :=
  firstOf
    [constMember, attributeMember level, constructorMember level, operationMember level,
      iterableMember level, iterablePairMember level, asyncIterableMember level,
      asyncIterablePairMember level, maplikeMember level, setlikeMember level, stringifierMember]

/-! ### Members of mixins, namespaces and dictionaries -/

def mixinConst : Parser MixinMember :=
  closed do
    let (type, name, value) ← constant
    return .const type name value

def mixinOperation (level : Nested) : Parser MixinMember :=
  closed do
    let stringifier ← present (keyword "stringifier")
    let returns ← returnForm level.type
    let name ← optional identifier
    return .operation stringifier returns name (← arguments level)

def mixinAttribute (level : Nested) : Parser MixinMember :=
  closed do
    let stringifier ← present (keyword "stringifier")
    let readonly ← present (keyword "readonly")
    keyword "attribute"
    let type ← attributedType level
    return .attribute stringifier readonly type (← identifier)

def mixinStringifier : Parser MixinMember :=
  closed do
    keyword "stringifier"
    return .stringifier

/-- A member of an interface mixin, after its attributes. -/
def mixinMember (level : Nested) : Parser MixinMember :=
  firstOf [mixinConst, mixinOperation level, mixinAttribute level, mixinStringifier]

def namespaceOperation (level : Nested) : Parser NamespaceMember :=
  closed do
    let returns ← returnForm level.type
    let name ← optional identifier
    return .operation returns name (← arguments level)

def namespaceAttribute (level : Nested) : Parser NamespaceMember :=
  closed do
    keyword "readonly"
    keyword "attribute"
    let type ← attributedType level
    return .attribute type (← identifier)

/-- A member of a namespace, after its attributes. -/
def namespaceMember (level : Nested) : Parser NamespaceMember :=
  firstOf [namespaceOperation level, namespaceAttribute level]

/-- A field of a dictionary, after its attributes. -/
def dictionaryMember (level : Nested) : Parser DictionaryMember :=
  closed (do
    let required ← present (keyword "required")
    let type ← level.type
    let name ← identifier
    return ⟨required, type, name, ← optional default⟩)

/-- Annotated members between curly brackets. -/
def body (level : Nested) (member : Parser α) : Parser (List (Annotated α)) :=
  braced (many (annotated level member))

/-! ## Definitions -/

/-- `: Parent`. -/
def inheritance : Parser String := do
  symbol ":"
  identifier

/-- The values of an enumeration; a comma may follow the last one. -/
def enumValues : Parser (List String) :=
  braced (do
    let values ← sepBy1 stringLiteral (symbol ",")
    let _ ← present (symbol ",")
    return values)

def callbackForm (level : Nested) : Parser DefinitionForm :=
  closed do
    keyword "callback"
    let name ← identifier
    symbol "="
    let returns ← returnForm level.type
    return .callback name returns (← arguments level)

def callbackInterfaceForm (level : Nested) : Parser DefinitionForm :=
  closed do
    keyword "callback"
    keyword "interface"
    let name ← identifier
    let parent ← optional inheritance
    return .callbackInterface name parent (← body level (interfaceMember level))

def interfaceForm (level : Nested) : Parser DefinitionForm :=
  closed do
    keyword "interface"
    let name ← identifier
    let parent ← optional inheritance
    return .interface name parent (← body level (interfaceMember level))

def mixinForm (level : Nested) : Parser DefinitionForm :=
  closed do
    keyword "interface"
    keyword "mixin"
    let name ← identifier
    return .mixin name (← body level (mixinMember level))

def namespaceForm (level : Nested) : Parser DefinitionForm :=
  closed do
    keyword "namespace"
    let name ← identifier
    return .namespaceOf name (← body level (namespaceMember level))

def dictionaryForm (level : Nested) : Parser DefinitionForm :=
  closed do
    keyword "dictionary"
    let name ← identifier
    let parent ← optional inheritance
    return .dictionary name parent (← body level (dictionaryMember level))

def partialInterfaceForm (level : Nested) : Parser DefinitionForm :=
  closed do
    keyword "partial"
    keyword "interface"
    let name ← identifier
    return .partialInterface name (← body level (interfaceMember level))

def partialMixinForm (level : Nested) : Parser DefinitionForm :=
  closed do
    keyword "partial"
    keyword "interface"
    keyword "mixin"
    let name ← identifier
    return .partialMixin name (← body level (mixinMember level))

def partialDictionaryForm (level : Nested) : Parser DefinitionForm :=
  closed do
    keyword "partial"
    keyword "dictionary"
    let name ← identifier
    return .partialDictionary name (← body level (dictionaryMember level))

def partialNamespaceForm (level : Nested) : Parser DefinitionForm :=
  closed do
    keyword "partial"
    keyword "namespace"
    let name ← identifier
    return .partialNamespace name (← body level (namespaceMember level))

def enumerationForm : Parser DefinitionForm :=
  closed do
    keyword "enum"
    let name ← identifier
    return .enumeration name (← enumValues)

def typedefForm (level : Nested) : Parser DefinitionForm :=
  closed do
    keyword "typedef"
    let type ← attributedType level
    return .typedef type (← identifier)

def includesForm : Parser DefinitionForm :=
  closed do
    let target ← identifier
    keyword "includes"
    return .includes target (← identifier)

def implementsForm : Parser DefinitionForm :=
  closed do
    let child ← identifier
    keyword "implements"
    return .implements child (← identifier)

/-- One statement, after its attributes. -/
def definitionForm (level : Nested) : Parser DefinitionForm :=
  firstOf
    [callbackForm level, callbackInterfaceForm level, interfaceForm level, mixinForm level,
      namespaceForm level, dictionaryForm level, partialInterfaceForm level,
      partialMixinForm level, partialDictionaryForm level, partialNamespaceForm level,
      enumerationForm, typedefForm level, includesForm, implementsForm]

def definition (level : Nested) : Parser (Annotated DefinitionForm) :=
  annotated level (definitionForm level)

/-! ## Documents -/

/-- The definitions at the start of a text, and the text after the last of them. -/
def definitions (s : List Char) : List (Annotated DefinitionForm) × List Char :=
  ((many (definition (nested (s.length + 1)))) s).getD ([], s)

/-- At most so many characters of a text are shown whole. -/
def excerptLimit : Nat := 60

/-- The first line of a text, without the white space around it, shortened when it is long. -/
def excerpt (s : List Char) : List Char :=
  let line := Text.trimEnd (Text.firstLine (Text.trimStart s))
  if line.length > excerptLimit then line.take excerptLimit ++ "...".toList else line

/-- Where a document does not parse: the text that no definition begins. -/
structure ParseError where
  rest : List Char

/-- The message for a document that does not parse. -/
def ParseError.message (e : ParseError) : String :=
  "parse error: unexpected input at `" ++ String.ofList (excerpt e.rest) ++ "`"

/-- All the definitions of a document. -/
def parse (text : List Char) : Except ParseError (List (Annotated DefinitionForm)) :=
  match definitions (Text.trim text) with
  | (forms, []) => .ok forms
  | (_, rest) => .error ⟨rest⟩

end IdlTypings.Grammar
