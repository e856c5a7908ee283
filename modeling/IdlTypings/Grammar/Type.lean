import IdlTypings.Grammar.Token

/-!
# The grammar of types, extended attributes and arguments

These forms contain one another, and always between brackets.  `Nested` holds the four parsers
that may be needed inside a bracket; `Nested.step` builds the parsers of one level from those of
the level below, and `nested` stacks the levels.  A text of `n` characters opens at most `n`
brackets, so level `n + 1` reads every form that such a text can hold.

The productions themselves (`nonAnyType`, `unionMember`, `argument`, `extendedAttribute`, …) are
plain parsers over the level below.
-/

namespace IdlTypings.Grammar

open IdlTypings.Parser

variable {α : Type}

/-! ## Types without brackets -/

/-- An optional `?`. -/
def nullable : Parser Bool :=
  present (symbol "?")

/-- `long long`, `long` and `short`, with or without `unsigned`. -/
def integerType : Parser IntegerType :=
  (do
    let unsigned ← present (keyword "unsigned")
    keyword "long"
    keyword "long"
    return ⟨unsigned, .longLong⟩) <|>
  (do
    let unsigned ← present (keyword "unsigned")
    keyword "long"
    return ⟨unsigned, .long⟩) <|>
  (do
    let unsigned ← present (keyword "unsigned")
    keyword "short"
    return ⟨unsigned, .short⟩)

/-- `float` and `double`, with or without `unrestricted`. -/
def floatType : Parser FloatType :=
  (do
    let unrestricted ← present (keyword "unrestricted")
    keyword "float"
    return ⟨unrestricted, .float⟩) <|>
  (do
    let unrestricted ← present (keyword "unrestricted")
    keyword "double"
    return ⟨unrestricted, .double⟩)

/-- The first of some built-in types whose keyword stands here. -/
def builtInOf : List BuiltIn → Parser NonAnyType
  | [] => failure
  | b :: bs => (do keyword b.spelling; return .builtIn b (← nullable)) <|> builtInOf bs

def constType : Parser ConstType :=
  (do return .integer (← integerType) (← nullable)) <|>
  (do return .float (← floatType) (← nullable)) <|>
  (do keyword "boolean"; return .boolean (← nullable)) <|>
  (do keyword "byte"; return .byte (← nullable)) <|>
  (do keyword "octet"; return .octet (← nullable)) <|>
  (do return .identifier (← identifier) (← nullable))

/-! ## One level of nesting -/

/-- The parsers for what may stand inside a bracket. -/
structure Nested where
  type : Parser TypeForm
  nonAny : Parser NonAnyType
  union : Parser (List UnionMember)
  attributes : Parser (List ExtendedAttribute)

/-- What an operation or a promise gives, over a parser of types. -/
def returnForm (type : Parser TypeForm) : Parser ReturnForm :=
  (do keyword "undefined"; return .undefined) <|> (do return .type (← type))

/-- The key type of a record, over a parser of types other than `any` and unions. -/
def recordKey (nonAny : Parser NonAnyType) : Parser RecordKey :=
  (do keyword "ByteString"; return .byteString) <|>
  (do keyword "DOMString"; return .domString) <|>
  (do keyword "USVString"; return .usvString) <|>
  (do return .nonAny (← nonAny))

/-- The built-in types that are tried before `sequence`. -/
def scalarBuiltIns : List BuiltIn :=
  [.boolean, .byte, .octet, .byteString, .domString, .usvString]

/-- The built-in types that are tried after `sequence`. -/
def objectBuiltIns : List BuiltIn :=
  [.object, .symbol, .error, .arrayBuffer, .dataView, .int8Array, .int16Array, .int32Array,
    .uint8Array, .uint16Array, .uint32Array, .uint8ClampedArray, .float32Array, .float64Array,
    .arrayBufferView, .bufferSource]

/-- A type other than `any` and unions.  A generic name without its `<` is an identifier. -/
def nonAnyType (inner : Nested) : Parser NonAnyType :=
  (do
    keyword "Promise"
    return .promise (← angled (returnForm inner.type))) <|>
  (do return .integer (← integerType) (← nullable)) <|>
  (do return .float (← floatType) (← nullable)) <|>
  builtInOf scalarBuiltIns <|>
  (do
    keyword "sequence"
    let element ← angled inner.type
    return .sequence element (← nullable)) <|>
  builtInOf objectBuiltIns <|>
  (do
    keyword "FrozenArray"
    let element ← angled inner.type
    return .frozenArray element (← nullable)) <|>
  (do
    keyword "record"
    let (key, value) ← angled (do
      let key ← recordKey inner.nonAny
      symbol ","
      return (key, ← inner.type))
    return .record key value (← nullable)) <|>
  (do return .identifier (← identifier) (← nullable))

def unionMember (inner : Nested) : Parser UnionMember :=
  (do
    let attributes ← optional inner.attributes
    return .single attributes (← inner.nonAny)) <|>
  (do
    let members ← inner.union
    return .union members (← nullable))

/-- The alternatives of a union between parentheses.  The grammar accepts any number of them. -/
def unionType (inner : Nested) : Parser (List UnionMember) :=
  parenthesized (sepBy (unionMember inner) (keyword "or"))

/-- A type, over parsers of the same level for its two kinds. -/
def typeForm (nonAny : Parser NonAnyType) (union : Parser (List UnionMember)) :
    Parser TypeForm :=
  (do keyword "any"; return .any) <|>
  (do return .single (← nonAny)) <|>
  (do
    let members ← union
    return .union members (← nullable))

/-- A type under its own extended attributes. -/
def attributedType (level : Nested) : Parser AttributedType := do
  let attributes ← optional level.attributes
  return .mk attributes (← level.type)

/-- `= value`. -/
def default : Parser DefaultValue := do
  symbol "="
  defaultValue

/-- An argument.  A default is looked for after `optional` only. -/
def argument (level : Nested) : Parser Argument := do
  let attributes ← optional level.attributes
  (do
    let isOptional ← present (keyword "optional")
    let type ← attributedType level
    let name ← identifier
    let value ← if isOptional then optional default else pure none
    return .single attributes isOptional type name value) <|>
  (do
    let type ← level.type
    symbol "..."
    return .variadic attributes type (← identifier))

def arguments (level : Nested) : Parser (List Argument) :=
  parenthesized (sepBy (argument level) (symbol ","))

def extendedAttribute (inner : Nested) : Parser ExtendedAttribute := do
  let name ← identifier
  (do return .argumentList name (← arguments inner)) <|>
  (do
    symbol "="
    let callee ← identifier
    return .namedArgumentList name callee (← arguments inner)) <|>
  (do
    symbol "="
    return .identifierList name (← parenthesized (sepBy identifier (symbol ",")))) <|>
  (do
    symbol "="
    return .identifier name (← identifier)) <|>
  (do
    symbol "="
    return .string name (← stringLiteral)) <|>
  pure (.noArguments name)

def extendedAttributes (inner : Nested) : Parser (List ExtendedAttribute) :=
  bracketed (sepBy (extendedAttribute inner) (symbol ","))

/-! ## All levels -/

/-- The level at which nothing can be read. -/
def Nested.empty : Nested :=
  ⟨failure, failure, failure, failure⟩

/-- The parsers of one level over those of the level below. -/
def Nested.step (inner : Nested) : Nested where
  type := typeForm (nonAnyType inner) (unionType inner)
  nonAny := nonAnyType inner
  union := unionType inner
  attributes := extendedAttributes inner

/-- The parsers for forms with fewer than `n` brackets inside one another. -/
def nested : Nat → Nested
  | 0 => .empty
  | n + 1 => (nested n).step

end IdlTypings.Grammar
