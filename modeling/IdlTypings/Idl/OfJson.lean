import IdlTypings.Idl.Basic
import IdlTypings.Json.Decode

/-!
# The IDL tree from JSON

Reads the JSON form of a tree back.  Fields that nobody asks for are passed over; a field with a
default may be left out.  An `Unsupported` node has a field with the key of the tag: in an object
that is either missing or there twice, so such a node can be read from an array only.
-/

namespace IdlTypings.Idl

open Json (Choice Decoder Fault Reader Record Variant)
open Json.Record (required optional nullable)

/-! ## Types -/

/-- The variants of a type, given a decoder of the types inside it. -/
def typeVariants (inner : Decoder IdlType) : List (Variant IdlType) :=
  [⟨"named", "struct variant Type::Named", IdlType.named <$> required "name" .string⟩,
    ⟨"generic", "struct variant Type::Generic",
      IdlType.generic <$> required "name" .string <*> required "arguments" (.list inner)⟩,
    ⟨"union", "struct variant Type::Union",
      IdlType.union <$> required "members" (.list inner)⟩,
    ⟨"unrecognized", "struct variant Type::Unrecognized",
      IdlType.unrecognized <$> required "source" .string⟩]

/-- A type that nests at most the given number of levels. -/
def typeWithin : (levels : Nat) → Decoder IdlType
  | 0, _ => .error .malformed
  | levels + 1, json => Json.tagged "Type" (typeVariants (typeWithin levels)) json

def IdlType.ofJson (json : Json) : Except Fault IdlType :=
  typeWithin (json.depth + 1) json

/-! ## Members -/

def Argument.ofJson : Decoder Argument :=
  Record.plain "struct Argument" <|
    Argument.mk <$> required "name" .string <*> required "idl_type" IdlType.ofJson
      <*> Record.optional "optional" .bool false

/-- Arguments, none of them if the field is missing. -/
def argumentsField : Record (List Argument) :=
  optional "arguments" (.list Argument.ofJson) []

/-- The fields of a form without a place in the tree. -/
def unsupportedFields : Record Unsupported :=
  Unsupported.mk <$> required "kind" .string <*> nullable "name" .string
    <*> required "source" .string

def memberVariants : List (Variant Member) :=
  [⟨"attribute", "struct Attribute",
      Member.attribute <$> required "name" .string <*> required "idl_type" IdlType.ofJson
        <*> optional "readonly" .bool false⟩,
    ⟨"operation", "struct Operation",
      Member.operation <$> nullable "name" .string <*> argumentsField
        <*> required "return_type" IdlType.ofJson⟩,
    ⟨"constructor", "struct Constructor", Member.constructor <$> argumentsField⟩,
    ⟨"field", "struct Field",
      Member.field <$> required "name" .string <*> required "idl_type" IdlType.ofJson
        <*> optional "required" .bool false⟩,
    ⟨"const", "struct Const",
      Member.const <$> required "name" .string <*> required "idl_type" IdlType.ofJson⟩,
    ⟨"iterable", "struct Iterable",
      Member.iterable <$> required "idl_types" (.list IdlType.ofJson)⟩,
    ⟨"unsupported", "struct Unsupported", Member.unsupported <$> unsupportedFields⟩]

def Member.ofJson : Decoder Member :=
  Json.tagged "Member" memberVariants

/-! ## Extended attributes -/

def attributeChoices : List (Choice AttributeValue) :=
  [⟨"identifier", fun json => .identifier <$> Decoder.string json⟩,
    ⟨"string", fun json => .string <$> Decoder.string json⟩,
    ⟨"identifier-list", fun json => .identifierList <$> Decoder.list .string json⟩]

def AttributeValue.ofJson : Decoder AttributeValue :=
  Json.tagAndValue "ExtendedAttributeValue" attributeChoices

def ExtendedAttribute.ofJson : Decoder ExtendedAttribute :=
  Record.plain "struct ExtendedAttribute" <|
    ExtendedAttribute.mk <$> required "name" .string <*> nullable "rhs" AttributeValue.ofJson

/-! ## Definitions -/

/-- The fields of an interface, a mixin or a dictionary. -/
def interfaceFields : Record Interface :=
  Interface.mk <$> required "name" .string <*> nullable "inheritance" .string
    <*> optional "members" (.list Member.ofJson) []
    <*> optional "ext_attrs" (.list ExtendedAttribute.ofJson) []

def definitionVariants : List (Variant Definition) :=
  [⟨"interface", "struct Interface", Definition.interface <$> interfaceFields⟩,
    ⟨"interface-mixin", "struct Interface", Definition.mixin <$> interfaceFields⟩,
    ⟨"dictionary", "struct Interface", Definition.dictionary <$> interfaceFields⟩,
    ⟨"includes", "struct Includes",
      Definition.includes <$> required "target" .string <*> required "includes" .string⟩,
    ⟨"enum", "struct Enum",
      Definition.enumeration <$> required "name" .string <*> required "values" (.list .string)⟩,
    ⟨"callback", "struct Callback",
      Definition.callback <$> required "name" .string <*> argumentsField
        <*> required "return_type" IdlType.ofJson⟩,
    ⟨"typedef", "struct Typedef",
      Definition.typedef <$> required "name" .string <*> required "idl_type" IdlType.ofJson⟩,
    ⟨"unsupported", "struct Unsupported", Definition.unsupported <$> unsupportedFields⟩]

/-- A definition in a text that may nest as deep as any.  The document and the definition itself
    take two of the levels. -/
def definitionReader : Reader Definition :=
  Reader.tagged "Definition" definitionVariants (Reader.maxDepth - 2)

/-- The definitions of a tree from its JSON text. -/
def readTree (text : List Char) : Except Fault (List Definition) :=
  Reader.whole (Reader.list definitionReader) text

/-- The message for a text that is not the JSON form of a tree. -/
def treeFaultMessage (fault : Fault) : String :=
  "Input is not a valid IDL syntax tree: " ++ fault.message

end IdlTypings.Idl
