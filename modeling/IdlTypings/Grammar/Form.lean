/-!
# Forms of WebIDL

A form is a piece of WebIDL as it was written: every choice the grammar makes is kept, blanks and
comments are not.  Forms are what the grammar reads; `Idl.Definition` is what the rest of the
library works on.

* types, extended attributes and arguments contain one another: `TypeForm`, `NonAnyType`,
  `ReturnForm`, `RecordKey`, `UnionMember`, `AttributedType`, `ExtendedAttribute`, `Argument`;
* members of interfaces, mixins, namespaces and dictionaries;
* `DefinitionForm`, one statement of a document.
-/

namespace IdlTypings.Grammar

/-! ## Literals -/

/-- A floating-point literal; a number is kept as it was written. -/
inductive FloatLiteral where
  | value (text : String)
  | negInfinity
  | infinity
  | nan

/-- An integer literal, kept as it was written. -/
inductive IntegerLiteral where
  | dec (text : String)
  | hex (text : String)
  | oct (text : String)

/-- The value of a constant. -/
inductive ConstValue where
  | boolean (b : Bool)
  | float (x : FloatLiteral)
  | integer (n : IntegerLiteral)
  | null

/-- The default of an argument or of a dictionary field. -/
inductive DefaultValue where
  | boolean (b : Bool)
  | emptyArray
  | emptyDictionary
  | float (x : FloatLiteral)
  | integer (n : IntegerLiteral)
  | null
  | string (text : String)

/-! ## Types, extended attributes and arguments -/

/-- The sizes of integer types. -/
inductive IntegerSize where
  | longLong
  | long
  | short

/-- `unsigned long long` and its relatives. -/
structure IntegerType where
  unsigned : Bool
  size : IntegerSize

/-- The sizes of floating-point types. -/
inductive FloatSize where
  | float
  | double

/-- `unrestricted double` and its relatives. -/
structure FloatType where
  unrestricted : Bool
  size : FloatSize

/-- Types that are written as one keyword. -/
inductive BuiltIn where
  | boolean
  | byte
  | octet
  | byteString
  | domString
  | usvString
  | object
  | symbol
  | error
  | arrayBuffer
  | dataView
  | int8Array
  | int16Array
  | int32Array
  | uint8Array
  | uint16Array
  | uint32Array
  | uint8ClampedArray
  | float32Array
  | float64Array
  | arrayBufferView
  | bufferSource

def BuiltIn.spelling : BuiltIn → String
  | .boolean => "boolean"
  | .byte => "byte"
  | .octet => "octet"
  | .byteString => "ByteString"
  | .domString => "DOMString"
  | .usvString => "USVString"
  | .object => "object"
  | .symbol => "symbol"
  | .error => "Error"
  | .arrayBuffer => "ArrayBuffer"
  | .dataView => "DataView"
  | .int8Array => "Int8Array"
  | .int16Array => "Int16Array"
  | .int32Array => "Int32Array"
  | .uint8Array => "Uint8Array"
  | .uint16Array => "Uint16Array"
  | .uint32Array => "Uint32Array"
  | .uint8ClampedArray => "Uint8ClampedArray"
  | .float32Array => "Float32Array"
  | .float64Array => "Float64Array"
  | .arrayBufferView => "ArrayBufferView"
  | .bufferSource => "BufferSource"

mutual

/-- A type. -/
inductive TypeForm where
  | any
  | single (type : NonAnyType)
  | union (members : List UnionMember) (nullable : Bool)

/-- A type other than `any` and unions; `nullable` tells whether a `?` follows. -/
inductive NonAnyType where
  | promise (result : ReturnForm)
  | integer (type : IntegerType) (nullable : Bool)
  | float (type : FloatType) (nullable : Bool)
  | builtIn (type : BuiltIn) (nullable : Bool)
  | sequence (element : TypeForm) (nullable : Bool)
  | frozenArray (element : TypeForm) (nullable : Bool)
  | record (key : RecordKey) (value : TypeForm) (nullable : Bool)
  | identifier (name : String) (nullable : Bool)

/-- What an operation or a promise gives. -/
inductive ReturnForm where
  | undefined
  | type (type : TypeForm)

/-- The key type of a record. -/
inductive RecordKey where
  | byteString
  | domString
  | usvString
  | nonAny (type : NonAnyType)

/-- One alternative of a union. -/
inductive UnionMember where
  | single (attributes : Option (List ExtendedAttribute)) (type : NonAnyType)
  | union (members : List UnionMember) (nullable : Bool)

/-- A type with extended attributes of its own. -/
inductive AttributedType where
  | mk (attributes : Option (List ExtendedAttribute)) (type : TypeForm)

/-- One extended attribute. -/
inductive ExtendedAttribute where
  | argumentList (name : String) (arguments : List Argument)
  | namedArgumentList (name : String) (callee : String) (arguments : List Argument)
  | identifierList (name : String) (identifiers : List String)
  | identifier (name : String) (value : String)
  | string (name : String) (value : String)
  | noArguments (name : String)

/-- An argument of an operation, a constructor, a callback or an extended attribute. -/
inductive Argument where
  | single (attributes : Option (List ExtendedAttribute)) (optional : Bool)
      (type : AttributedType) (name : String) (value : Option DefaultValue)
  | variadic (attributes : Option (List ExtendedAttribute)) (type : TypeForm) (name : String)

end

/-- The type of a constant. -/
inductive ConstType where
  | integer (type : IntegerType) (nullable : Bool)
  | float (type : FloatType) (nullable : Bool)
  | boolean (nullable : Bool)
  | byte (nullable : Bool)
  | octet (nullable : Bool)
  | identifier (name : String) (nullable : Bool)

/-! ## Members -/

/-- A form under its extended attributes.  No list and an empty list are told apart. -/
structure Annotated (α : Type) where
  attributes : Option (List ExtendedAttribute)
  form : α

/-- What may stand before an attribute. -/
inductive AttributeModifier where
  | stringifier
  | inherit
  | static

/-- What may stand before an operation. -/
inductive OperationModifier where
  | stringifier
  | static

/-- The special operations. -/
inductive Special where
  | getter
  | setter
  | deleter
  | legacyCaller

/-- A member of an interface or of a callback interface. -/
inductive InterfaceMember where
  | const (type : ConstType) (name : String) (value : ConstValue)
  | attribute (modifier : Option AttributeModifier) (readonly : Bool) (type : AttributedType)
      (name : String)
  | constructor (arguments : List Argument)
  | operation (modifier : Option OperationModifier) (special : Option Special)
      (returns : ReturnForm) (name : Option String) (arguments : List Argument)
  | iterable (element : AttributedType)
  | iterablePair (key value : AttributedType)
  | asyncIterable (element : AttributedType) (arguments : Option (List Argument))
  | asyncIterablePair (key value : AttributedType) (arguments : Option (List Argument))
  | maplike (readonly : Bool) (key value : AttributedType)
  | setlike (readonly : Bool) (element : AttributedType)
  | stringifier

/-- A member of an interface mixin. -/
inductive MixinMember where
  | const (type : ConstType) (name : String) (value : ConstValue)
  | operation (stringifier : Bool) (returns : ReturnForm) (name : Option String)
      (arguments : List Argument)
  | attribute (stringifier readonly : Bool) (type : AttributedType) (name : String)
  | stringifier

/-- A member of a namespace; its attributes are always read-only. -/
inductive NamespaceMember where
  | operation (returns : ReturnForm) (name : Option String) (arguments : List Argument)
  | attribute (type : AttributedType) (name : String)

/-- A field of a dictionary. -/
structure DictionaryMember where
  required : Bool
  type : TypeForm
  name : String
  value : Option DefaultValue

/-! ## Definitions -/

/-- One statement of a document. -/
inductive DefinitionForm where
  | callback (name : String) (returns : ReturnForm) (arguments : List Argument)
  | callbackInterface (name : String) (parent : Option String)
      (members : List (Annotated InterfaceMember))
  | interface (name : String) (parent : Option String) (members : List (Annotated InterfaceMember))
  | mixin (name : String) (members : List (Annotated MixinMember))
  | namespaceOf (name : String) (members : List (Annotated NamespaceMember))
  | dictionary (name : String) (parent : Option String)
      (members : List (Annotated DictionaryMember))
  | partialInterface (name : String) (members : List (Annotated InterfaceMember))
  | partialMixin (name : String) (members : List (Annotated MixinMember))
  | partialDictionary (name : String) (members : List (Annotated DictionaryMember))
  | partialNamespace (name : String) (members : List (Annotated NamespaceMember))
  | enumeration (name : String) (values : List String)
  | typedef (type : AttributedType) (name : String)
  | includes (target mixin : String)
  | implements (child parent : String)

end IdlTypings.Grammar
