import IdlTypings.Grammar.Document
import IdlTypings.Grammar.Source
import IdlTypings.Idl.Basic

/-!
# From forms to the IDL tree

`lower` gives the definition that a form stands for, and `read` the definitions of a text.

Null marks, defaults, modifiers and the attributes of types are left out; `undefined` becomes
`void`; a part of an interface, a mixin or a dictionary becomes a definition like a whole one.
Forms that the tree has no place for become `Unsupported` nodes.
-/

namespace IdlTypings.Grammar

open Idl (IdlType)

/-! ## Types -/

def IntegerType.spelling (t : IntegerType) : String :=
  (if t.unsigned then "unsigned " else "") ++
    match t.size with
    | .longLong => "long long"
    | .long => "long"
    | .short => "short"

def FloatType.spelling (t : FloatType) : String :=
  (if t.unrestricted then "unrestricted " else "") ++
    match t.size with
    | .float => "float"
    | .double => "double"

mutual

/-- The type that a form stands for. -/
def TypeForm.lower : TypeForm → IdlType
  | .any => .named "any"
  | .single type => type.lower
  | .union members _ => .union (lowerUnionMembers members)

/-- The type that a form other than `any` and unions stands for. -/
def NonAnyType.lower : NonAnyType → IdlType
  | .promise result => .generic "Promise" [result.lower]
  | .integer type _ => .named type.spelling
  | .float type _ => .named type.spelling
  | .builtIn type _ => .named type.spelling
  | .sequence element _ => .generic "sequence" [element.lower]
  | .frozenArray element _ => .generic "FrozenArray" [element.lower]
  | .record key value _ => .generic "record" [key.lower, value.lower]
  | .identifier name _ => .named name

/-- The type that an operation or a promise gives. -/
def ReturnForm.lower : ReturnForm → IdlType
  | .undefined => .named "void"
  | .type type => type.lower

def RecordKey.lower : RecordKey → IdlType
  | .byteString => .named "ByteString"
  | .domString => .named "DOMString"
  | .usvString => .named "USVString"
  | .nonAny type => type.lower

def UnionMember.lower : UnionMember → IdlType
  | .single _ type => type.lower
  | .union members _ => .union (lowerUnionMembers members)

def lowerUnionMembers : List UnionMember → List IdlType
  | [] => []
  | head :: members => head.lower :: lowerUnionMembers members

end

/-- The type under its attributes. -/
def AttributedType.lower : AttributedType → IdlType
  | .mk _ type => type.lower

def ConstType.lower : ConstType → IdlType
  | .integer type _ => .named type.spelling
  | .float type _ => .named type.spelling
  | .boolean _ => .named "boolean"
  | .byte _ => .named "byte"
  | .octet _ => .named "octet"
  | .identifier name _ => .named name

/-! ## Extended attributes and arguments -/

/-- An extended attribute by its name and value.  Arguments are left out. -/
def ExtendedAttribute.lower : ExtendedAttribute → Idl.ExtendedAttribute
  | .argumentList name _ => ⟨name, none⟩
  | .namedArgumentList name callee _ => ⟨name, some (.identifier callee)⟩
  | .identifierList name identifiers => ⟨name, some (.identifierList identifiers)⟩
  | .identifier name value => ⟨name, some (.identifier value)⟩
  | .string name value => ⟨name, some (.string value)⟩
  | .noArguments name => ⟨name, none⟩

/-- The extended attributes of a form; none are the same as an empty list. -/
def lowerAttributes (attributes : Option (List ExtendedAttribute)) :
    List Idl.ExtendedAttribute :=
  (attributes.getD []).map ExtendedAttribute.lower

/-- An argument.  A variadic one is a plain argument of the element type. -/
def Argument.lower : Argument → Idl.Argument
  | .single _ optional type name _ => ⟨name, type.lower, optional⟩
  | .variadic _ type name => ⟨name, type.lower, false⟩

def lowerArguments (arguments : List Argument) : List Idl.Argument :=
  arguments.map Argument.lower

/-! ## Members -/

/-- A member that the tree has no place for, by its kind and its source text. -/
def unsupportedMember (kind : String) (member : Annotated InterfaceMember) : Idl.Member :=
  .unsupported ⟨kind, none, InterfaceMember.source member⟩

def InterfaceMember.lower (member : Annotated InterfaceMember) : Idl.Member :=
  match member.form with
  | .const type name _ => .const name type.lower
  | .attribute _ readonly type name => .attribute name type.lower readonly
  | .constructor arguments => .constructor (lowerArguments arguments)
  | .operation _ _ returns name arguments =>
    .operation name (lowerArguments arguments) returns.lower
  | .iterable element => .iterable [element.lower]
  | .iterablePair key value => .iterable [key.lower, value.lower]
  | .asyncIterable .. | .asyncIterablePair .. => unsupportedMember "async iterable" member
  | .maplike .. => unsupportedMember "maplike" member
  | .setlike .. => unsupportedMember "setlike" member
  | .stringifier => unsupportedMember "stringifier" member

def MixinMember.lower (member : Annotated MixinMember) : Idl.Member :=
  match member.form with
  | .const type name _ => .const name type.lower
  | .operation _ returns name arguments => .operation name (lowerArguments arguments) returns.lower
  | .attribute _ readonly type name => .attribute name type.lower readonly
  | .stringifier => unsupportedMember "stringifier" ⟨member.attributes, .stringifier⟩

def DictionaryMember.lower (member : Annotated DictionaryMember) : Idl.Member :=
  .field member.form.name member.form.type.lower member.form.required

/-! ## Definitions -/

/-- The definition that a form stands for. -/
def DefinitionForm.lower (definition : Annotated DefinitionForm) : Idl.Definition :=
  let attributes := lowerAttributes definition.attributes
  match definition.form with
  | .callback name returns arguments => .callback name (lowerArguments arguments) returns.lower
  | .callbackInterface name parent members =>
    .unsupported ⟨"callback interface", some name,
      callbackInterfaceSource definition.attributes name parent members⟩
  | .interface name parent members =>
    .interface ⟨name, parent, members.map InterfaceMember.lower, attributes⟩
  | .mixin name members => .mixin ⟨name, none, members.map MixinMember.lower, attributes⟩
  | .namespaceOf name members =>
    .unsupported ⟨"namespace", some name, namespaceSource definition.attributes name members⟩
  | .dictionary name parent members =>
    .dictionary ⟨name, parent, members.map DictionaryMember.lower, attributes⟩
  | .partialInterface name members =>
    .interface ⟨name, none, members.map InterfaceMember.lower, attributes⟩
  | .partialMixin name members => .mixin ⟨name, none, members.map MixinMember.lower, attributes⟩
  | .partialDictionary name members =>
    .dictionary ⟨name, none, members.map DictionaryMember.lower, attributes⟩
  | .partialNamespace name members =>
    .unsupported ⟨"partial namespace", none,
      partialNamespaceSource definition.attributes name members⟩
  | .enumeration name values => .enumeration name values
  | .typedef type name => .typedef name type.lower
  | .includes target included => .includes target included
  | .implements child parent =>
    .unsupported ⟨"implements", none, implementsSource definition.attributes child parent⟩

/-- The definitions of a text of plain WebIDL. -/
def read (text : List Char) : Except ParseError (List Idl.Definition) :=
  (parse text).map (·.map DefinitionForm.lower)

end IdlTypings.Grammar
