import IdlTypings.Grammar.Form
import IdlTypings.Text.Printable

/-!
# The source text of a form

A form that has no place in the IDL tree is reported by its source text: one line that names
every production with its parts, in the order of the grammar.

* `record`, `variant`, `list` and `option` are the layouts;
* `TypeForm.source`, `InterfaceMember.source`, `NamespaceMember.source` and
  `DefinitionForm.source` write the forms.

Only what can occur in a reported form is written here: definitions of callback interfaces,
namespaces and `implements` statements, members of interfaces, and all they contain.
-/

namespace IdlTypings.Grammar

/-! ## Layouts -/

/-- A production with named parts. -/
def record (name : String) (parts : List (String × String)) : String :=
  name ++ " \x7b " ++ ", ".intercalate (parts.map fun p => p.1 ++ ": " ++ p.2) ++ " \x7d"

/-- A choice with what was chosen. -/
def variant (name body : String) : String :=
  name ++ "(" ++ body ++ ")"

/-- Any number of parts. -/
def list (parts : List String) : String :=
  "[" ++ ", ".intercalate parts ++ "]"

/-- A part that may be missing. -/
def option (part : Option String) : String :=
  match part with
  | none => "None"
  | some body => variant "Some" body

/-- A mark that may be missing. -/
def mark (name : String) (there : Bool) : String :=
  option (if there then some name else none)

def identifierSource (name : String) : String :=
  variant "Identifier" (Text.quoted name)

/-- A name that may be missing. -/
def identifierSource? (name : Option String) : String :=
  option (name.map identifierSource)

def stringSource (text : String) : String :=
  variant "StringLit" (Text.quoted text)

def capitalized (word : String) : String :=
  match word.toList with
  | [] => ""
  | c :: cs => String.ofList (c.toUpper :: cs)

/-- A part that a `?` may follow. -/
def maybeNull (body : String) (nullable : Bool) : String :=
  record "MayBeNull" [("type_", body), ("q_mark", mark "QMark" nullable)]

def parenthesizedSource (body : String) : String :=
  record "Parenthesized" [("open_paren", "OpenParen"), ("body", body), ("close_paren", "CloseParen")]

def bracketedSource (body : String) : String :=
  record "Bracketed"
    [("open_bracket", "OpenBracket"), ("body", body), ("close_bracket", "CloseBracket")]

def bracedSource (body : String) : String :=
  record "Braced" [("open_brace", "OpenBrace"), ("body", body), ("close_brace", "CloseBrace")]

def angledSource (body : String) : String :=
  record "Generics" [("open_angle", "LessThan"), ("body", body), ("close_angle", "GreaterThan")]

def punctuated (parts : List String) (separator : String) : String :=
  record "Punctuated" [("list", list parts), ("separator", separator)]

def pairSource (left right : String) : String :=
  "(" ++ left ++ ", Comma, " ++ right ++ ")"

/-! ## Literals -/

def booleanSource (b : Bool) : String :=
  variant "BooleanLit" (if b then "true" else "false")

def FloatLiteral.source : FloatLiteral → String
  | .value text => variant "Value" (variant "FloatValueLit" (Text.quoted text))
  | .negInfinity => variant "NegInfinity" "NegInfinity"
  | .infinity => variant "Infinity" "Infinity"
  | .nan => variant "NaN" "NaN"

def IntegerLiteral.source : IntegerLiteral → String
  | .dec text => variant "Dec" (variant "DecLit" (Text.quoted text))
  | .hex text => variant "Hex" (variant "HexLit" (Text.quoted text))
  | .oct text => variant "Oct" (variant "OctLit" (Text.quoted text))

def ConstValue.source : ConstValue → String
  | .boolean b => variant "Boolean" (booleanSource b)
  | .float x => variant "Float" x.source
  | .integer n => variant "Integer" n.source
  | .null => variant "Null" "Null"

def DefaultValue.source : DefaultValue → String
  | .boolean b => variant "Boolean" (booleanSource b)
  | .emptyArray =>
    variant "EmptyArray"
      (record "EmptyArrayLit" [("open_bracket", "OpenBracket"), ("close_bracket", "CloseBracket")])
  | .emptyDictionary =>
    variant "EmptyDictionary"
      (record "EmptyDictionaryLit" [("open_brace", "OpenBrace"), ("close_brace", "CloseBrace")])
  | .float x => variant "Float" x.source
  | .integer n => variant "Integer" n.source
  | .null => variant "Null" "Null"
  | .string text => variant "String" (stringSource text)

/-- The source text of `= value`, where it stands. -/
def defaultSource (value : Option DefaultValue) : String :=
  option (value.map fun v => record "Default" [("assign", "Assign"), ("value", v.source)])

/-! ## Types, extended attributes and arguments -/

def IntegerType.source (t : IntegerType) : String :=
  let unsigned := ("unsigned", mark "Unsigned" t.unsigned)
  match t.size with
  | .longLong => variant "LongLong" (record "LongLongType" [unsigned, ("long_long", "(Long, Long)")])
  | .long => variant "Long" (record "LongType" [unsigned, ("long", "Long")])
  | .short => variant "Short" (record "ShortType" [unsigned, ("short", "Short")])

def FloatType.source (t : FloatType) : String :=
  let unrestricted := ("unrestricted", mark "Unrestricted" t.unrestricted)
  match t.size with
  | .float => variant "Float" (record "FloatType" [unrestricted, ("float", "Float")])
  | .double => variant "Double" (record "DoubleType" [unrestricted, ("double", "Double")])

mutual

def TypeForm.source : TypeForm → String
  | .any => variant "Single" (variant "Any" "Any")
  | .single type => variant "Single" (variant "NonAny" type.source)
  | .union members nullable =>
    variant "Union"
      (maybeNull (parenthesizedSource (punctuated (unionMembersSource members) "Or")) nullable)

def NonAnyType.source : NonAnyType → String
  | .promise result =>
    variant "Promise"
      (record "PromiseType" [("promise", "Promise"), ("generics", angledSource result.source)])
  | .integer type nullable => variant "Integer" (maybeNull type.source nullable)
  | .float type nullable => variant "FloatingPoint" (maybeNull type.source nullable)
  | .builtIn type nullable =>
    let word := capitalized type.spelling
    variant word (maybeNull word nullable)
  | .sequence element nullable =>
    variant "Sequence" (maybeNull
      (record "SequenceType" [("sequence", "Sequence"), ("generics", angledSource element.source)])
      nullable)
  | .frozenArray element nullable =>
    variant "FrozenArrayType" (maybeNull
      (record "FrozenArrayType"
        [("frozen_array", "FrozenArray"), ("generics", angledSource element.source)])
      nullable)
  | .record key value nullable =>
    variant "RecordType" (maybeNull
      (Grammar.record "RecordType"
        [("record", "Record"), ("generics", angledSource (pairSource key.source value.source))])
      nullable)
  | .identifier name nullable => variant "Identifier" (maybeNull (identifierSource name) nullable)

def ReturnForm.source : ReturnForm → String
  | .undefined => variant "Undefined" "Undefined"
  | .type type => variant "Type" type.source

def RecordKey.source : RecordKey → String
  | .byteString => variant "Byte" "ByteString"
  | .domString => variant "DOM" "DOMString"
  | .usvString => variant "USV" "USVString"
  | .nonAny type => variant "NonAny" type.source

def UnionMember.source : UnionMember → String
  | .single attributes type =>
    variant "Single" (record "AttributedNonAnyType"
      [("attributes", attributesSource attributes), ("type_", type.source)])
  | .union members nullable =>
    variant "Union"
      (maybeNull (parenthesizedSource (punctuated (unionMembersSource members) "Or")) nullable)

def unionMembersSource : List UnionMember → List String
  | [] => []
  | head :: members => head.source :: unionMembersSource members

def AttributedType.source : AttributedType → String
  | .mk attributes type =>
    record "AttributedType" [("attributes", attributesSource attributes), ("type_", type.source)]

def ExtendedAttribute.source : ExtendedAttribute → String
  | .argumentList name arguments =>
    variant "ArgList" (record "ExtendedAttributeArgList"
      [("identifier", identifierSource name),
        ("args", parenthesizedSource (punctuated (argumentSources arguments) "Comma"))])
  | .namedArgumentList name callee arguments =>
    variant "NamedArgList" (record "ExtendedAttributeNamedArgList"
      [("lhs_identifier", identifierSource name), ("assign", "Assign"),
        ("rhs_identifier", identifierSource callee),
        ("args", parenthesizedSource (punctuated (argumentSources arguments) "Comma"))])
  | .identifierList name identifiers =>
    variant "IdentList" (record "ExtendedAttributeIdentList"
      [("identifier", identifierSource name), ("assign", "Assign"),
        ("list", parenthesizedSource (punctuated (identifiers.map identifierSource) "Comma"))])
  | .identifier name value =>
    variant "Ident" (record "ExtendedAttributeIdent"
      [("lhs_identifier", identifierSource name), ("assign", "Assign"),
        ("rhs", variant "Identifier" (identifierSource value))])
  | .string name value =>
    variant "Ident" (record "ExtendedAttributeIdent"
      [("lhs_identifier", identifierSource name), ("assign", "Assign"),
        ("rhs", variant "String" (stringSource value))])
  | .noArguments name => variant "NoArgs" (variant "ExtendedAttributeNoArgs" (identifierSource name))

/-- The source text of a list of extended attributes, where one stands. -/
def attributesSource : Option (List ExtendedAttribute) → String
  | none => option none
  | some attributes =>
    option (some (bracketedSource (punctuated (attributeSources attributes) "Comma")))

def attributeSources : List ExtendedAttribute → List String
  | [] => []
  | head :: attributes => head.source :: attributeSources attributes

def Argument.source : Argument → String
  | .single attributes optional type name value =>
    variant "Single" (record "SingleArgument"
      [("attributes", attributesSource attributes), ("optional", mark "Optional" optional),
        ("type_", type.source), ("identifier", identifierSource name),
        ("default", defaultSource value)])
  | .variadic attributes type name =>
    variant "Variadic" (record "VariadicArgument"
      [("attributes", attributesSource attributes), ("type_", type.source),
        ("ellipsis", "Ellipsis"), ("identifier", identifierSource name)])

def argumentSources : List Argument → List String
  | [] => []
  | head :: arguments => head.source :: argumentSources arguments

end

def argumentsSource (arguments : List Argument) : String :=
  parenthesizedSource (punctuated (argumentSources arguments) "Comma")

def ConstType.source : ConstType → String
  | .integer type nullable => variant "Integer" (maybeNull type.source nullable)
  | .float type nullable => variant "FloatingPoint" (maybeNull type.source nullable)
  | .boolean nullable => variant "Boolean" (maybeNull "Boolean" nullable)
  | .byte nullable => variant "Byte" (maybeNull "Byte" nullable)
  | .octet nullable => variant "Octet" (maybeNull "Octet" nullable)
  | .identifier name nullable => variant "Identifier" (maybeNull (identifierSource name) nullable)

/-! ## Members -/

def AttributeModifier.source : AttributeModifier → String
  | .stringifier => variant "Stringifier" "Stringifier"
  | .inherit => variant "Inherit" "Inherit"
  | .static => variant "Static" "Static"

def OperationModifier.source : OperationModifier → String
  | .stringifier => variant "Stringifier" "Stringifier"
  | .static => variant "Static" "Static"

def Special.source : Special → String
  | .getter => variant "Getter" "Getter"
  | .setter => variant "Setter" "Setter"
  | .deleter => variant "Deleter" "Deleter"
  | .legacyCaller => variant "LegacyCaller" "LegacyCaller"

def typePairSource (key value : AttributedType) : String :=
  angledSource (pairSource key.source value.source)

/-- A statement: its attributes, its parts and the semicolon. -/
def statement (name : String) (attributes : Option (List ExtendedAttribute))
    (parts : List (String × String)) : String :=
  record name
    (("attributes", attributesSource attributes) :: parts ++ [("semi_colon", "SemiColon")])

def InterfaceMember.source (member : Annotated InterfaceMember) : String :=
  let statement name parts := statement name member.attributes parts
  match member.form with
  | .const type name value =>
    variant "Const" (statement "ConstMember"
      [("const_", "Const"), ("const_type", type.source), ("identifier", identifierSource name),
        ("assign", "Assign"), ("const_value", value.source)])
  | .attribute modifier readonly type name =>
    variant "Attribute" (statement "AttributeInterfaceMember"
      [("modifier", option (modifier.map AttributeModifier.source)),
        ("readonly", mark "ReadOnly" readonly), ("attribute", "Attribute"),
        ("type_", type.source), ("identifier", identifierSource name)])
  | .constructor arguments =>
    variant "Constructor" (statement "ConstructorInterfaceMember"
      [("constructor", "Constructor"), ("args", argumentsSource arguments)])
  | .operation modifier special returns name arguments =>
    variant "Operation" (statement "OperationInterfaceMember"
      [("modifier", option (modifier.map OperationModifier.source)),
        ("special", option (special.map Special.source)), ("return_type", returns.source),
        ("identifier", identifierSource? name), ("args", argumentsSource arguments)])
  | .iterable element =>
    variant "Iterable" (variant "Single" (statement "SingleTypedIterable"
      [("iterable", "Iterable"), ("generics", angledSource element.source)]))
  | .iterablePair key value =>
    variant "Iterable" (variant "Double" (statement "DoubleTypedIterable"
      [("iterable", "Iterable"), ("generics", typePairSource key value)]))
  | .asyncIterable element arguments =>
    variant "AsyncIterable" (variant "Single" (statement "SingleTypedAsyncIterable"
      [("async_iterable", "(Async, Iterable)"), ("generics", angledSource element.source),
        ("args", option (arguments.map argumentsSource))]))
  | .asyncIterablePair key value arguments =>
    variant "AsyncIterable" (variant "Double" (statement "DoubleTypedAsyncIterable"
      [("async_iterable", "(Async, Iterable)"), ("generics", typePairSource key value),
        ("args", option (arguments.map argumentsSource))]))
  | .maplike readonly key value =>
    variant "Maplike" (statement "MaplikeInterfaceMember"
      [("readonly", mark "ReadOnly" readonly), ("maplike", "Maplike"),
        ("generics", typePairSource key value)])
  | .setlike readonly element =>
    variant "Setlike" (statement "SetlikeInterfaceMember"
      [("readonly", mark "ReadOnly" readonly), ("setlike", "Setlike"),
        ("generics", angledSource element.source)])
  | .stringifier =>
    variant "Stringifier" (statement "StringifierMember" [("stringifier", "Stringifier")])

def NamespaceMember.source (member : Annotated NamespaceMember) : String :=
  match member.form with
  | .operation returns name arguments =>
    variant "Operation" (statement "OperationNamespaceMember" member.attributes
      [("return_type", returns.source), ("identifier", identifierSource? name),
        ("args", argumentsSource arguments)])
  | .attribute type name =>
    variant "Attribute" (statement "AttributeNamespaceMember" member.attributes
      [("readonly", "ReadOnly"), ("attribute", "Attribute"), ("type_", type.source),
        ("identifier", identifierSource name)])

def bodySource {α : Type} (source : Annotated α → String) (members : List (Annotated α)) :
    String :=
  bracedSource (list (members.map source))

/-! ## Definitions -/

def callbackInterfaceSource (attributes : Option (List ExtendedAttribute)) (name : String)
    (parent : Option String) (members : List (Annotated InterfaceMember)) : String :=
  variant "CallbackInterface" (statement "CallbackInterfaceDefinition" attributes
    [("callback", "Callback"), ("interface", "Interface"), ("identifier", identifierSource name),
      ("inheritance", option (parent.map fun p =>
        record "Inheritance" [("colon", "Colon"), ("identifier", identifierSource p)])),
      ("members", bodySource InterfaceMember.source members)])

def namespaceSource (attributes : Option (List ExtendedAttribute)) (name : String)
    (members : List (Annotated NamespaceMember)) : String :=
  variant "Namespace" (statement "NamespaceDefinition" attributes
    [("namespace", "Namespace"), ("identifier", identifierSource name),
      ("members", bodySource NamespaceMember.source members)])

def partialNamespaceSource (attributes : Option (List ExtendedAttribute)) (name : String)
    (members : List (Annotated NamespaceMember)) : String :=
  variant "PartialNamespace" (statement "PartialNamespaceDefinition" attributes
    [("partial", "Partial"), ("namespace", "Namespace"), ("identifier", identifierSource name),
      ("members", bodySource NamespaceMember.source members)])

def implementsSource (attributes : Option (List ExtendedAttribute)) (child parent : String) :
    String :=
  variant "Implements" (statement "ImplementsDefinition" attributes
    [("lhs_identifier", identifierSource child), ("includes", "Implements"),
      ("rhs_identifier", identifierSource parent)])

end IdlTypings.Grammar
