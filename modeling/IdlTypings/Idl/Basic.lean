/-!
# The IDL tree

What a document says, without the details of how it was written.  Interfaces, mixins and
dictionaries share one shape, `Interface`.  What the tree has no place for is kept as an
`Unsupported` node with the kind and the source text of the form.
-/

namespace IdlTypings.Idl

/-- A type. -/
inductive IdlType where
  /-- A built-in type or a name that the document defines. -/
  | named (name : String)
  /-- A name with type arguments. -/
  | generic (name : String) (arguments : List IdlType)
  /-- Alternatives. -/
  | union (members : List IdlType)
  /-- A type that has no other place in the tree. -/
  | unrecognized (source : String)
  deriving Repr, BEq, Inhabited

/-- A form that has no other place in the tree. -/
structure Unsupported where
  kind : String
  name : Option String
  source : String
  deriving Repr, BEq, DecidableEq, Inhabited

/-- An argument of an operation, a constructor or a callback. -/
structure Argument where
  name : String
  type : IdlType
  optional : Bool
  deriving Repr, BEq, Inhabited

/-- A member of an interface, a mixin or a dictionary. -/
inductive Member where
  | attribute (name : String) (type : IdlType) (readonly : Bool)
  | operation (name : Option String) (arguments : List Argument) (returns : IdlType)
  | constructor (arguments : List Argument)
  | field (name : String) (type : IdlType) (required : Bool)
  | const (name : String) (type : IdlType)
  | iterable (types : List IdlType)
  | unsupported (node : Unsupported)
  deriving Repr, BEq, Inhabited

/-- The value of an extended attribute. -/
inductive AttributeValue where
  | identifier (name : String)
  | string (text : String)
  | identifierList (names : List String)
  deriving Repr, BEq, DecidableEq, Inhabited

/-- The single word that an extended attribute is set to, if it is not a list. -/
def AttributeValue.single? : AttributeValue → Option String
  | .identifier name => some name
  | .string text => some text
  | .identifierList _ => none

/-- An extended attribute: a name and perhaps a value. -/
structure ExtendedAttribute where
  name : String
  value : Option AttributeValue
  deriving Repr, BEq, DecidableEq, Inhabited

/-- An interface, a mixin or a dictionary. -/
structure Interface where
  name : String
  parent : Option String
  members : List Member
  attributes : List ExtendedAttribute
  deriving Repr, BEq, Inhabited

/-- One definition of a document. -/
inductive Definition where
  | interface (body : Interface)
  | mixin (body : Interface)
  | dictionary (body : Interface)
  | includes (target mixin : String)
  | enumeration (name : String) (values : List String)
  | callback (name : String) (arguments : List Argument) (returns : IdlType)
  | typedef (name : String) (type : IdlType)
  | unsupported (node : Unsupported)
  deriving Repr, BEq, Inhabited

/-- The name that a definition is about; what includes a mixin is about its target. -/
def Definition.name? : Definition → Option String
  | .interface body | .mixin body | .dictionary body => some body.name
  | .includes target _ => some target
  | .enumeration name _ | .callback name _ _ | .typedef name _ => some name
  | .unsupported node => node.name

end IdlTypings.Idl
