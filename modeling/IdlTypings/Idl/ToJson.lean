import IdlTypings.Idl.Basic
import IdlTypings.Json.Basic

/-!
# The JSON form of the IDL tree

Definitions, members and types are objects whose first entry, `kind`, tells which they are; their
parts follow in a fixed order.  A missing name, parent or value is left out, as is an empty list
of extended attributes.

An `Unsupported` node has a part of its own called `kind`, so its object holds that key twice.
-/

namespace IdlTypings.Idl

/-- An object that tells its kind first. -/
def tagged (kind : String) (entries : List (String × Json)) : Json :=
  .object (("kind", .string kind) :: entries)

/-- An entry that is left out when there is no value. -/
def ifPresent (key : String) (value : Option Json) : List (String × Json) :=
  (value.map fun v => (key, v)).toList

mutual

def IdlType.toJson : IdlType → Json
  | .named name => tagged "named" [("name", .string name)]
  | .generic name arguments =>
    tagged "generic" [("name", .string name), ("arguments", .array (typesToJson arguments))]
  | .union members => tagged "union" [("members", .array (typesToJson members))]
  | .unrecognized source => tagged "unrecognized" [("source", .string source)]

def typesToJson : List IdlType → List Json
  | [] => []
  | type :: types => type.toJson :: typesToJson types

end

def Unsupported.entries (node : Unsupported) : List (String × Json) :=
  ("kind", .string node.kind) :: ifPresent "name" (node.name.map .string) ++
    [("source", .string node.source)]

def Argument.toJson (argument : Argument) : Json :=
  .object [("name", .string argument.name), ("idl_type", argument.type.toJson),
    ("optional", .bool argument.optional)]

def argumentsToJson (arguments : List Argument) : Json :=
  .array (arguments.map Argument.toJson)

def Member.toJson : Member → Json
  | .attribute name type readonly =>
    tagged "attribute"
      [("name", .string name), ("idl_type", type.toJson), ("readonly", .bool readonly)]
  | .operation name arguments returns =>
    tagged "operation" (ifPresent "name" (name.map .string) ++
      [("arguments", argumentsToJson arguments), ("return_type", returns.toJson)])
  | .constructor arguments => tagged "constructor" [("arguments", argumentsToJson arguments)]
  | .field name type required =>
    tagged "field"
      [("name", .string name), ("idl_type", type.toJson), ("required", .bool required)]
  | .const name type => tagged "const" [("name", .string name), ("idl_type", type.toJson)]
  | .iterable types => tagged "iterable" [("idl_types", .array (types.map IdlType.toJson))]
  | .unsupported node => tagged "unsupported" node.entries

/-- The JSON form of the value of an extended attribute: its kind and what it holds. -/
def AttributeValue.toJson : AttributeValue → Json
  | .identifier name => tagged "identifier" [("value", .string name)]
  | .string text => tagged "string" [("value", .string text)]
  | .identifierList names => tagged "identifier-list" [("value", .array (names.map .string))]

def ExtendedAttribute.toJson (attr : ExtendedAttribute) : Json :=
  .object (("name", .string attr.name) :: ifPresent "rhs" (attr.value.map AttributeValue.toJson))

/-- The parts of an interface, a mixin or a dictionary. -/
def Interface.entries (body : Interface) : List (String × Json) :=
  ("name", .string body.name) :: ifPresent "inheritance" (body.parent.map .string) ++
    ("members", .array (body.members.map Member.toJson)) ::
      ifPresent "ext_attrs" (if body.attributes.isEmpty then none
        else some (.array (body.attributes.map ExtendedAttribute.toJson)))

def Definition.toJson : Definition → Json
  | .interface body => tagged "interface" body.entries
  | .mixin body => tagged "interface-mixin" body.entries
  | .dictionary body => tagged "dictionary" body.entries
  | .includes target included =>
    tagged "includes" [("target", .string target), ("includes", .string included)]
  | .enumeration name values =>
    tagged "enum" [("name", .string name), ("values", .array (values.map .string))]
  | .callback name arguments returns =>
    tagged "callback" [("name", .string name), ("arguments", argumentsToJson arguments),
      ("return_type", returns.toJson)]
  | .typedef name type => tagged "typedef" [("name", .string name), ("idl_type", type.toJson)]
  | .unsupported node => tagged "unsupported" node.entries

def treeText (definitions : List Definition) : String :=
  (Json.array (definitions.map Definition.toJson)).pretty

end IdlTypings.Idl
