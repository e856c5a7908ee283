import IdlTypings.Declare.Diagnostic
import IdlTypings.Declare.TypeNames
import IdlTypings.Idl.ToJson
import IdlTypings.TypeScript.Basic

/-!
# Declarations of definitions

`declareAll` gives the TypeScript declarations of some definitions, in order, and reports what it
leaves out.

* An interface, a mixin or a dictionary is declared as an interface; what it iterates over joins
  the list of what it extends.  If it is exposed on `Window`, a variable of the same name follows.
* An enumeration is a union of string literals, a callback a function type.
* In accessor mode every attribute becomes a getter and a setter method, a read-only one too:
  Emscripten makes both for every attribute.
* An operation that is named like its owner is a constructor.
-/

namespace IdlTypings

open Idl TypeScript Reported

/-! ## Types and parameters -/

mutual

/-- The TypeScript type of an IDL type. -/
def declareType : IdlType → Reported TypeExpr
  | .named name =>
    match Keyword.ofSpelling? (typeName name) with
    | some word => clean (.keyword word)
    | none => clean (.named (typeName name))
  | .generic name arguments => do
    return .reference (typeName name) (← declareTypes arguments)
  | .union members => do
    return .union (← declareTypes members)
  | .unrecognized source => do
    report .type "Unsupported IDL type" (IdlType.unrecognized source).toJson
    return .keyword .unknown

def declareTypes : List IdlType → Reported (List TypeExpr)
  | [] => clean []
  | type :: types => do
    let first ← declareType type
    let rest ← declareTypes types
    return first :: rest

end

def declareArgument (argument : Idl.Argument) : Reported Parameter := do
  return .mk argument.name argument.optional (← declareType argument.type)

def declareArguments (arguments : List Idl.Argument) : Reported (List Parameter) :=
  forEach declareArgument arguments

/-! ## Members -/

/-- What a member adds to an interface: signatures, or something that the interface extends. -/
structure Contribution where
  signatures : List Signature := []
  heritage : List Reference := []

def declareAttribute (accessors : Bool) (name : String) (type : TypeExpr) (readonly : Bool) :
    List Signature :=
  if accessors then
    [.method ("get_" ++ name) [] type,
      .method ("set_" ++ name) [.mk "value" false type] (.keyword .void)]
  else [.property name readonly false type]

/-- What a member adds to the interface of the given name. -/
def declareMember (accessors : Bool) (owner : String) : Member → Reported Contribution
  | .attribute name type readonly => do
    return { signatures := declareAttribute accessors name (← declareType type) readonly }
  | .operation none arguments returns => do
    report .member "Unsupported IDL member: operation without a name"
      (Member.operation none arguments returns).toJson
    return {}
  | .operation (some name) arguments returns => do
    let parameters ← declareArguments arguments
    if name = owner then
      return { signatures := [.construct parameters] }
    else
      return { signatures := [.method name parameters (← declareType returns)] }
  | .constructor arguments => do
    return { signatures := [.construct (← declareArguments arguments)] }
  | .field name type required => do
    return { signatures := [.property name false (!required) (← declareType type)] }
  | .const name type => do
    return { signatures := [.property name true false (← declareType type)] }
  | .iterable types => do
    return { heritage := [⟨"Iterable", ← declareTypes types⟩] }
  | .unsupported node => do
    report .member "Unsupported IDL member" (Member.unsupported node).toJson
    return {}

/-! ## Definitions -/

/-- Whether an interface is exposed on `Window`, and on `Window` alone, by one of its
    attributes. -/
def Idl.Interface.onWindow (body : Interface) : Bool :=
  body.attributes.any fun attr =>
    attr.name == "Exposed" && attr.value.bind AttributeValue.single? == some "Window"

/-- The declarations of an interface, a mixin or a dictionary. -/
def declareInterface (accessors : Bool) (body : Interface) : Reported (List Declaration) := do
  let parts ← forEach (declareMember accessors body.name) body.members
  let parent := (body.parent.map fun name => Reference.mk name []).toList
  let declaration : Declaration :=
    .interface body.name (parent ++ parts.flatMap Contribution.heritage)
      (parts.flatMap Contribution.signatures)
  let global : List Declaration :=
    if body.onWindow then [.variable body.name (.named body.name) true] else []
  return declaration :: global

def declareDefinition (accessors : Bool) : Definition → Reported (List Declaration)
  | .interface body | .mixin body | .dictionary body => declareInterface accessors body
  | .includes target included => clean [.interface target [⟨included, []⟩] []]
  | .enumeration name values => clean [.alias name (.union (values.map TypeExpr.literal))]
  | .callback name arguments returns => do
    let parameters ← declareArguments arguments
    return [.alias name (.function parameters (← declareType returns))]
  | .typedef name type => do
    return [.alias name (← declareType type)]
  | .unsupported node => do
    report .definition "Unsupported IDL type" (Definition.unsupported node).toJson
    return []

def declareAll (accessors : Bool) (definitions : List Definition) :
    Reported (List Declaration) := do
  let blocks ← forEach (declareDefinition accessors) definitions
  return blocks.flatten

end IdlTypings
