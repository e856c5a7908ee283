import Mathlib
import IdlTypings.Proofs.Reports

/-! # What is left out is reported

A definition, a member or a type that has no declaration is reported once, at its place.

* `IdlType.nodes` lists all the types in a type, `Member.declaredTypes` the types of a member that
  are declared, in the order of the declaration.
* `Definition.omissions` lists what is left out of a definition.  It looks at the definition alone
  and makes no declarations.
* `diagnostics_eq_omissions`: the reports of a document are those of its omissions, in order.
-/

namespace IdlTypings

open Idl TypeScript Reported

/-! ## Nodes without a declaration -/

/-- A node that is left out of the declarations. -/
inductive Omission where
  | definition (node : Definition)
  | member (node : Member)
  | type (node : IdlType)

/-- What is said of a member that is left out. -/
def Idl.Member.complaint : Member → String
  | .operation none _ _ => "Unsupported IDL member: operation without a name"
  | _ => "Unsupported IDL member"

/-- The report of a node that is left out, with the text of that node. -/
def Omission.diagnostic : Omission → Diagnostic
  | .definition node => ⟨.definition, "Unsupported IDL type", node.toJson.pretty⟩
  | .member node => ⟨.member, node.complaint, node.toJson.pretty⟩
  | .type node => ⟨.type, "Unsupported IDL type", node.toJson.pretty⟩

mutual

/-- A type and all the types in it, from left to right. -/
def Idl.IdlType.nodes : IdlType → List IdlType
  | .named name => [.named name]
  | .generic name arguments => .generic name arguments :: nodesOfTypes arguments
  | .union members => .union members :: nodesOfTypes members
  | .unrecognized source => [.unrecognized source]

def nodesOfTypes : List IdlType → List IdlType
  | [] => []
  | type :: types => type.nodes ++ nodesOfTypes types

end

/-- Whether a type has no other place in the tree. -/
def Idl.IdlType.isUnrecognized : IdlType → Bool
  | .unrecognized _ => true
  | _ => false

def typeOmissions (types : List IdlType) : List Omission :=
  ((nodesOfTypes types).filter IdlType.isUnrecognized).map .type

/-- Whether a member is left out as a whole. -/
def Idl.Member.isOmitted : Member → Bool
  | .operation none _ _ | .unsupported _ => true
  | _ => false

/-- The types of a member that are declared.  A constructor gives nothing, so the type that an
    operation named like its owner gives is not among them. -/
def Idl.Member.declaredTypes (owner : String) : Member → List IdlType
  | .attribute _ type _ | .field _ type _ | .const _ type => [type]
  | .operation (some name) arguments returns =>
    arguments.map Argument.type ++ if name = owner then [] else [returns]
  | .constructor arguments => arguments.map Argument.type
  | .iterable types => types
  | .operation none _ _ | .unsupported _ => []

/-- What is left out of a member of the interface with the given name. -/
def Idl.Member.omissions (owner : String) (member : Member) : List Omission :=
  if member.isOmitted then [.member member] else typeOmissions (member.declaredTypes owner)

/-- What is left out of a definition. -/
def Idl.Definition.omissions : Definition → List Omission
  | .interface body | .mixin body | .dictionary body =>
    body.members.flatMap (Member.omissions body.name)
  | .callback _ arguments returns => typeOmissions (arguments.map Argument.type ++ [returns])
  | .typedef _ type => typeOmissions [type]
  | .includes _ _ | .enumeration _ _ => []
  | .unsupported node => [.definition (.unsupported node)]

/-! ## Types -/

theorem nodesOfTypes_append (types others : List IdlType) :
    nodesOfTypes (types ++ others) = nodesOfTypes types ++ nodesOfTypes others := by
  induction types with
  | nil => rfl
  | cons type types ih => rw [List.cons_append, nodesOfTypes, ih, nodesOfTypes, List.append_assoc]

@[simp] theorem typeOmissions_nil : typeOmissions [] = [] := rfl

theorem typeOmissions_append (types others : List IdlType) :
    typeOmissions (types ++ others) = typeOmissions types ++ typeOmissions others := by
  rw [typeOmissions, nodesOfTypes_append, List.filter_append, List.map_append]
  rfl

mutual

/-- Declaring a type reports the unrecognized types in it. -/
theorem diagnostics_declareType (type : IdlType) :
    (declareType type).diagnostics = (typeOmissions [type]).map Omission.diagnostic := by
  match type with
  | .named name =>
    rw [declareType]
    split <;> rfl
  | .generic name arguments =>
    have inside := diagnostics_types arguments
    simp [declareType, inside, typeOmissions, nodesOfTypes, IdlType.nodes,
      IdlType.isUnrecognized]
  | .union members =>
    have inside := diagnostics_types members
    simp [declareType, inside, typeOmissions, nodesOfTypes, IdlType.nodes,
      IdlType.isUnrecognized]
  | .unrecognized source => rfl

theorem diagnostics_types (types : List IdlType) :
    (types.flatMap fun type => (declareType type).diagnostics) =
      (typeOmissions types).map Omission.diagnostic := by
  match types with
  | [] => rfl
  | type :: types =>
    have first := diagnostics_declareType type
    have others := diagnostics_types types
    rw [List.flatMap_cons, first, others, ← List.map_append, ← typeOmissions_append]
    rfl

end

theorem diagnostics_declareArguments (arguments : List Idl.Argument) :
    (declareArguments arguments).diagnostics =
      (typeOmissions (arguments.map Argument.type)).map Omission.diagnostic := by
  rw [← diagnostics_types, List.flatMap_map]
  simp [declareArguments, declareArgument]

/-! ## Members and definitions -/

/-- One member reports its own omissions. -/
theorem diagnostics_declareMember (accessors : Bool) (owner : String) (member : Member) :
    (declareMember accessors owner member).diagnostics =
      (member.omissions owner).map Omission.diagnostic := by
  match member with
  | .attribute _ type _ | .field _ type _ | .const _ type =>
    have inside := diagnostics_declareType type
    simpa [declareMember, Member.omissions, Member.isOmitted, Member.declaredTypes] using inside
  | .operation none _ _ | .unsupported _ => rfl
  | .operation (some name) arguments returns =>
    have parameters := diagnostics_declareArguments arguments
    have result := diagnostics_declareType returns
    -- A constructor has no type that it returns, so nothing is reported about one.
    by_cases constructs : name = owner
    · simp [declareMember, Member.omissions, Member.isOmitted, Member.declaredTypes, constructs,
        parameters]
    · simp [declareMember, Member.omissions, Member.isOmitted, Member.declaredTypes, constructs,
        parameters, result, typeOmissions_append]
  | .constructor arguments =>
    have parameters := diagnostics_declareArguments arguments
    simpa [declareMember, Member.omissions, Member.isOmitted, Member.declaredTypes] using parameters
  | .iterable types =>
    have inside := diagnostics_types types
    simpa [declareMember, Member.omissions, Member.isOmitted, Member.declaredTypes] using inside

theorem diagnostics_declareDefinition (accessors : Bool) (d : Definition) :
    (declareDefinition accessors d).diagnostics = d.omissions.map Omission.diagnostic := by
  match d with
  | .interface body | .mixin body | .dictionary body =>
    have members := declareInterface_diagnostics accessors body
    simp only [diagnostics_declareMember] at members
    rw [← List.map_flatMap] at members
    exact members
  | .includes _ _ | .enumeration _ _ | .unsupported _ => rfl
  | .callback _ arguments returns =>
    have parameters := diagnostics_declareArguments arguments
    have result := diagnostics_declareType returns
    simp [declareDefinition, Definition.omissions, parameters, result, typeOmissions_append]
  | .typedef _ type =>
    have inside := diagnostics_declareType type
    simpa [declareDefinition, Definition.omissions] using inside

/-- The reports of a document are those of what is left out of it, one for each, in the order of the
    document.  The settings have no part in it. -/
theorem diagnostics_eq_omissions (options : Options) (ds : List Definition) :
    (declare options ds).diagnostics = (ds.flatMap Definition.omissions).map Omission.diagnostic := by
  rw [declare, declareAll_diagnostics, List.map_flatMap]
  simp only [diagnostics_declareDefinition]

end IdlTypings
