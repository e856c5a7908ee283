import Mathlib
import IdlTypings.TypeScript.Basic

/-! # Normal forms of TypeScript types

Two types that a reader of the printed text cannot tell apart have the same normal form:

* a union inside a union is spliced into it, and a union of one type is that type;
* a keyword is the reference of the same spelling.

`WellFormed` singles out the declarations that have a text to be read: names of the characters that
names are made of, and unions with at least one member.
-/

namespace IdlTypings.TypeScript

/-! ## Normal forms -/

/-- The alternatives that a type stands for as a member of a union. -/
def TypeExpr.alternatives : TypeExpr → List TypeExpr
  | .union members => members
  | type => [type]

/-- The union of some alternatives; a single one stands for itself. -/
def unionOf : List TypeExpr → TypeExpr
  | [type] => type
  | types => .union types

mutual

/-- The normal form of a type. -/
def TypeExpr.normalize : TypeExpr → TypeExpr
  | .keyword word => .reference word.spelling []
  | .reference name arguments => .reference name (normalizeTypes arguments)
  | .union members => unionOf (normalizeMembers members)
  | .literal text => .literal text
  | .function parameters returns => .function (normalizeParameters parameters) returns.normalize

def normalizeTypes : List TypeExpr → List TypeExpr
  | [] => []
  | type :: types => type.normalize :: normalizeTypes types

/-- The alternatives of the members of a union, in order. -/
def normalizeMembers : List TypeExpr → List TypeExpr
  | [] => []
  | type :: types => type.normalize.alternatives ++ normalizeMembers types

def Parameter.normalize : Parameter → Parameter
  | .mk name optional type => .mk name optional type.normalize

def normalizeParameters : List Parameter → List Parameter
  | [] => []
  | parameter :: parameters => parameter.normalize :: normalizeParameters parameters

end

def Reference.normalize (reference : Reference) : Reference :=
  ⟨reference.name, normalizeTypes reference.arguments⟩

def Signature.normalize : Signature → Signature
  | .property name readonly optional type => .property name readonly optional type.normalize
  | .method name parameters returns =>
    .method name (normalizeParameters parameters) returns.normalize
  | .construct parameters => .construct (normalizeParameters parameters)

def Declaration.normalize : Declaration → Declaration
  | .interface name heritage members =>
    .interface name (heritage.map Reference.normalize) (members.map Signature.normalize)
  | .alias name type => .alias name type.normalize
  | .variable name type declare => .variable name type.normalize declare

/-! ## Well-formed declarations -/

/-- A character that names are made of. -/
def isNameChar (c : Char) : Bool :=
  c.isAlphanum || c == '_' || c == '$' || c == '-'

/-- A name: one or more characters of names. -/
def IsName (name : String) : Prop :=
  name.toList ≠ [] ∧ ∀ c ∈ name.toList, isNameChar c = true

mutual

/-- Names are names and unions have members, everywhere in a type. -/
def TypeExpr.WellFormed : TypeExpr → Prop
  | .keyword _ | .literal _ => True
  | .reference name arguments => IsName name ∧ WellFormedTypes arguments
  | .union members => members ≠ [] ∧ WellFormedTypes members
  | .function parameters returns => WellFormedParameters parameters ∧ returns.WellFormed

def WellFormedTypes : List TypeExpr → Prop
  | [] => True
  | type :: types => type.WellFormed ∧ WellFormedTypes types

def Parameter.WellFormed : Parameter → Prop
  | .mk name _ type => IsName name ∧ type.WellFormed

def WellFormedParameters : List Parameter → Prop
  | [] => True
  | parameter :: parameters => parameter.WellFormed ∧ WellFormedParameters parameters

end

def Reference.WellFormed (reference : Reference) : Prop :=
  IsName reference.name ∧ WellFormedTypes reference.arguments

def Signature.WellFormed : Signature → Prop
  | .property name _ _ type => IsName name ∧ type.WellFormed
  | .method name parameters returns =>
    IsName name ∧ WellFormedParameters parameters ∧ returns.WellFormed
  | .construct parameters => WellFormedParameters parameters

def Declaration.WellFormed : Declaration → Prop
  | .interface name heritage members =>
    IsName name ∧ (∀ reference ∈ heritage, reference.WellFormed) ∧
      ∀ member ∈ members, member.WellFormed
  | .alias name type | .variable name type _ => IsName name ∧ type.WellFormed

/-! ## Alternatives -/

def TypeExpr.isUnion : TypeExpr → Bool
  | .union _ => true
  | _ => false

theorem alternatives_of_not_union {type : TypeExpr} (single : type.isUnion = false) :
    type.alternatives = [type] := by
  cases type with
  | union members => simp [TypeExpr.isUnion] at single
  | keyword _ | reference _ _ | literal _ | function _ _ => rfl

theorem alternatives_unionOf {types : List TypeExpr}
    (single : ∀ type ∈ types, type.isUnion = false) : (unionOf types).alternatives = types := by
  match types with
  | [] => rfl
  | [type] => exact alternatives_of_not_union (single type List.mem_cons_self)
  | _ :: _ :: _ => rfl

mutual

/-- The alternatives of a normal form are no unions. -/
theorem alternatives_normalize_single : ∀ type : TypeExpr,
    ∀ alternative ∈ type.normalize.alternatives, alternative.isUnion = false
  | .keyword _ | .reference _ _ | .literal _ | .function _ _ => by
    simp [TypeExpr.normalize, TypeExpr.alternatives, TypeExpr.isUnion]
  | .union members => by
    have single := normalizeMembers_single members
    rw [TypeExpr.normalize, alternatives_unionOf single]
    exact single

theorem normalizeMembers_single : ∀ members : List TypeExpr,
    ∀ alternative ∈ normalizeMembers members, alternative.isUnion = false
  | [] => by simp [normalizeMembers]
  | member :: members => by
    intro alternative found
    rw [normalizeMembers, List.mem_append] at found
    rcases found with here | later
    · exact alternatives_normalize_single member alternative here
    · exact normalizeMembers_single members alternative later

end

theorem alternatives_normalize_union (members : List TypeExpr) :
    (TypeExpr.union members).normalize.alternatives = normalizeMembers members := by
  rw [TypeExpr.normalize, alternatives_unionOf (normalizeMembers_single members)]

/-- A normal form is the union of its alternatives. -/
theorem unionOf_alternatives_normalize (type : TypeExpr) :
    unionOf type.normalize.alternatives = type.normalize := by
  cases type with
  | keyword _ | reference _ _ | literal _ | function _ _ => rfl
  | union members => rw [alternatives_normalize_union, TypeExpr.normalize]

end IdlTypings.TypeScript
