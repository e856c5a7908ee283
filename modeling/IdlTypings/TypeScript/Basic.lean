/-!
# TypeScript declarations

The part of TypeScript's declaration files that interface definitions need: interfaces, type
aliases and ambient variables, the signatures in an interface, and types.
-/

namespace IdlTypings.TypeScript

/-- The type names that are told apart from references. -/
inductive Keyword where
  | number
  | string
  | void
  | unknown
  deriving Repr, BEq, DecidableEq, Inhabited

def Keyword.spelling : Keyword → String
  | .number => "number"
  | .string => "string"
  | .void => "void"
  | .unknown => "unknown"

def Keyword.ofSpelling? (word : String) : Option Keyword :=
  if word = "number" then some .number
  else if word = "string" then some .string
  else if word = "void" then some .void
  else if word = "unknown" then some .unknown
  else none

mutual

/-- A type. -/
inductive TypeExpr where
  | keyword (word : Keyword)
  /-- A name, perhaps with type arguments. -/
  | reference (name : String) (arguments : List TypeExpr)
  | union (members : List TypeExpr)
  | literal (text : String)
  | function (parameters : List Parameter) (returns : TypeExpr)

/-- A parameter of a function, a method or a constructor. -/
inductive Parameter where
  | mk (name : String) (optional : Bool) (type : TypeExpr)

end

instance : Inhabited TypeExpr :=
  ⟨.keyword .unknown⟩

/-- A type by its name alone. -/
def TypeExpr.named (name : String) : TypeExpr :=
  .reference name []

/-- A type that an interface extends. -/
structure Reference where
  name : String
  arguments : List TypeExpr

/-- A member of an interface. -/
inductive Signature where
  | property (name : String) (readonly optional : Bool) (type : TypeExpr)
  | method (name : String) (parameters : List Parameter) (returns : TypeExpr)
  | construct (parameters : List Parameter)

/-- A statement of a declaration file. -/
inductive Declaration where
  | interface (name : String) (heritage : List Reference) (members : List Signature)
  | alias (name : String) (type : TypeExpr)
  | variable (name : String) (type : TypeExpr) (declare : Bool)

def Declaration.name : Declaration → String
  | .interface name _ _ | .alias name _ | .variable name _ _ => name

end IdlTypings.TypeScript
