import IdlTypings.Json.Basic
import IdlTypings.Text.Printable

/-!
# Faults of JSON documents

Why a text is not the JSON form of what is being read: it is not JSON at all, or a value in it has
the wrong shape.
-/

namespace IdlTypings.Json

/-- What stands where something else was expected. -/
inductive Found where
  | null
  | bool (value : Bool)
  | number (value : Number)
  | string (value : String)
  | sequence
  | map
  deriving Repr, BEq, DecidableEq, Inhabited

/-- How a message names what was found. -/
def Found.text : Found → String
  | .null => "null"
  | .bool value => "boolean `" ++ (if value then "true" else "false") ++ "`"
  | .number (.integer value) => "integer `" ++ toString value ++ "`"
  | .number (.floating text) => "floating point `" ++ text ++ "`"
  | .string value => "string " ++ Text.quoted value
  | .sequence => "sequence"
  | .map => "map"

/-- What a value is, on the whole. -/
def found : Json → Found
  | .null => .null
  | .bool value => .bool value
  | .number value => .number value
  | .string value => .string value
  | .array _ => .sequence
  | .object _ => .map

/-- Why something cannot be read from JSON. -/
inductive Fault where
  /-- The text is not JSON, or nests too deeply. -/
  | malformed
  | missingField (name : String)
  | duplicateField (name : String)
  | unknownVariant (name : String) (known : List String)
  | wrongType (found : Found) (expected : String)
  | wrongValue (found : Found) (expected : String)
  /-- An array has the wrong number of items. -/
  | wrongLength (length : Nat) (expected : String)
  deriving Repr, BEq, DecidableEq, Inhabited

def Fault.message : Fault → String
  | .malformed => "syntax"
  | .missingField name => "missing field `" ++ name ++ "`"
  | .duplicateField name => "duplicate field `" ++ name ++ "`"
  | .unknownVariant name known =>
    "unknown variant `" ++ name ++ "`, expected one of " ++
      ", ".intercalate (known.map fun k => "`" ++ k ++ "`")
  | .wrongType found expected => "invalid type: " ++ found.text ++ ", expected " ++ expected
  | .wrongValue found expected => "invalid value: " ++ found.text ++ ", expected " ++ expected
  | .wrongLength length expected =>
    "invalid length " ++ toString length ++ ", expected " ++ expected

/-- A number of elements, as a message has it. -/
def elements (n : Nat) : String :=
  toString n ++ if n == 1 then " element" else " elements"

end IdlTypings.Json
