/-!
# The TypeScript names of IDL types

TypeScript has one type for all numbers and one for all strings.  Containers keep their arguments
and change their names.  A name that is not in the table belongs to the document and stays.
-/

namespace IdlTypings

/-- Binary data has the same names in both languages. -/
def bufferTypes : List String :=
  ["ArrayBuffer", "ArrayBufferView", "DataView", "Int8Array", "Uint8Array", "Int16Array",
    "Uint16Array", "Uint8ClampedArray", "Int32Array", "Uint32Array", "Float32Array",
    "Float64Array"]

def numericTypes : List String :=
  ["byte", "octet", "short", "unsigned short", "long", "unsigned long", "long long",
    "unsigned long long", "float", "unrestricted float", "double", "unrestricted double"]

def stringTypes : List String :=
  ["ByteString", "DOMString", "USVString", "CSSOMString"]

/-- The other types that have the same names in both languages. -/
def sharedTypes : List String :=
  ["any", "boolean", "Date", "Function", "Promise", "void", "EventHandler"]

/-- The types that change their names. -/
def renamedTypes : List (String × String) :=
  [("object", "any"), ("sequence", "Array"), ("record", "Record"),
    ("FrozenArray", "ReadonlyArray"), ("VoidPtr", "unknown")]

/-- All types of the table with their TypeScript names. -/
def typeNames : List (String × String) :=
  bufferTypes.map (fun name => (name, name)) ++ numericTypes.map (fun name => (name, "number")) ++
    stringTypes.map (fun name => (name, "string")) ++ sharedTypes.map (fun name => (name, name)) ++
    renamedTypes

/-- The TypeScript name of an IDL type. -/
def typeName (name : String) : String :=
  (typeNames.lookup name).getD name

end IdlTypings
