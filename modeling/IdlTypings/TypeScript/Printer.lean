import IdlTypings.TypeScript.Basic

/-!
# The text of declarations

Interface bodies are indented by four blanks and every member ends in a semicolon.

* `literalText` writes a string literal type;
* `TypeExpr.text`, `Signature.text` and `Declaration.text` write the rest of the language;
* `print` writes declarations one after the other, each on lines of its own.

A function type inside a union stands between parentheses, since its return type would otherwise
take in the alternatives after it.
-/

namespace IdlTypings.TypeScript

/-! ## Types -/

def escape (c : Char) : List Char :=
  if c == '\"' then ['\\', '\"']
  else if c == '\\' then ['\\', '\\']
  else if c == '\n' then ['\\', 'n']
  else if c == '\r' then ['\\', 'r']
  else if c == '\t' then ['\\', 't']
  else [c]

def literalText (s : String) : String :=
  String.ofList ('\"' :: s.toList.flatMap escape ++ ['\"'])

/-- The mark of an optional parameter or property. -/
def optionalMark (optional : Bool) : String :=
  if optional then "?" else ""

def TypeExpr.isFunction : TypeExpr → Bool
  | .function _ _ => true
  | _ => false

def parenthesizedIf (needed : Bool) (text : String) : String :=
  if needed then "(" ++ text ++ ")" else text

mutual

def TypeExpr.text : TypeExpr → String
  | .keyword word => word.spelling
  | .reference name [] => name
  | .reference name (first :: rest) => name ++ "<" ++ first.text ++ argumentsText rest ++ ">"
  | .union [] => ""
  | .union (first :: rest) => parenthesizedIf first.isFunction first.text ++ membersText rest
  | .literal text => literalText text
  | .function parameters returns => "(" ++ parametersText parameters ++ ") => " ++ returns.text

def argumentsText : List TypeExpr → String
  | [] => ""
  | type :: types => ", " ++ type.text ++ argumentsText types

def membersText : List TypeExpr → String
  | [] => ""
  | type :: types => " | " ++ parenthesizedIf type.isFunction type.text ++ membersText types

def Parameter.text : Parameter → String
  | .mk name optional type => name ++ optionalMark optional ++ ": " ++ type.text

def parametersText : List Parameter → String
  | [] => ""
  | parameter :: parameters => parameter.text ++ moreParametersText parameters

def moreParametersText : List Parameter → String
  | [] => ""
  | parameter :: parameters => ", " ++ parameter.text ++ moreParametersText parameters

end

/-! ## Signatures and declarations -/

def Reference.text (reference : Reference) : String :=
  (TypeExpr.reference reference.name reference.arguments).text

def Signature.text : Signature → String
  | .property name readonly optional type =>
    (if readonly then "readonly " else "") ++ name ++ optionalMark optional ++ ": " ++ type.text ++ ";"
  | .method name parameters returns =>
    name ++ "(" ++ parametersText parameters ++ "): " ++ returns.text ++ ";"
  | .construct parameters => "new (" ++ parametersText parameters ++ ");"

/-- What an interface extends, where it extends something. -/
def heritageText (heritage : List Reference) : String :=
  if heritage.isEmpty then "" else " extends " ++ ", ".intercalate (heritage.map Reference.text)

/-- Members of an interface, each on a line of its own. -/
def bodyText : List Signature → String
  | [] => ""
  | member :: members => "    " ++ member.text ++ "\n" ++ bodyText members

/-- The text of a declaration, without the line feed after it. -/
def Declaration.text : Declaration → String
  | .interface name heritage members =>
    "interface " ++ name ++ heritageText heritage ++ " \x7b\n" ++ bodyText members ++ "\x7d"
  | .alias name type => "type " ++ name ++ " = " ++ type.text ++ ";"
  | .variable name type declare =>
    (if declare then "declare " else "") ++ "var " ++ name ++ ": " ++ type.text ++ ";"

def print : List Declaration → String
  | [] => ""
  | declaration :: declarations => declaration.text ++ "\n" ++ print declarations

end IdlTypings.TypeScript
