import IdlTypings.Declare.Basic
import IdlTypings.Dialect.Basic
import IdlTypings.Grammar.Lowering
import IdlTypings.Settings.Basic
import IdlTypings.TypeScript.Module

/-!
# Declaration files

From the text of a document to the text of its declaration file, under the settings of a run:
`readDocument`, `declare`, `render`, and all of them together in `typings`.
-/

namespace IdlTypings

open TypeScript (Declaration)

/-- The definitions of a document in the dialects that the settings name. -/
def readDocument (options : Options) (text : List Char) :
    Except Grammar.ParseError (List Idl.Definition) :=
  Grammar.read (Dialect.mend options text)

/-- The declarations of some definitions. -/
def declare (options : Options) (definitions : List Idl.Definition) :
    Reported (List Declaration) :=
  declareAll options.emscripten definitions

/-- The text of a declaration file: for Emscripten a module, otherwise the declarations alone. -/
def render (options : Options) (declarations : List Declaration) : String :=
  if options.emscripten then
    TypeScript.moduleText options.moduleName options.defaultExport declarations
  else TypeScript.print declarations

/-- The declaration file of some definitions. -/
def declarationFile (options : Options) (definitions : List Idl.Definition) : Reported String := do
  let declarations ← declare options definitions
  return render options declarations

/-- The declaration file of a document. -/
def typings (options : Options) (text : List Char) : Except Grammar.ParseError (Reported String) :=
  (readDocument options text).map (declarationFile options)

end IdlTypings
