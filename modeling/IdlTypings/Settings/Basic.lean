/-!
# Settings

A `Config` holds what one source of settings says; what it leaves open is decided by the next
source.  `Options` are the settings of a run, with nothing left open.
-/

namespace IdlTypings

/-- The settings of a run. -/
structure Options where
  /-- The input is written for Emscripten's binder: attributes become accessor methods, and the
      declarations are put into a module. -/
  emscripten : Bool := false
  /-- The input is written in Gecko's dialect. -/
  gecko : Bool := false
  /-- The name of the Emscripten module. -/
  moduleName : String := "Module"
  /-- Whether the Emscripten module is the default export. -/
  defaultExport : Bool := false
  deriving Repr, BEq, DecidableEq, Inhabited

/-- What one source of settings says. -/
structure Config where
  emscripten : Option Bool := none
  gecko : Option Bool := none
  moduleName : Option String := none
  defaultExport : Option Bool := none
  deriving Repr, BEq, DecidableEq, Inhabited

namespace Config

/-- The settings of two sources; where both speak, the first one decides. -/
def merge (first second : Config) : Config where
  emscripten := first.emscripten.or second.emscripten
  gecko := first.gecko.or second.gecko
  moduleName := first.moduleName.or second.moduleName
  defaultExport := first.defaultExport.or second.defaultExport

/-- The settings of a run, where what is still open takes its default. -/
def toOptions (config : Config) : Options :=
  let defaults : Options := {}
  { emscripten := config.emscripten.getD defaults.emscripten
    gecko := config.gecko.getD defaults.gecko
    moduleName := config.moduleName.getD defaults.moduleName
    defaultExport := config.defaultExport.getD defaults.defaultExport }

end Config

end IdlTypings
