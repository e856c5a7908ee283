import IdlTypings.Dialect.Emscripten
import IdlTypings.Dialect.Gecko
import IdlTypings.Settings.Basic

/-!
# Dialects

`mend` turns a text in one of the dialects into WebIDL.  Both dialects may be asked for;
Emscripten's is then mended first.
-/

namespace IdlTypings.Dialect

/-- The WebIDL text of a text in the dialects that the settings name. -/
def mend (options : Options) (s : List Char) : List Char :=
  let s := if options.emscripten then
    Emscripten.freezeArrays (Emscripten.inheritImplemented s) else s
  if options.gecko then Gecko.mend s else s

end IdlTypings.Dialect
