import IdlTypings.TypeScript.Printer

/-!
# Emscripten modules

Emscripten gives a library to JavaScript as a module object, with a factory function of the same
name.  `moduleText` writes declarations inside such a module, after the helpers that every
module has.
-/

namespace IdlTypings.TypeScript

/-- The members that every Emscripten module has. -/
def moduleHelpers : List String :=
  ["function destroy(obj: any): void;",
    "function _malloc(size: number): number;",
    "function _free(ptr: number): void;",
    "const HEAP8: Int8Array;",
    "const HEAP16: Int16Array;",
    "const HEAP32: Int32Array;",
    "const HEAPU8: Uint8Array;",
    "const HEAPU16: Uint16Array;",
    "const HEAPU32: Uint32Array;",
    "const HEAPF32: Float32Array;",
    "const HEAPF64: Float64Array;"]

/-- Four blanks after every line feed of a text, but not after one that ends it. -/
def indentLines : List Char → List Char
  | [] => []
  | ['\n'] => ['\n']
  | c :: rest => if c == '\n' then '\n' :: "    ".toList ++ indentLines rest else c :: indentLines rest

/-- One line of a module, or several, without the line feed before them. -/
def moduleEntry (text : String) : String :=
  "    " ++ String.ofList (indentLines text.toList)

/-- Lines of a module, each after a line feed. -/
def moduleLines : List String → String
  | [] => ""
  | line :: lines => "\n" ++ line ++ moduleLines lines

/-- A module with its helpers and some declarations. -/
def moduleText (name : String) (defaultExport : Bool) (declarations : List Declaration) : String :=
  (if defaultExport then "export default " ++ name ++ ";\n" else "") ++
    "declare function " ++ name ++ "<T>(target?: T): Promise<T & typeof " ++ name ++ ">;\n" ++
    "declare module " ++ name ++ " \x7b" ++
    moduleLines (moduleHelpers.map ("    " ++ ·)) ++
    moduleLines (declarations.map fun declaration => moduleEntry declaration.text) ++
    "\n\x7d\n"

end IdlTypings.TypeScript
