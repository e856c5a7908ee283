import Mathlib
import IdlTypings.TypeScript.Module

/-! # The lines of a module

A module is written declaration by declaration, with four blanks after each line feed inside a
declaration.  The result is the printed file with four blanks before each of its lines:
`moduleText_eq_indented`.

* `linesOf` cuts a text behind its line feeds, and `indented` puts blanks before every line.
* `indented_line` compares the two ways for a text that does not end in a line feed.  A line feed at
  its end would be followed by no blanks in the one and by a line of its own in the other.
* `Declaration.getLast?_text` says that no declaration ends in a line feed, whatever its names are.
-/

namespace IdlTypings.TypeScript

/-! ## Lines -/

/-- The lines of a text, each with the line feed that ends it; the last line may have none. -/
def linesOf : List Char → List (List Char)
  | [] => []
  | c :: rest =>
    if c == '\n' then [c] :: linesOf rest
    else
      match linesOf rest with
      | [] => [[c]]
      | line :: lines => (c :: line) :: lines

/-- A text with four blanks before each of its lines. -/
def indented (text : List Char) : List Char :=
  (linesOf text).flatMap ("    ".toList ++ ·)

theorem indented_newLine (rest : List Char) :
    indented ('\n' :: rest) = "    ".toList ++ '\n' :: indented rest := by
  simp [indented, linesOf]

theorem indented_cons {c : Char} (notFeed : c ≠ '\n') {s t : List Char}
    (inner : indented s = "    ".toList ++ t) : indented (c :: s) = "    ".toList ++ c :: t := by
  rw [indented] at inner ⊢
  rw [linesOf]
  cases cut : linesOf s with
  | nil => simp [cut] at inner
  | cons line lines =>
    rw [cut, List.flatMap_cons, List.append_assoc] at inner
    have rest := List.append_cancel_left inner
    simp [notFeed, ← rest]

theorem indentLines_newLine {s : List Char} (nonempty : s ≠ []) :
    indentLines ('\n' :: s) = '\n' :: ("    ".toList ++ indentLines s) := by
  rw [indentLines]
  · simp
  · simpa using nonempty

theorem indentLines_cons {c : Char} (notFeed : c ≠ '\n') (s : List Char) :
    indentLines (c :: s) = c :: indentLines s := by
  rw [indentLines]
  · simp [notFeed]
  · exact fun feed => absurd feed notFeed

/-- A text that does not end in a line feed, and the line feed that ends its last line. -/
theorem indented_line {s : List Char} (unfinished : s.getLast? ≠ some '\n') (rest : List Char) :
    indented (s ++ '\n' :: rest) =
      "    ".toList ++ (indentLines s ++ '\n' :: indented rest) := by
  induction s with
  | nil => simp [indented_newLine, indentLines]
  | cons c s ih =>
    by_cases feed : c = '\n'
    · subst feed
      have nonempty : s ≠ [] := by
        rintro rfl
        exact unfinished rfl
      have inner := ih (by rwa [List.getLast?_cons_of_ne_nil nonempty] at unfinished)
      rw [List.cons_append, indented_newLine, inner, indentLines_newLine nonempty]
      simp
    · have inner : indented (s ++ '\n' :: rest) =
          "    ".toList ++ (indentLines s ++ '\n' :: indented rest) := by
        cases s with
        | nil => exact ih (by simp)
        | cons d s => exact ih (by rwa [List.getLast?_cons_cons] at unfinished)
      rw [List.cons_append, indented_cons feed inner, indentLines_cons feed, List.cons_append]

/-! ## Declarations -/

/-- A declaration ends in a curly bracket or a semicolon. -/
theorem Declaration.getLast?_text (declaration : Declaration) :
    declaration.text.toList.getLast? ≠ some '\n' := by
  cases declaration <;> simp [Declaration.text, List.getLast?_cons, List.getLast?_append]

/-- The entries of some declarations are the lines of the printed file.  Each entry follows a line
    feed, and each printed declaration ends in one. -/
theorem moduleLines_entries (declarations : List Declaration) (rest : String) :
    moduleLines (declarations.map fun declaration => moduleEntry declaration.text) ++ ("\n" ++ rest) =
      "\n" ++ (String.ofList (indented (print declarations).toList) ++ rest) := by
  induction declarations with
  | nil => rfl
  | cons declaration declarations ih =>
    have line := indented_line declaration.getLast?_text (print declarations).toList
    rw [List.map_cons, moduleLines, String.append_assoc, String.append_assoc, ih]
    apply String.toList_injective
    simp [print, moduleEntry, line]

/-! ## Modules -/

/-- The lines of the members that every module has. -/
def helperLines : String :=
  "    function destroy(obj: any): void;\n" ++
  "    function _malloc(size: number): number;\n" ++
  "    function _free(ptr: number): void;\n" ++
  "    const HEAP8: Int8Array;\n" ++
  "    const HEAP16: Int16Array;\n" ++
  "    const HEAP32: Int32Array;\n" ++
  "    const HEAPU8: Uint8Array;\n" ++
  "    const HEAPU16: Uint16Array;\n" ++
  "    const HEAPU32: Uint32Array;\n" ++
  "    const HEAPF32: Float32Array;\n" ++
  "    const HEAPF64: Float64Array;\n"

theorem moduleLines_helpers (rest : String) :
    moduleLines (moduleHelpers.map ("    " ++ ·)) ++ ("\n" ++ rest) =
      "\n" ++ (helperLines ++ rest) := by
  have lines : moduleLines (moduleHelpers.map ("    " ++ ·)) ++ "\n" = "\n" ++ helperLines := by
    decide +kernel
  rw [← String.append_assoc, lines, String.append_assoc]

/-- The start of a module: its export if it is asked for, its factory and its helpers. -/
def moduleHeader (name : String) (defaultExport : Bool) : String :=
  (if defaultExport then "export default " ++ name ++ ";\n" else "") ++
    "declare function " ++ name ++ "<T>(target?: T): Promise<T & typeof " ++ name ++ ">;\n" ++
    "declare module " ++ name ++ " \x7b\n" ++ helperLines

/-- A module is its header, the printed declarations with four blanks before each line, and the
    bracket that closes it. -/
theorem moduleText_eq_indented (name : String) (defaultExport : Bool)
    (declarations : List Declaration) :
    moduleText name defaultExport declarations =
      moduleHeader name defaultExport ++
        String.ofList (indented (print declarations).toList) ++ "\x7d\n" := by
  have opening : " \x7b\n" = " \x7b" ++ "\n" := rfl
  have closing : "\n\x7d\n" = "\n" ++ "\x7d\n" := rfl
  rw [moduleText, moduleHeader, opening, closing]
  simp only [String.append_assoc, moduleLines_entries, moduleLines_helpers]

end IdlTypings.TypeScript
