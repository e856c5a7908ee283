import Mathlib
import IdlTypings.Typings.Basic
import IdlTypings.Proofs.ComponentText
import IdlTypings.Proofs.DocumentAppend
import IdlTypings.Proofs.DocumentRoundTrip

/-! # Components are read as interfaces

A component written in Gecko's dialect is read as the interface that it means, followed by the
definitions of the prelude: `readDocument_component`.

The mended text is laid out from the tokens of that interface.  `lineLayout` chooses the blanks, and
`spell_component` follows the text from the names of a method to its parameters, so that the grammar
can be asked for the tokens and not for the text.
-/

namespace IdlTypings.Dialect.Gecko

open IdlTypings.Grammar (Token Mark Layout spell typeTokens argumentTokens memberTokens
  definitionTokens separated)

/-! ## What a component means -/

def ValueType.meaning : ValueType → Idl.IdlType
  | .single name => .named name.text
  | .array element => .generic "sequence" [.named element.text]

def Parameter.meaning (parameter : Parameter) : Idl.Argument where
  name := parameter.name.text
  type := parameter.type.meaning
  optional := parameter.optional

def Method.meaning (method : Method) : Idl.Member :=
  .operation (some method.name.text) (method.parameters.map Parameter.meaning)
    (method.returns.elim (.named "void") ValueType.meaning)

def Component.meaning (component : Component) : Idl.Definition :=
  .interface
    { name := component.name.text
      parent := some component.parent.text
      members := component.methods.map Method.meaning
      attributes := [] }

theorem Name.ne_void (name : Name) : name.text ≠ "void" :=
  name.isIdentifier.ne (by decide)

theorem ValueType.writable (type : ValueType) : Grammar.Writable type.meaning := by
  cases type with
  | single name => exact .identifier name.isIdentifier
  | array element => exact .sequence (.identifier element.isIdentifier)

theorem Component.writable (component : Component) :
    Grammar.WritableDefinition component.meaning where
  name := component.name.isIdentifier
  parent := by
    rintro _ ⟨⟩
    exact component.parent.isIdentifier
  attributes := by simp
  members := by
    simp only [List.mem_map]
    rintro _ ⟨method, -, rfl⟩
    refine ⟨method.name.isIdentifier, ?_, ?_⟩
    · simp only [List.mem_map]
      rintro _ ⟨parameter, -, rfl⟩
      exact ⟨parameter.name.isIdentifier, parameter.type.writable⟩
    · cases method.returns with
      | none => exact .inl rfl
      | some type => exact .inr type.writable

/-! ## The layout of a mended component -/

def afterMark : Mark → List Char
  | .openBrace | .semicolon => ['\n']
  | .colon | .comma | .closeAngle => [' ']
  | _ => []

def beforeMark : Mark → List Char
  | .colon | .openBrace => [' ']
  | _ => []

def lineGap : Token → List Token → List Char
  | _, [] => []
  | .mark m, _ :: _ => afterMark m
  | _, .mark m :: _ => beforeMark m
  | _, _ :: _ => [' ']

/-- One line for the head of an interface, for each member and for its end. -/
def lineLayout : Layout where
  gap := lineGap
  blank := by
    intro t ts c member
    cases ts with
    | nil => simp [lineGap] at member
    | cons next ts =>
      cases t with
      | mark m =>
        cases m <;> simp_all [lineGap, afterMark, Grammar.isBlank]
      | word _ | literal _ | zero =>
        cases next with
        | mark m => cases m <;> simp_all [lineGap, beforeMark, Grammar.isBlank]
        | word _ | literal _ | zero => simp_all [lineGap, Grammar.isBlank]
  apart := by
    intro text t ts other
    cases t with
    | mark m => exact absurd rfl (other m)
    | word _ | literal _ | zero => simp [lineGap]
  last _ := by simp [lineGap]
  void := "void"
  void_word := .inl rfl

variable {ts : List Token}

@[simp] theorem spell_word_word (a b : String) :
    spell lineLayout (.word a :: .word b :: ts) =
      a.toList ++ ' ' :: spell lineLayout (.word b :: ts) :=
  rfl

@[simp] theorem spell_word_mark (a : String) (m : Mark) :
    spell lineLayout (.word a :: .mark m :: ts) =
      a.toList ++ (beforeMark m ++ spell lineLayout (.mark m :: ts)) :=
  rfl

theorem spell_mark (m : Mark) (more : ts ≠ []) :
    spell lineLayout (.mark m :: ts) = m.char :: (afterMark m ++ spell lineLayout ts) := by
  cases ts with
  | nil => exact absurd rfl more
  | cons t ts => rfl

/-! ## The text of a mended component -/

/-- The text of a type, with a name after it. -/
theorem spell_type (type : ValueType) (name : String) :
    spell lineLayout (typeTokens lineLayout type.meaning ++ .word name :: ts) =
      (type.write .webIdl ++ " ").toList ++ spell lineLayout (.word name :: ts) := by
  have word (name : Name) : Grammar.nameTokens lineLayout name.text = [.word name.text] :=
    Grammar.nameTokens_word name.isIdentifier.word name.ne_void
  cases type with
  | single type => simp [ValueType.meaning, ValueType.write, typeTokens, word]
  | array element =>
    have array : Spelling.webIdl.array = "sequence" := rfl
    simp [ValueType.meaning, ValueType.write, typeTokens, Grammar.typesTokens,
      Grammar.moreTypesTokens, word, array, spell_mark, beforeMark, afterMark]

/-- The text of a parameter, up to its name. -/
theorem spell_parameter (parameter : Parameter) :
    spell lineLayout (argumentTokens lineLayout parameter.meaning ++ ts) =
      (Spelling.webIdl.lead parameter.optional parameter.direction ++
        parameter.type.write .webIdl ++ " ").toList ++
          spell lineLayout (.word parameter.name.text :: ts) := by
  have text := @spell_type ts parameter.type parameter.name.text
  obtain ⟨optional, direction, type, name⟩ := parameter
  cases optional with
  | false =>
    have lead : Spelling.webIdl.lead false direction = "" := rfl
    simp [argumentTokens, Parameter.meaning, lead, text]
  | true =>
    have lead : Spelling.webIdl.lead true direction = "optional ":= rfl
    -- What stands behind the word `optional` depends on the next token, so the type is cut open.
    have first : ∃ word more, typeTokens lineLayout type.meaning = .word word :: more := by
      cases type with
      | single type => exact ⟨_, _, Grammar.nameTokens_word type.isIdentifier.word type.ne_void⟩
      | array element => exact ⟨_, _, rfl⟩
    obtain ⟨word, more, tokens⟩ := first
    simp only [tokens, List.cons_append] at text
    simp [argumentTokens, Parameter.meaning, lead, tokens, text]

theorem argumentTokens_append_ne_nil (argument : Idl.Argument) :
    argumentTokens lineLayout argument ++ ts ≠ [] := by
  simp [argumentTokens]

/-- The text of a name and of the parameters after it. -/
theorem spell_moreParameters (name : String) (parameters : List Parameter) :
    spell lineLayout (.word name :: ((parameters.map Parameter.meaning).flatMap
        (fun argument => .mark .comma :: argumentTokens lineLayout argument) ++
          .mark .closeParen :: ts)) =
      (name ++ moreParametersText .webIdl parameters).toList ++
        spell lineLayout (.mark .closeParen :: ts) := by
  induction parameters generalizing name with
  | nil => simp [moreParametersText, beforeMark]
  | cons parameter parameters ih =>
    rw [List.map_cons, List.flatMap_cons, List.append_assoc, List.cons_append, spell_word_mark,
      spell_mark _ (argumentTokens_append_ne_nil _), spell_parameter, ih]
    simp [moreParametersText, Parameter.write, beforeMark, afterMark]

/-- The text of a method, and a line feed after it. -/
theorem spell_method (method : Method) (more : ts ≠ []) :
    spell lineLayout (memberTokens lineLayout method.meaning ++ ts) =
      (method.write .webIdl ++ ";\n").toList ++ spell lineLayout ts := by
  have returned (name : String) (ts : List Token) : spell lineLayout (typeTokens lineLayout
      (method.returns.elim (.named "void") ValueType.meaning) ++ .word name :: ts) =
        (returnText .webIdl method.returns ++ " ").toList ++
          spell lineLayout (.word name :: ts) := by
    cases method.returns with
    | none => rfl
    | some type => exact spell_type type name
  have called : spell lineLayout (.word method.name.text :: (Grammar.argumentsTokens lineLayout
      (method.parameters.map Parameter.meaning) ++ .mark .semicolon :: ts)) =
        (method.name.text ++ "(" ++ parametersText .webIdl method.parameters ++ ");\n").toList ++
          spell lineLayout ts := by
    cases method.parameters with
    | nil =>
      simp [Grammar.argumentsTokens, separated, parametersText, spell_mark, more, beforeMark,
        afterMark]
    | cons first others =>
      simp [Grammar.argumentsTokens, separated, parametersText, spell_mark, more, beforeMark,
        afterMark, spell_parameter, spell_moreParameters, Parameter.write]
  have tokens : memberTokens lineLayout method.meaning ++ ts =
      typeTokens lineLayout (method.returns.elim (.named "void") ValueType.meaning) ++
        .word method.name.text :: (Grammar.argumentsTokens lineLayout
          (method.parameters.map Parameter.meaning) ++ .mark .semicolon :: ts) := by
    simp [Method.meaning, memberTokens]
  rw [tokens, returned, called]
  simp [Method.write]

/-- The text of the methods and of the end of an interface. -/
theorem spell_methods (methods : List Method) :
    '\n' :: spell lineLayout ((methods.map Method.meaning).flatMap (memberTokens lineLayout) ++
        [.mark .closeBrace, .mark .semicolon]) =
      (methodLines .webIdl methods ++ "\n\x7d;").toList := by
  induction methods with
  | nil => rfl
  | cons method methods ih =>
    rw [List.map_cons, List.flatMap_cons, List.append_assoc, spell_method method (by simp)]
    simp only [methodLines, String.append_assoc, String.toList_append] at ih ⊢
    rw [← ih]
    simp

/-- The text of a mended component is the text of its tokens, between line feeds. -/
theorem write_webIdl (component : Component) :
    (component.write .webIdl).toList =
      '\n' :: (spell lineLayout (definitionTokens lineLayout component.meaning) ++ ['\n']) := by
  have header : Spelling.webIdl.header = "" := rfl
  have methods := spell_methods component.methods
  have foot : "\n\x7d;\n".toList = "\n\x7d;".toList ++ ['\n'] := by simp
  have tokens : definitionTokens lineLayout component.meaning =
      .word "interface" :: .word component.name.text :: .mark .colon ::
        .word component.parent.text :: .mark .openBrace ::
          ((component.methods.map Method.meaning).flatMap (memberTokens lineLayout) ++
            [.mark .closeBrace, .mark .semicolon]) := by
    simp [definitionTokens, Component.meaning, Grammar.attributesTokens, Grammar.bodyTokens,
      Grammar.inheritanceTokens, Grammar.membersTokens]
  rw [Component.write, header, String.toList_append, foot, ← List.append_assoc,
    ← String.toList_append, String.append_assoc, String.toList_append, ← methods, tokens]
  simp [Component.head, spell_mark, beforeMark, afterMark]

/-! ## Reading -/

/-- Definitions in a layout are read, and the white space around them is made of blanks. -/
theorem parse_lines (layout : Layout) {ds : List Idl.Definition} (nonempty : ds ≠ [])
    (writable : ∀ d ∈ ds, Grammar.WritableDefinition d) {before after : List Char}
    (leading : ∀ c ∈ before, Grammar.isBlank c = true)
    (trailing : ∀ c ∈ after, Grammar.isBlank c = true) {text : List Char}
    (lines : text = before ++ (spell layout (Grammar.documentTokens layout ds) ++ after)) :
    Grammar.hasBlankEnds text = true ∧
      ∃ forms, Grammar.parse text = .ok forms ∧ forms.map Grammar.DefinitionForm.lower = ds := by
  have trimmed : Text.trim text = spell layout (Grammar.documentTokens layout ds) := by
    rw [lines]
    exact Grammar.trim_document layout writable
      (fun c member => Grammar.isSpace_of_blank (leading c member))
      (fun c member => Grammar.isSpace_of_blank (trailing c member))
  constructor
  -- The definitions begin and end without white space, so all of it is in the given blanks.
  · obtain ⟨-, -, -, -, -, first, last⟩ := Grammar.trim_parts text
    rw [trimmed] at first last
    rw [lines]
    refine Grammar.hasBlankEnds_around leading trailing first last ?_
    intro empty
    obtain ⟨us, tokens⟩ := List.getLast?_eq_some_iff.mp
      (Grammar.getLast?_documentTokens layout writable nonempty)
    have final := Grammar.getLast?_spell layout us .semicolon
    rw [← tokens, empty] at final
    cases final
  · obtain ⟨forms, read, lowered⟩ := Grammar.many_statements
      (fun d member => Grammar.definition_statement layout (writable d member)
        ((spell layout (Grammar.documentTokens layout ds)).length + 1))
      Grammar.opens_nil (Grammar.definition_end layout _)
      (by rw [List.append_nil]; exact Nat.le_succ _)
    rw [List.append_nil, ← Grammar.documentTokens] at read
    refine ⟨forms, ?_, lowered⟩
    rw [Grammar.parse, trimmed, Grammar.definitions, read]
    rfl

/-- A name for a type that has a name already. -/
def renamed (name type : String) : Idl.Definition :=
  .typedef name (.named type)

def preludeTypes : List Idl.Definition :=
  [renamed "AString" "string", renamed "ACString" "string", renamed "AUTF8String" "string",
    renamed "nsIIDRef" "object", renamed "nsQIResult" "object",
    renamed "MozExternalRefCountType" "number"]

/-- The interface that every component inherits from. -/
def preludeInterface : Idl.Interface where
  name := "nsISupports"
  parent := none
  members :=
    [.operation (some "QueryInterface")
        [⟨"aIID", .named "nsIIDRef", false⟩, ⟨"aInstancePtr", .named "nsQIResult", false⟩]
        (.named "void"),
      .operation (some "AddRef") [] (.named "MozExternalRefCountType"),
      .operation (some "Release") [] (.named "MozExternalRefCountType")]
  attributes := [⟨"scriptable", none⟩]

def preludeInterfaceText : String :=
  "[scriptable]\n" ++
    "interface nsISupports \x7b\n" ++
    "  void QueryInterface(nsIIDRef aIID, [retval] nsQIResult aInstancePtr);\n" ++
    "  [noscript, notxpcom] MozExternalRefCountType AddRef();\n" ++
    "  [noscript, notxpcom] MozExternalRefCountType Release();\n" ++
    "\x7d;"

theorem read_preludeInterface :
    Grammar.read (preludeInterfaceText.toList ++ ['\n']) = .ok [.interface preludeInterface] := by
  unfold preludeInterfaceText
  simp only [String.toList_append]
  repeat rw [String.toList_ofList]
  cbv

theorem hasBlankEnds_preludeInterface :
    Grammar.hasBlankEnds (preludeInterfaceText.toList ++ ['\n']) = true := by
  have first : preludeInterfaceText.toList.head? = some '[' := by
    unfold preludeInterfaceText
    simp only [String.toList_append, List.head?_append]
    rw [String.toList_ofList]
    rfl
  have last : preludeInterfaceText.toList.getLast? = some ';' := by
    unfold preludeInterfaceText
    rw [String.toList_append, List.getLast?_append]
    rw [String.toList_ofList]
    rfl
  rw [← List.nil_append (_ ++ _)]
  refine Grammar.hasBlankEnds_around (List.forall_mem_nil _) (by simp [Grammar.isBlank]) ?_ ?_ ?_
  · simp [first]
  · simp [last, show Text.isSpace ';' = false by decide]
  · intro empty
    simp [empty] at first

/-- The names for types are laid out as the lines of a component are. -/
theorem prelude_eq :
    prelude.toList =
      (spell lineLayout (Grammar.documentTokens lineLayout preludeTypes) ++ ['\n']) ++
        '\n' :: (preludeInterfaceText.toList ++ ['\n']) := by
  have known : Grammar.isWord "string" = true ∧ Grammar.isWord "object" = true ∧
      Grammar.isWord "number" = true := by
    decide
  have last (m : Mark) : spell lineLayout [.mark m] = [m.char] := rfl
  unfold prelude preludeInterfaceText
  simp [-String.reduceToList, -String.reduceAppend, Grammar.documentTokens, preludeTypes,
    renamed, definitionTokens, typeTokens, Grammar.nameTokens_word, known, spell_mark, last, beforeMark,
    afterMark]
  repeat rw [String.toList_ofList]
  rfl

theorem writable_preludeTypes : ∀ d ∈ preludeTypes, Grammar.WritableDefinition d := by
  have known : ∀ name ∈ ["AString", "ACString", "AUTF8String", "nsIIDRef", "nsQIResult",
      "MozExternalRefCountType", "string", "number"],
        Grammar.isWord name = true ∧ name ∉ Grammar.reserved := by
    decide +kernel
  have name {text : String} (member : text ∈ ["AString", "ACString", "AUTF8String", "nsIIDRef",
      "nsQIResult", "MozExternalRefCountType", "string", "number"]) : Grammar.IsIdentifier text :=
    ⟨(known text member).1, (known text member).2⟩
  have string : Grammar.Writable (.named "string") := .identifier (name (by decide))
  have object : Grammar.Writable (.named "object") := .builtIn .object
  have number : Grammar.Writable (.named "number") := .identifier (name (by decide))
  simp only [preludeTypes, List.forall_mem_cons, List.not_mem_nil, false_imp_iff, implies_true,
    and_true]
  exact ⟨⟨name (by decide), string⟩, ⟨name (by decide), string⟩, ⟨name (by decide), string⟩,
    ⟨name (by decide), object⟩, ⟨name (by decide), object⟩, ⟨name (by decide), number⟩⟩

/-- The prelude is read as its names for types and its interface. -/
theorem parse_prelude :
    Grammar.hasBlankEnds prelude.toList = true ∧
      ∃ forms, Grammar.parse prelude.toList = .ok forms ∧
        forms.map Grammar.DefinitionForm.lower =
          preludeTypes ++ [.interface preludeInterface] := by
  have newLine : ∀ c ∈ ['\n'], Grammar.isBlank c = true := by simp [Grammar.isBlank]
  obtain ⟨blank, forms, parsed, lowered⟩ := parse_lines lineLayout (by simp [preludeTypes])
    writable_preludeTypes (List.forall_mem_nil _) newLine rfl
  obtain ⟨others, parsedInterface, loweredInterface⟩ :=
    Grammar.read_eq_ok_iff.mp read_preludeInterface
  rw [List.nil_append] at blank parsed
  rw [prelude_eq]
  constructor
  · exact Grammar.hasBlankEnds_append blank hasBlankEnds_preludeInterface
  · refine ⟨forms ++ others, Grammar.parse_append blank hasBlankEnds_preludeInterface parsed
      parsedInterface, ?_⟩
    rw [List.map_append, lowered, loweredInterface]

/-- A component is read as the interface that it means, and the definitions of the prelude come after
    it. -/
theorem readDocument_component (options : Options) (component : Component) :
    readDocument { options with emscripten := false, gecko := true } component.source.toList =
      .ok (component.meaning :: (preludeTypes ++ [.interface preludeInterface])) := by
  have newLine : ∀ c ∈ ['\n'], Grammar.isBlank c = true := by simp [Grammar.isBlank]
  have lines : (component.write .webIdl).toList = ['\n'] ++ (spell lineLayout
      (Grammar.documentTokens lineLayout [component.meaning]) ++ ['\n']) := by
    simpa [Grammar.documentTokens] using write_webIdl component
  obtain ⟨blank, forms, parsed, lowered⟩ := parse_lines lineLayout (by simp)
    (by simpa using component.writable) newLine newLine lines
  obtain ⟨blankPrelude, preludeForms, parsedPrelude, loweredPrelude⟩ := parse_prelude
  have mended : Dialect.mend { options with emscripten := false, gecko := true }
      component.source.toList = (component.write .webIdl).toList ++ '\n' :: prelude.toList := by
    rw [← mend_source]
    rfl
  rw [readDocument, mended, Grammar.read_eq_ok_iff]
  refine ⟨forms ++ preludeForms,
    Grammar.parse_append blank blankPrelude parsed parsedPrelude, ?_⟩
  rw [List.map_append, lowered, loweredPrelude]
  rfl

/-- A component of one method whose names are words of the dialect. -/
def listComponent : Component where
  uuid := "00ff-a1"
  uuid_digits := by decide
  name := ⟨"nsIList", by decide, by decide +kernel⟩
  parent := ⟨"nsISupports", by decide, by decide +kernel⟩
  methods :=
    [{ returns := some (.array ⟨"AString", by decide, by decide +kernel⟩)
       name := ⟨"uuid", by decide, by decide +kernel⟩
       parameters :=
        [⟨true, .incoming, .single ⟨"AString", by decide, by decide +kernel⟩,
            ⟨"in", by decide, by decide +kernel⟩⟩,
          ⟨false, .outgoing, .array ⟨"Array", by decide, by decide +kernel⟩,
            ⟨"out", by decide, by decide +kernel⟩⟩] }]

example : listComponent.source =
    "[scriptable, uuid(00ff-a1)]\n" ++
      "interface nsIList : nsISupports \x7b\n" ++
      "Array<AString> uuid([optional] in AString in, out Array<Array> out);\n" ++
      "\x7d;\n" := by
  decide +kernel

example : listComponent.meaning =
    .interface
      { name := "nsIList"
        parent := some "nsISupports"
        members :=
          [.operation (some "uuid")
            [⟨"in", .named "AString", true⟩, ⟨"out", .generic "sequence" [.named "Array"], false⟩]
            (.generic "sequence" [.named "AString"])]
        attributes := [] } := rfl

end IdlTypings.Dialect.Gecko
