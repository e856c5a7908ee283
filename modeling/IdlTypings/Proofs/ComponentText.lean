import Mathlib
import IdlTypings.Dialect.Gecko
import IdlTypings.Proofs.TextEdits
import IdlTypings.Proofs.WrittenTypes

/-! # The text of a component, mended

A component is an interface of Gecko with a unique number and methods whose parameters have a
direction.  `Component.write` writes it under a `Spelling`, which says how the parts are written that
the dialect has and WebIDL has not.  Every edit of the dialect takes the text of one spelling to the
text of another one, and the last of them is WebIDL: `mend_source`.

* An edit that begins at a mark leaves names alone, and `Respells.component` puts together what it
  does to the header and to the start of each parameter.
* Two edits begin with a letter, so a name might end in what they look for.  A forward declaration
  has to reach a semicolon after a word, `forwardDeclaration_reaches`, and an array has to reach its
  angle bracket, `array_reaches`; inside a component no name is followed by either of them.
-/

namespace IdlTypings.Dialect.Gecko

open IdlTypings.Parser IdlTypings.Text

/-! ## Components -/

/-- A name in a component: a letter followed by letters, digits and low lines that is no keyword of
    WebIDL.  It may be a word of the dialect. -/
structure Name where
  text : String
  isIdentifier : Grammar.IsIdentifier text

/-- The type of a value: a name or an array of them. -/
inductive ValueType where
  | single (name : Name)
  | array (element : Name)

/-- The way that a value goes. -/
inductive Direction where
  | incoming
  | outgoing

/-- A parameter of a method. -/
structure Parameter where
  optional : Bool
  direction : Direction
  type : ValueType
  name : Name

/-- A method; one that gives no value has no type. -/
structure Method where
  returns : Option ValueType
  name : Name
  parameters : List Parameter

/-- A component.  Its unique number is made of hexadecimal digits and hyphens. -/
structure Component where
  uuid : String
  uuid_digits : uuid.toList.all (fun c => Grammar.isHexDigit c || c == '-') = true
  name : Name
  parent : Name
  methods : List Method

/-! ## Writing components -/

/-- How the parts of a component are written that WebIDL writes differently. -/
structure Spelling where
  /-- The line before the interface. -/
  header : String
  /-- What stands before the type of a parameter. -/
  lead (optional : Bool) (direction : Direction) : String
  /-- The name of arrays. -/
  array : String

def ValueType.write (spelling : Spelling) : ValueType → String
  | .single name => name.text
  | .array element => spelling.array ++ "<" ++ element.text ++ ">"

def returnText (spelling : Spelling) : Option ValueType → String
  | none => "void"
  | some type => type.write spelling

def Parameter.write (spelling : Spelling) (parameter : Parameter) : String :=
  spelling.lead parameter.optional parameter.direction ++ parameter.type.write spelling ++ " " ++
    parameter.name.text

def moreParametersText (spelling : Spelling) : List Parameter → String
  | [] => ""
  | parameter :: parameters =>
    ", " ++ parameter.write spelling ++ moreParametersText spelling parameters

def parametersText (spelling : Spelling) : List Parameter → String
  | [] => ""
  | parameter :: parameters => parameter.write spelling ++ moreParametersText spelling parameters

/-- The text of a method up to its semicolon. -/
def Method.write (spelling : Spelling) (method : Method) : String :=
  returnText spelling method.returns ++ " " ++ method.name.text ++ "(" ++
    parametersText spelling method.parameters ++ ")"

/-- Methods, each on a line of its own. -/
def methodLines (spelling : Spelling) : List Method → String
  | [] => ""
  | method :: methods => "\n" ++ method.write spelling ++ ";" ++ methodLines spelling methods

/-- The head of the interface, up to its bracket. -/
def Component.head (component : Component) : String :=
  "interface " ++ component.name.text ++ " : " ++ component.parent.text ++ " \x7b"

def Component.write (spelling : Spelling) (component : Component) : String :=
  spelling.header ++ "\n" ++ component.head ++ methodLines spelling component.methods ++
    "\n\x7d;\n"

/-- What stands before the type of a parameter in the dialect. -/
def dialectLead : Bool → Direction → String
  | false, .incoming => "in "
  | false, .outgoing => "out "
  | true, .incoming => "[optional] in "
  | true, .outgoing => "[optional] out "

/-- The spelling of the dialect. -/
def Component.spelling (component : Component) : Spelling where
  header := "[scriptable, uuid(" ++ component.uuid ++ ")]"
  lead := dialectLead
  array := "Array"

/-- The text of a component in the dialect. -/
def Component.source (component : Component) : String :=
  component.write component.spelling

/-! ## Edits of components -/

/-- What an edit makes of a string, whatever stands around it. -/
def Rewrites (find : Option Char → Parser (List Char)) (old new : String) : Prop :=
  Turns find old.toList new.toList

section

variable {find : Option Char → Parser (List Char)} {a a' b b' : String}

theorem Rewrites.append (first : Rewrites find a a') (second : Rewrites find b b') :
    Rewrites find (a ++ b) (a' ++ b') := by
  rw [Rewrites, String.toList_append, String.toList_append]
  exact Turns.append first second

theorem Rewrites.kept {kind : Char → Bool} (spares : Spares find kind)
    (all : a.toList.all kind = true) : Rewrites find a a :=
  spares.turns all

theorem Rewrites.found (nonempty : a.toList ≠ [])
    (found : ∀ before rest, find before (a.toList ++ rest) = some (a'.toList, rest)) :
    Rewrites find a a' :=
  turns_found nonempty found

/-- Only the first character could begin a find, and it does not. -/
theorem Rewrites.passed {kind : Char → Bool} (spares : Spares find kind)
    (all : a.toList.tail.all kind = true)
    (fails : ∀ before rest, find before (a.toList ++ rest) = none) : Rewrites find a a := by
  rw [Rewrites]
  cases chars : a.toList with
  | nil => exact .nil
  | cons c s =>
    rw [chars] at all fails
    exact turns_kept fails (spares.turns all)

end

/-- A relation between the texts of methods in two spellings that holds of their parts.  A part runs
    from a name to the blank before the next one, so that no name stands at its end. -/
structure Carries (R : String → String → Prop) (spelling spelling' : Spelling) : Prop where
  append : ∀ {a a' b b'}, R a a' → R b b' → R (a ++ b) (a' ++ b')
  returns : ∀ type,
    R ("\n" ++ returnText spelling type ++ " ") ("\n" ++ returnText spelling' type ++ " ")
  none : ∀ name : Name, R (name.text ++ "()") (name.text ++ "()")
  first : ∀ (name : Name) optional direction (type : ValueType),
    R (name.text ++ "(" ++ spelling.lead optional direction ++ type.write spelling ++ " ")
      (name.text ++ "(" ++ spelling'.lead optional direction ++ type.write spelling' ++ " ")
  next : ∀ (name : Name) optional direction (type : ValueType),
    R (name.text ++ ", " ++ spelling.lead optional direction ++ type.write spelling ++ " ")
      (name.text ++ ", " ++ spelling'.lead optional direction ++ type.write spelling' ++ " ")
  last : ∀ name : Name, R (name.text ++ ")") (name.text ++ ")")

section

variable {R : String → String → Prop} {spelling spelling' : Spelling}

theorem Carries.moreParameters (carries : Carries R spelling spelling') (name : Name)
    (parameters : List Parameter) :
    R (name.text ++ moreParametersText spelling parameters ++ ")")
      (name.text ++ moreParametersText spelling' parameters ++ ")") := by
  induction parameters generalizing name with
  | nil => simpa only [moreParametersText, String.append_empty] using carries.last name
  | cons parameter parameters ih =>
    have whole := carries.append
      (carries.next name parameter.optional parameter.direction parameter.type) (ih parameter.name)
    simpa only [moreParametersText, Parameter.write, String.append_assoc] using whole

theorem Carries.method (carries : Carries R spelling spelling') (method : Method) :
    R ("\n" ++ method.write spelling) ("\n" ++ method.write spelling') := by
  have rest : R (method.name.text ++ "(" ++ parametersText spelling method.parameters ++ ")")
      (method.name.text ++ "(" ++ parametersText spelling' method.parameters ++ ")") := by
    cases method.parameters with
    | nil =>
      rw [parametersText, parametersText, String.append_empty, String.append_assoc]
      exact carries.none method.name
    | cons parameter parameters =>
      have whole := carries.append
        (carries.first method.name parameter.optional parameter.direction parameter.type)
        (carries.moreParameters parameter.name parameters)
      simpa only [parametersText, Parameter.write, String.append_assoc] using whole
  have whole := carries.append (carries.returns method.returns) rest
  simpa only [Method.write, String.append_assoc] using whole

variable {find : Option Char → Parser (List Char)}

/-- An edit of the header and of the methods is an edit of the component. -/
theorem replaceAll_component {component : Component}
    (head : Rewrites find (spelling.header ++ "\n" ++ component.head)
      (spelling'.header ++ "\n" ++ component.head))
    (method : ∀ method : Method,
      Rewrites find ("\n" ++ method.write spelling) ("\n" ++ method.write spelling'))
    (semicolon : Rewrites find ";" ";") (foot : Rewrites find "\n\x7d;\n" "\n\x7d;\n") :
    replaceAll find (component.write spelling).toList = (component.write spelling').toList := by
  have lines : ∀ methods, Rewrites find (methodLines spelling methods)
      (methodLines spelling' methods) := by
    intro methods
    induction methods with
    | nil => exact Turns.nil
    | cons first methods ih => exact ((method first).append semicolon).append ih
  exact Turns.replaceAll ((head.append (lines component.methods)).append foot)

end

/-! ## Edits that begin at a mark -/

theorem spares_directive : Spares (fun _ => directive) ('#' != ·) := by
  intro c other _ rest
  simp_all [directive]

theorem spares_codeBlock : Spares (fun _ => codeBlock) ('%' != ·) := by
  intro c other _ rest
  simp_all [codeBlock]

theorem spares_uuidAttribute : Spares (fun _ => uuidAttribute) (',' != ·) := by
  intro c other _ rest
  simp_all [uuidAttribute]

theorem spares_direction : Spares (fun _ => direction) (fun c => '(' != c && ',' != c) := by
  intro c other _ rest
  simp_all [direction, withText, parameterStart]

theorem spares_optionalAttribute : Spares (fun _ => optionalAttribute) ('[' != ·) := by
  intro c other _ rest
  simp_all [optionalAttribute]

theorem spares_leadingAttributes : Spares (fun _ => leadingAttributes) ('[' != ·) := by
  intro c other _ rest
  simp_all [leadingAttributes]

theorem spares_bareAttribute : Spares (fun _ => bareAttribute) ('[' != ·) := by
  intro c other _ rest
  simp_all [bareAttribute]

/-- A character at which none of these edits begins. -/
def isInert (c : Char) : Bool :=
  '#' != c && '%' != c && ',' != c && '(' != c && '[' != c

/-- The characters of words are letters, digits and low lines. -/
theorem isAsciiWord_of_isWord {text : String} (word : Grammar.isWord text = true) :
    ∀ c ∈ text.toList, isAsciiWord c = true := by
  rw [Grammar.isWord] at word
  cases chars : text.toList with
  | nil => simp
  | cons c s =>
    simp only [chars, Bool.and_eq_true, List.all_eq_true] at word
    rw [List.forall_mem_cons]
    exact ⟨by simp [isAsciiWord, Char.isAlphanum, word.1], word.2⟩

theorem Name.all (name : Name) {kind : Char → Bool}
    (words : ∀ c, isAsciiWord c = true → kind c = true) : name.text.toList.all kind = true :=
  List.all_eq_true.mpr fun c member =>
    words c (isAsciiWord_of_isWord name.isIdentifier.word c member)

theorem ne_of_isAsciiWord {c d : Char} (word : isAsciiWord c = true) (mark : isAsciiWord d = false) :
    d ≠ c := by
  rintro rfl
  simp [word] at mark

theorem isInert_of_isAsciiWord (c : Char) (word : isAsciiWord c = true) : isInert c = true := by
  simp [isInert, ne_of_isAsciiWord word (show isAsciiWord '#' = false by decide),
    ne_of_isAsciiWord word (show isAsciiWord '%' = false by decide),
    ne_of_isAsciiWord word (show isAsciiWord ',' = false by decide),
    ne_of_isAsciiWord word (show isAsciiWord '(' = false by decide),
    ne_of_isAsciiWord word (show isAsciiWord '[' = false by decide)]

/-- What an edit does to the parts that two spellings write differently, where both write arrays
    alike. -/
structure Respells (find : Option Char → Parser (List Char)) (spelling spelling' : Spelling) :
    Prop where
  spares : Spares find isInert
  array : spelling.array = "Array" ∧ spelling'.array = "Array"
  header : Rewrites find (spelling.header ++ "\n") (spelling'.header ++ "\n")
  none : Rewrites find "()" "()"
  first : ∀ optional direction,
    Rewrites find ("(" ++ spelling.lead optional direction) ("(" ++ spelling'.lead optional direction)
  next : ∀ optional direction,
    Rewrites find (", " ++ spelling.lead optional direction)
      (", " ++ spelling'.lead optional direction)

section

variable {find : Option Char → Parser (List Char)} {spelling spelling' : Spelling}

theorem Respells.name (respells : Respells find spelling spelling') (name : Name) :
    Rewrites find name.text name.text :=
  .kept respells.spares (name.all isInert_of_isAsciiWord)

theorem Respells.type (respells : Respells find spelling spelling') (type : ValueType) :
    Rewrites find (type.write spelling) (type.write spelling') := by
  cases type with
  | single name => exact respells.name name
  | array element =>
    have start : Rewrites find ("Array" ++ "<") ("Array" ++ "<") :=
      .kept respells.spares (by decide)
    have finish : Rewrites find ">" ">" := .kept respells.spares (by decide)
    rw [ValueType.write, ValueType.write, respells.array.1, respells.array.2]
    exact (start.append (respells.name element)).append finish

theorem Respells.carries (respells : Respells find spelling spelling') :
    Carries (Rewrites find) spelling spelling' := by
  have blank : Rewrites find " " " " := .kept respells.spares (by decide)
  have line : Rewrites find "\n" "\n" := .kept respells.spares (by decide)
  refine
    { append := Rewrites.append
      returns := ?_
      none := fun name => (respells.name name).append respells.none
      first := ?_
      next := ?_
      last := fun name => (respells.name name).append (.kept respells.spares (by decide)) }
  · intro type
    refine (line.append ?_).append blank
    cases type with
    | none => exact .kept (a := "void") respells.spares (by decide)
    | some type => exact respells.type type
  · intro name optional direction type
    have whole := (((respells.name name).append (respells.first optional direction)).append
      (respells.type type)).append blank
    simpa only [String.append_assoc] using whole
  · intro name optional direction type
    have whole := (((respells.name name).append (respells.next optional direction)).append
      (respells.type type)).append blank
    simpa only [String.append_assoc] using whole

/-- An edit that begins at a mark takes the text of a component to its text in another spelling. -/
theorem Respells.component (respells : Respells find spelling spelling') (component : Component) :
    replaceAll find (component.write spelling).toList = (component.write spelling').toList := by
  have text : ∀ s : String, s.toList.all isInert = true → Rewrites find s s :=
    fun s all => .kept respells.spares all
  have head : Rewrites find component.head component.head :=
    ((((text "interface " (by decide)).append (respells.name component.name)).append
      (text " : " (by decide))).append (respells.name component.parent)).append
        (text " \x7b" (by decide))
  exact replaceAll_component (respells.header.append head) respells.carries.method
    (text ";" (by decide)) (text "\n\x7d;\n" (by decide))

end

/-! ## One spelling after the other -/

namespace Spelling

/-- The spelling without the unique number. -/
def unnumbered : Spelling where
  header := "[scriptable]"
  lead := dialectLead
  array := "Array"

def undirected : Spelling :=
  { unnumbered with lead := fun optional _ => if optional then "[optional] " else "" }

/-- The spelling with the keyword of optional parameters. -/
def worded : Spelling :=
  { unnumbered with lead := fun optional _ => if optional then "optional " else "" }

def bare : Spelling :=
  { worded with header := "" }

def webIdl : Spelling :=
  { bare with array := "sequence" }

end Spelling

theorem isWord_of_isAsciiWord {c : Char} (word : isAsciiWord c = true) : isWord c = true := by
  rw [isWord, if_pos (toNat_of_isAsciiWord word), word]

theorem isAsciiWord_of_isHexDigit {c : Char} (digit : Grammar.isHexDigit c = true) :
    isAsciiWord c = true := by
  simp only [Grammar.isHexDigit, Bool.or_eq_true, Bool.and_eq_true, decide_eq_true_eq] at digit
  simp only [isAsciiWord, Char.isAlphanum, Char.isAlpha, Char.isUpper, Char.isLower,
    Bool.or_eq_true, Bool.and_eq_true, decide_eq_true_eq]
  rcases digit with (decimal | lower) | upper
  · exact .inl (.inr decimal)
  · exact .inl (.inl (.inr ⟨lower.1, Char.le_trans lower.2 (by decide)⟩))
  · exact .inl (.inl (.inl ⟨upper.1, Char.le_trans upper.2 (by decide)⟩))

@[simp] theorem isSpace_signs :
    isSpace ' ' = true ∧ isSpace '[' = false ∧ isSpace 'i' = false ∧ isSpace 'o' = false ∧
      isSpace 'u' = false := by
  decide

@[simp] theorem isWord_signs :
    isWord 'd' = true ∧ isWord 'i' = true ∧ isWord 'n' = true ∧ isWord 'o' = true ∧
      isWord 't' = true ∧ isWord 'u' = true ∧ isWord ' ' = false ∧ isWord '(' = false ∧
      isWord ')' = false ∧ isWord '[' = false ∧ isWord ']' = false := by
  decide

/-! ### Directives -/

theorem Component.all_uuid (component : Component) {kind : Char → Bool}
    (words : ∀ c, isAsciiWord c = true → kind c = true) (hyphen : kind '-' = true) :
    component.uuid.toList.all kind = true := by
  rw [List.all_eq_true]
  intro c member
  have known := List.all_eq_true.mp component.uuid_digits c member
  rw [Bool.or_eq_true, beq_iff_eq] at known
  rcases known with digit | rfl
  · exact words c (isAsciiWord_of_isHexDigit digit)
  · exact hyphen

/-- An edit that begins at none of the characters of a component does nothing. -/
theorem respells_self {find : Option Char → Parser (List Char)} {mark : Char}
    (spares : Spares find (mark != ·)) (rare : mark = '#' ∨ mark = '%') (component : Component) :
    Respells find component.spelling component.spelling where
  spares c inert := spares c (by rcases rare with rfl | rfl <;> simp_all [isInert])
  array := ⟨rfl, rfl⟩
  header := by
    refine .kept (a := "[scriptable, uuid(" ++ component.uuid ++ ")]" ++ "\n") spares ?_
    have number : component.uuid.toList.all (mark != ·) = true := by
      rcases rare with rfl | rfl
      · exact component.all_uuid
          (fun c word => by simp [ne_of_isAsciiWord word (d := '#') (by decide)]) rfl
      · exact component.all_uuid
          (fun c word => by simp [ne_of_isAsciiWord word (d := '%') (by decide)]) rfl
    simp only [String.toList_append, List.all_append, number]
    rcases rare with rfl | rfl <;> decide
  none := .kept spares (by rcases rare with rfl | rfl <;> decide)
  first optional direction := by
    refine .kept spares ?_
    change ("(" ++ dialectLead optional direction).toList.all _ = true
    rcases rare with rfl | rfl <;> cases optional <;> cases direction <;> decide
  next optional direction := by
    refine .kept spares ?_
    change (", " ++ dialectLead optional direction).toList.all _ = true
    rcases rare with rfl | rfl <;> cases optional <;> cases direction <;> decide

/-! ### The unique number -/

theorem uuidAttribute_found (component : Component) :
    Rewrites (fun _ => uuidAttribute) (", uuid(" ++ component.uuid ++ ")") "" := by
  have chars : ∀ c ∈ component.uuid.toList, (isWord c || c == '-') = true :=
    List.all_eq_true.mp (component.all_uuid (by simp +contextual [isWord_of_isAsciiWord]) (by simp))
  have number : ∀ rest, Parser.takeWhile (fun c => isWord c || c == '-')
      (component.uuid.toList ++ ')' :: rest) = some (component.uuid.toList, ')' :: rest) :=
    fun rest => takeWhile_run chars (by simp)
  simp only [Parser.takeWhile, Option.some.injEq, Prod.mk.injEq] at number
  refine .found (by simp) fun _ rest => ?_
  simp [uuidAttribute, Parser.takeWhile, number]

/-- The unique number is left out of the header, and no parameter looks like one. -/
theorem respells_uuidAttribute (component : Component) :
    Respells (fun _ => uuidAttribute) component.spelling .unnumbered where
  spares c inert := spares_uuidAttribute c (by simp_all [isInert])
  array := ⟨rfl, rfl⟩
  header := by
    have start : Rewrites (fun _ => uuidAttribute) "[scriptable" "[scriptable" :=
      .kept spares_uuidAttribute (by decide)
    have finish : Rewrites (fun _ => uuidAttribute) ("]" ++ "\n") ("]" ++ "\n") :=
      .kept spares_uuidAttribute (by decide)
    have all := (start.append (uuidAttribute_found component)).append finish
    have old : component.spelling.header ++ "\n" =
        "[scriptable" ++ (", uuid(" ++ component.uuid ++ ")") ++ ("]" ++ "\n") := by
      change "[scriptable" ++ ", uuid(" ++ component.uuid ++ (")" ++ "]") ++ "\n" = _
      simp only [String.append_assoc]
    rw [old]
    exact all
  none := .kept spares_uuidAttribute (by decide)
  first optional direction := by
    refine .kept (a := "(" ++ dialectLead optional direction) spares_uuidAttribute ?_
    cases optional <;> cases direction <;> decide
  next optional direction := by
    -- A comma stands before every parameter but the first, and no `uuid` comes after it.
    refine .passed (a := ", " ++ dialectLead optional direction) spares_uuidAttribute ?_ ?_
    · cases optional <;> cases direction <;> decide
    · intro _ rest
      cases optional <;> cases direction <;> simp [uuidAttribute, Parser.takeWhile, dialectLead]

/-! ### Directions -/

/-- The attribute of an optional parameter is a list of attributes. -/
theorem attributeList_optional (rest : List Char) :
    attributeList ("[optional] ".toList ++ rest) = some ((), rest) := by
  have name : takeWhile1 isWordOrParen ("optional".toList ++ ']' :: ' ' :: rest) =
      some ("optional".toList, ']' :: ' ' :: rest) :=
    takeWhile1_run (by decide) (List.all_eq_true.mp (by decide)) (by simp [isWordOrParen])
  have part : attributePart ("optional".toList ++ ']' :: ' ' :: rest) =
      some ((), ']' :: ' ' :: rest) := by
    rw [attributePart, orElse_apply, bind_apply, name]
    rfl
  have parts : many attributePart ("optional".toList ++ ']' :: ' ' :: rest) =
      some ([()], ']' :: ' ' :: rest) := by
    refine many_of_rounds (.one part (by simp)) ?_
    simp [attributePart, takeWhile1, isWordOrParen]
  have split : "[optional] ".toList ++ rest = '[' :: ("optional".toList ++ ']' :: ' ' :: rest) := by
    simp
  rw [split, attributeList]
  simp [-String.reduceToList, bind_apply, parts, present]

/-- What stands before a direction. -/
theorem dialectLead_eq (optional : Bool) (direction : Direction) :
    ∃ word, (word = "in " ∨ word = "out ") ∧
      dialectLead optional direction = Spelling.undirected.lead optional direction ++ word := by
  cases direction with
  | incoming => exact ⟨"in ", .inl rfl, by cases optional <;> rfl⟩
  | outgoing => exact ⟨"out ", .inr rfl, by cases optional <;> rfl⟩

theorem direction_found {start : String}
    (opens : ∀ s, (∀ c ∈ s.head?, isSpace c = false) →
      parameterStart (start.toList ++ s) = some ((), s)) (optional : Bool) (direction : Direction) :
    Rewrites (fun _ => Gecko.direction) (start ++ dialectLead optional direction)
      (start ++ Spelling.undirected.lead optional direction) := by
  obtain ⟨word, known, lead⟩ := dialectLead_eq optional direction
  rw [lead, ← String.append_assoc]
  refine .found (by rcases known with rfl | rfl <;> simp) fun _ rest => ?_
  -- The attribute of an optional parameter is passed on the way to the direction.
  have listed : ∃ b, present attributeList
      ((Spelling.undirected.lead optional direction).toList ++ (word.toList ++ rest)) =
        some (b, word.toList ++ rest) := by
    cases optional with
    | false =>
      refine ⟨false, ?_⟩
      rcases known with rfl | rfl <;> simp [Spelling.undirected, attributeList]
    | true =>
      have list := attributeList_optional (word.toList ++ rest)
      refine ⟨true, ?_⟩
      change present attributeList ("[optional] ".toList ++ _) = _
      simp only [present_apply, list, Option.isSome_some, Option.map_some, Option.getD_some]
  obtain ⟨b, listed⟩ := listed
  -- The start of a parameter takes all white space, so none may come after it.
  have solid : ∀ c ∈ ((Spelling.undirected.lead optional direction).toList ++
      (word.toList ++ rest)).head?, isSpace c = false := by
    cases optional <;> rcases known with rfl | rfl <;> simp [Spelling.undirected]
  have before : (do parameterStart; let _ ← present attributeList : Parser Unit)
      ((start ++ Spelling.undirected.lead optional direction).toList ++ (word.toList ++ rest)) =
        some ((), word.toList ++ rest) := by
    rw [String.toList_append, List.append_assoc, bind_apply, opens _ solid, Option.bind_some,
      bind_apply, listed]
    rfl
  rw [String.toList_append, List.append_assoc, Gecko.direction, bind_apply, withText_append before]
  rcases known with rfl | rfl <;> simp

theorem respells_direction : Respells (fun _ => direction) .unnumbered .undirected where
  spares c inert := spares_direction c (by simp_all [isInert])
  array := ⟨rfl, rfl⟩
  header := .kept (a := "[scriptable]\n") spares_direction (by decide)
  none := by
    refine .passed spares_direction (by decide) fun _ rest => ?_
    simp [direction, withText, parameterStart, attributeList]
  first := direction_found fun s _ => by simp [parameterStart]
  next := by
    refine direction_found fun s solid => ?_
    have blanks : takeWhile isSpace ([' '] ++ s) = some ([' '], s) :=
      takeWhile_run (by simp) solid
    simp only [List.singleton_append] at blanks
    simp [parameterStart, blanks]

/-! ### Attributes -/

/-- The edit of the attribute of an optional parameter, after the character before it. -/
theorem optionalAttribute_found {start : String} (start_kept : start.toList.all ('[' != ·) = true)
    (optional : Bool) (direction : Direction) :
    Rewrites (fun _ => optionalAttribute) (start ++ Spelling.undirected.lead optional direction)
      (start ++ Spelling.worded.lead optional direction) := by
  refine Rewrites.append (.kept spares_optionalAttribute start_kept) ?_
  cases optional with
  | false => exact Turns.nil
  | true =>
    have blank : Rewrites (fun _ => optionalAttribute) " " " " :=
      .kept spares_optionalAttribute (by decide)
    have word : Rewrites (fun _ => optionalAttribute) "[optional]" "optional" := by
      refine .found (by decide) fun _ rest => ?_
      simp [optionalAttribute]
    have old : "[optional] " = "[optional]" ++ " " := by decide
    have new : "optional " = "optional" ++ " " := by decide
    change Rewrites _ "[optional] " "optional "
    rw [old, new]
    exact word.append blank

theorem respells_optionalAttribute : Respells (fun _ => optionalAttribute) .undirected .worded where
  spares c inert := spares_optionalAttribute c (by simp_all [isInert])
  array := ⟨rfl, rfl⟩
  header := by
    refine .passed (a := "[scriptable]\n") spares_optionalAttribute (by decide) fun _ rest => ?_
    simp [optionalAttribute]
  none := .kept spares_optionalAttribute (by decide)
  first := optionalAttribute_found (by decide)
  next := optionalAttribute_found (by decide)

/-- Without its bracket an optional parameter is left alone. -/
theorem worded_kept {find : Option Char → Parser (List Char)} (spares : Spares find ('[' != ·))
    {start : String} (start_kept : start.toList.all ('[' != ·) = true) (optional : Bool)
    (direction : Direction) :
    Rewrites find (start ++ Spelling.worded.lead optional direction)
      (start ++ Spelling.worded.lead optional direction) := by
  refine Rewrites.append (.kept spares start_kept) (.kept spares ?_)
  change (if optional then "optional " else "").toList.all _ = true
  cases optional <;> decide

/-- The header has no blank after its bracket, so it is left alone. -/
theorem respells_leadingAttributes : Respells (fun _ => leadingAttributes) .worded .worded where
  spares c inert := spares_leadingAttributes c (by simp_all [isInert])
  array := ⟨rfl, rfl⟩
  header := by
    refine .passed (a := "[scriptable]\n") spares_leadingAttributes (by decide) fun _ rest => ?_
    have list : takeWhile (fun c => isWordOrParen c || c == ',' || isSpace c)
        ("scriptable".toList ++ ']' :: '\n' :: rest) =
          some ("scriptable".toList, ']' :: '\n' :: rest) :=
      takeWhile_run (List.all_eq_true.mp (by decide))
        (by simp [isWordOrParen, show isSpace ']' = false by decide])
    have split : "[scriptable]\n".toList ++ rest =
        '[' :: ("scriptable".toList ++ ']' :: '\n' :: rest) := by
      simp
    have mark : exactly "] ".toList (']' :: '\n' :: rest) = none := by simp
    rw [split, leadingAttributes]
    simp [-String.reduceToList, list, mark]
  none := .kept spares_leadingAttributes (by decide)
  first := worded_kept spares_leadingAttributes (by decide)
  next := worded_kept spares_leadingAttributes (by decide)

theorem respells_bareAttribute : Respells (fun _ => bareAttribute) .worded .bare where
  spares c inert := spares_bareAttribute c (by simp_all [isInert])
  array := ⟨rfl, rfl⟩
  header := by
    have dropped : Rewrites (fun _ => bareAttribute) "[scriptable]" "" := by
      refine .found (by decide) fun _ rest => ?_
      have name : takeWhile isWordOrParen ("scriptable".toList ++ ']' :: rest) =
          some ("scriptable".toList, ']' :: rest) :=
        takeWhile_run (List.all_eq_true.mp (by decide)) (by simp [isWordOrParen])
      have split : "[scriptable]".toList ++ rest = '[' :: ("scriptable".toList ++ ']' :: rest) := by
        simp
      rw [split, bareAttribute]
      simp [-String.reduceToList, name]
    exact dropped.append (.kept spares_bareAttribute (by decide))
  none := .kept spares_bareAttribute (by decide)
  first := worded_kept spares_bareAttribute (by decide)
  next := worded_kept spares_bareAttribute (by decide)

/-! ## Edits that begin with a letter -/

/-- A find of such an edit runs through characters of a class up to a mark.  A text without the mark
    and with a character outside the class at its end is left alone. -/
theorem Rewrites.stopped {find : Option Char → Parser (List Char)} {mark : Char}
    {inside : Char → Bool}
    (reaches : ∀ {before s x rest}, find before s = some (x, rest) →
      ∃ u v, s = u ++ mark :: v ∧ ∀ c ∈ u, inside c = true) {s t : String}
    (missing : (s ++ t).toList.all (mark != ·) = true)
    (stops : t.toList.getLast?.any (fun c => !inside c) = true) : Rewrites find (s ++ t) (s ++ t) := by
  refine turns_of_stops reaches (fun member => ?_) fun c last => ?_
  · simpa using List.all_eq_true.mp missing _ member
  · cases ends : t.toList.getLast? with
    | none => simp [ends] at stops
    | some d =>
      rw [String.toList_append, List.getLast?_append, ends] at last
      simp_all

/-! ### Forward declarations -/

/-- A forward declaration is made of words and blanks up to its semicolon. -/
theorem forwardDeclaration_reaches {s x rest : List Char}
    (found : forwardDeclaration s = some (x, rest)) :
    ∃ u v, s = u ++ ';' :: v ∧ ∀ c ∈ u, (isWord c || c == ' ') = true := by
  simp only [forwardDeclaration, bind_apply, Option.bind_eq_some_iff, takeWhile,
    Option.some.injEq, exists_eq_left'] at found
  obtain ⟨⟨u, t⟩, keyword, ⟨v, after⟩, semicolon, -⟩ := found
  rw [eq_append_of_exactly keyword]
  refine ⟨"interface ".toList ++ t.takeWhile isWord, after, ?_, ?_⟩
  · rw [List.append_assoc, ← List.singleton_append, ← eq_append_of_exactly semicolon,
      List.takeWhile_append_dropWhile]
  · rw [List.forall_mem_append]
    refine ⟨List.all_eq_true.mp (by decide), fun c member => ?_⟩
    rw [List.mem_takeWhile_imp member, Bool.true_or]

theorem Name.lacks (name : Name) {mark : Char} (other : isAsciiWord mark = false) :
    name.text.toList.all (mark != ·) = true :=
  name.all fun c word => by simp [ne_of_isAsciiWord word other]

/-- There is no semicolon inside a method. -/
theorem no_semicolon (component : Component) :
    Carries (fun a _ => a.toList.all (';' != ·) = true) component.spelling component.spelling := by
  have word : ∀ name : Name, name.text.toList.all (';' != ·) = true :=
    fun name => name.lacks (by decide)
  have type : ∀ type : ValueType,
      (type.write component.spelling).toList.all (';' != ·) = true := by
    intro type
    cases type with
    | single name => exact word name
    | array element =>
      change ("Array" ++ "<" ++ element.text ++ ">").toList.all _ = true
      simp only [String.toList_append, List.all_append, word]
      decide
  have lead : ∀ optional direction,
      (component.spelling.lead optional direction).toList.all (';' != ·) = true := by
    intro optional direction
    change (dialectLead optional direction).toList.all _ = true
    cases optional <;> cases direction <;> decide
  -- The relation looks at one of the two texts only.
  refine
    { append := fun first second => by
        rw [String.toList_append, List.all_append, first, second, Bool.and_self]
      returns := fun returned => ?_
      none := fun name => ?_
      first := fun name optional direction value => ?_
      next := fun name optional direction value => ?_
      last := fun name => ?_ }
  · cases returned with
    | none =>
      change ("\n" ++ "void" ++ " ").toList.all _ = true
      decide
    | some value =>
      simp only [returnText, String.toList_append, List.all_append, type]
      decide
  · simp only [String.toList_append, List.all_append, word]
    decide
  · simp only [String.toList_append, List.all_append, word, lead, type]
    decide
  · simp only [String.toList_append, List.all_append, word, lead, type]
    decide
  · simp only [String.toList_append, List.all_append, word]
    decide

/-- A component declares nothing forward. -/
theorem nameForwardDeclarations_source (component : Component) :
    nameForwardDeclarations component.source.toList = component.source.toList := by
  have spares : Spares (fun _ => forwardDeclaration) ('i' != ·) := by
    intro c other _ rest
    simp_all [forwardDeclaration]
  -- Each part lacks a semicolon and ends in a mark, over which no find runs into the next part.
  refine replaceAll_component ?_ (fun method => ?_) (.kept spares (by decide))
    (.kept spares (by decide))
  · have number : component.uuid.toList.all (';' != ·) = true :=
      component.all_uuid (fun c word => by simp [ne_of_isAsciiWord word (d := ';') (by decide)]) rfl
    have word : ∀ name : Name, name.text.toList.all (';' != ·) = true :=
      fun name => name.lacks (by decide)
    rw [Component.head, ← String.append_assoc]
    refine .stopped forwardDeclaration_reaches ?_ (by decide)
    change ("[scriptable, uuid(" ++ component.uuid ++ ")]" ++ "\n" ++
      ("interface " ++ component.name.text ++ " : " ++ component.parent.text) ++ " \x7b").toList.all
        _ = true
    simp only [String.toList_append, List.all_append, number, word]
    decide
  · have missing := (no_semicolon component).method method
    rw [Method.write, ← String.append_assoc] at missing ⊢
    exact .stopped forwardDeclaration_reaches missing (by decide)

/-! ### Arrays -/

/-- An array is made of the letters of its name up to its bracket. -/
theorem array_reaches {before : Option Char} {s x rest : List Char}
    (found : array before s = some (x, rest)) :
    ∃ u v, s = u ++ '<' :: v ∧ ∀ c ∈ u, "Array".toList.contains c = true := by
  rw [array] at found
  split at found
  · cases found
  simp only [bind_apply, pure_apply, Option.bind_eq_some_iff] at found
  obtain ⟨⟨u, t⟩, keyword, -⟩ := found
  rw [eq_append_of_exactly keyword]
  exact ⟨"Array".toList, t, by simp, List.all_eq_true.mp (by decide)⟩

theorem spares_array : Spares array ('A' != ·) := by
  intro c other before rest
  rw [array]
  split
  · rfl
  · simp_all

/-- After a mark an array becomes a sequence. -/
theorem array_found {s : String} {d : Char} (last : s.toList.getLast? = some d)
    (mark : isWord d = false) (kept : Rewrites array s s) (name : Name) :
    Rewrites array (s ++ ("Array" ++ "<" ++ name.text ++ ">"))
      (s ++ ("sequence" ++ "<" ++ name.text ++ ">")) := by
  have word : ∀ rest, takeWhile isWord (name.text.toList ++ '>' :: rest) =
      some (name.text.toList, '>' :: rest) := by
    intro rest
    refine takeWhile_run (List.all_eq_true.mp (name.all fun c => isWord_of_isAsciiWord)) ?_
    simp [show isWord '>' = false by decide]
  have split : ("Array" ++ "<" ++ name.text ++ ">").toList =
      'A' :: ("rray<".toList ++ name.text.toList ++ ['>']) := by
    simp
  rw [Rewrites, String.toList_append, split, String.toList_append]
  refine Turns.found_after kept last fun rest => ?_
  simp [array, mark, word]

/-- The type after a mark. -/
theorem array_type {s t : String} (missing : (s ++ t).toList.all ('<' != ·) = true)
    (stops : t.toList.getLast?.any (fun c => !isWord c) = true) (type : ValueType) :
    Rewrites array (s ++ t ++ type.write .bare ++ " ") (s ++ t ++ type.write .webIdl ++ " ") := by
  cases type with
  | single name =>
    -- The name may end in `Array`, but no bracket follows it.
    refine .stopped (s := s ++ t ++ name.text) array_reaches ?_ (by decide)
    rw [String.toList_append, String.toList_append, List.all_append, List.all_append, missing,
      name.lacks (by decide)]
    decide
  | array element =>
    have blank : Rewrites array " " " " := .kept spares_array (by decide)
    cases ends : t.toList.getLast? with
    | none => simp [ends] at stops
    | some d =>
      have mark : isWord d = false := by simpa [ends] using stops
      -- No find begins before the mark and runs over it: the mark is no letter of `Array`.
      have outside : "Array".toList.contains d = false := by
        have letters : "Array".toList.all isWord = true := by decide
        rw [List.contains_eq_mem, decide_eq_false_iff_not]
        intro member
        simp [List.all_eq_true.mp letters d member] at mark
      have last : (s ++ t).toList.getLast? = some d := by
        rw [String.toList_append, List.getLast?_append, ends, Option.some_or]
      have kept : Rewrites array (s ++ t) (s ++ t) :=
        .stopped array_reaches missing (by simpa [ends] using outside)
      exact (array_found last mark kept element).append blank

/-- The start of a parameter and its type. -/
theorem array_parameter (name : Name) {mark : String} (missing : mark.toList.all ('<' != ·) = true)
    (stops : mark.toList.getLast?.any (fun c => !isWord c) = true) (optional : Bool)
    (direction : Direction) (type : ValueType) :
    Rewrites array (name.text ++ mark ++ Spelling.bare.lead optional direction ++
        type.write .bare ++ " ")
      (name.text ++ mark ++ Spelling.webIdl.lead optional direction ++
        type.write .webIdl ++ " ") := by
  have before : (name.text ++ mark).toList.all ('<' != ·) = true := by
    rw [String.toList_append, List.all_append, name.lacks (by decide), missing, Bool.and_self]
  cases optional with
  | false =>
    change Rewrites array (name.text ++ mark ++ "" ++ _ ++ _) (name.text ++ mark ++ "" ++ _ ++ _)
    rw [String.append_empty]
    exact array_type before stops type
  | true =>
    refine array_type (t := "optional ") ?_ (by decide) type
    rw [String.toList_append, List.all_append, before]
    decide

/-- Arrays become sequences in the types of a component. -/
theorem sequenceArrays_bare (component : Component) :
    sequenceArrays (component.write .bare).toList = (component.write .webIdl).toList := by
  have word : ∀ name : Name, name.text.toList.all ('<' != ·) = true :=
    fun name => name.lacks (by decide)
  have carries : Carries (Rewrites array) .bare .webIdl := by
    refine
      { append := Rewrites.append
        returns := fun returned => ?_
        none := fun name => .stopped array_reaches ?_ (by decide)
        first := fun name => array_parameter name (by decide) (by decide)
        next := fun name => array_parameter name (by decide) (by decide)
        last := fun name => .stopped array_reaches ?_ (by decide) }
    · cases returned with
      | none => exact .stopped (s := "\n" ++ "void") array_reaches (by decide) (by decide)
      | some type =>
        have after := array_type (s := "") (t := "\n") (by decide) (by decide) type
        rwa [String.empty_append] at after
    · rw [String.toList_append, List.all_append, word]
      decide
    · rw [String.toList_append, List.all_append, word]
      decide
  refine replaceAll_component ?_ carries.method (.kept spares_array (by decide))
    (.kept spares_array (by decide))
  rw [Component.head, ← String.append_assoc]
  refine .stopped array_reaches ?_ (by decide)
  change ("" ++ "\n" ++ ("interface " ++ component.name.text ++ " : " ++ component.parent.text) ++
    " \x7b").toList.all _ = true
  simp only [String.toList_append, List.all_append, word]
  decide

/-! ## All together -/

/-- The mended text of a component is its text in WebIDL, with the prelude after it. -/
theorem mend_source (component : Component) :
    mend component.source.toList = (component.write .webIdl).toList ++ '\n' :: prelude.toList := by
  have directives : dropDirectives component.source.toList = component.source.toList := by
    rw [dropDirectives, Component.source,
      (respells_self spares_directive (.inl rfl) component).component component,
      (respells_self spares_codeBlock (.inr rfl) component).component component]
  have numbers : dropUuids component.source.toList = (component.write .unnumbered).toList :=
    (respells_uuidAttribute component).component component
  have directions : dropDirections (component.write .unnumbered).toList =
      (component.write .undirected).toList :=
    respells_direction.component component
  have attributes : dropAttributes (component.write .undirected).toList =
      (component.write .bare).toList := by
    simp only [dropAttributes, respells_optionalAttribute.component component,
      respells_leadingAttributes.component component, respells_bareAttribute.component component]
  rw [mend, directives, nameForwardDeclarations_source, numbers, directions, attributes,
    sequenceArrays_bare]

end IdlTypings.Dialect.Gecko
