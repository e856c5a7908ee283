import Mathlib
import IdlTypings.Proofs.ParserRules
import IdlTypings.Proofs.TypeNormalForm
import IdlTypings.TypeScript.Printer

/-! # Printed declarations can be read back

A reader of the language that `print` writes.  It looks only at what comes next, so the printed text
of a type, a signature or a declaration has one reading: its normal form.

* `typeReader` reads types.  A function type reaches as far as it can; inside a union it stands
  between parentheses;
* `signatureReader` and `declarationReader` read the rest of the language;
* `typeReader_text` and `declarationReader_text` say that the reader finds the normal form of what
  was printed, and `print_unambiguous` draws the conclusion.
-/

namespace IdlTypings.TypeScript

open IdlTypings.Parser

/-! ## The reader -/

def nameReader : Parser String := do
  let name ← takeWhile1 isNameChar
  return String.ofList name

/-- One character of a string literal, perhaps escaped. -/
def literalChar : Parser Char := do
  let c ← satisfy (· != '\"')
  if c == '\\' then
    let c ← satisfy fun _ => true
    return if c == 'n' then '\n' else if c == 'r' then '\r' else if c == 't' then '\t' else c
  else return c

def literalReader : Parser String := do
  exactly ['\"']
  let text ← many literalChar
  exactly ['\"']
  return String.ofList text

/-- Type arguments, if there are any. -/
def argumentsReader (type : Parser TypeExpr) : Parser (List TypeExpr) := fun
  | '<' :: s => (do
      let arguments ← sepBy1 type (exactly ", ".toList)
      exactly ['>']
      return arguments : Parser (List TypeExpr)) s
  | s => some ([], s)

/-- A name with its type arguments. -/
def referenceReader (type : Parser TypeExpr) : Parser Reference := do
  let name ← nameReader
  let arguments ← argumentsReader type
  return ⟨name, arguments⟩

def parameterReader (type : Parser TypeExpr) : Parser Parameter := do
  let name ← nameReader
  let optional ← present (exactly ['?'])
  exactly ": ".toList
  let type ← type
  return .mk name optional type

def parametersReader (type : Parser TypeExpr) : Parser (List Parameter) := do
  exactly ['(']
  let parameters ← sepBy (parameterReader type) (exactly ", ".toList)
  exactly [')']
  return parameters

def functionReader (type : Parser TypeExpr) : Parser TypeExpr := do
  let parameters ← parametersReader type
  exactly " => ".toList
  let returns ← type
  return .function parameters returns

/-- One alternative of a union, told by its first character. -/
def alternativeReader (type : Parser TypeExpr) : Parser TypeExpr := fun
  | '\"' :: s => (do let text ← literalReader; return .literal text : Parser TypeExpr) ('\"' :: s)
  | '(' :: s => (do let type ← functionReader type; exactly [')']; return type : Parser TypeExpr) s
  | s => (do
      let reference ← referenceReader type
      return .reference reference.name reference.arguments : Parser TypeExpr) s

/-- A type: a function type, or a union of one or more alternatives. -/
def typeOver (type : Parser TypeExpr) : Parser TypeExpr :=
  firstOf [functionReader type, do
    let alternatives ← sepBy1 (alternativeReader type) (exactly " | ".toList)
    return unionOf alternatives]

/-- A type that nests at most the given number of levels. -/
def typeReader : (levels : Nat) → Parser TypeExpr
  | 0 => failure
  | levels + 1 => typeOver (typeReader levels)

/-! ## Names and literals -/

/-- A text that does not go on with a name. -/
def EndsName (rest : List Char) : Prop :=
  ∀ c ∈ rest.head?, isNameChar c = false

/-- A text that does not go on with a name or its type arguments. -/
def Stops (rest : List Char) : Prop :=
  ∀ c ∈ rest.head?, isNameChar c = false ∧ c ≠ '<'

/-- A text that goes on after a type: with the end of what the type stands in, or a comma. -/
def Follows (rest : List Char) : Prop :=
  ∃ c s, rest = c :: s ∧ c ∈ [',', ')', ';', '>']

theorem endsName_cons {c : Char} (notName : isNameChar c = false) (s : List Char) :
    EndsName (c :: s) := by
  intro d head
  obtain rfl : c = d := by simpa using head
  exact notName

theorem stops_cons {c : Char} (notName : isNameChar c = false) (notOpen : c ≠ '<')
    (s : List Char) : Stops (c :: s) := by
  intro d head
  obtain rfl : c = d := by simpa using head
  exact ⟨notName, notOpen⟩

theorem Stops.endsName {rest : List Char} (stops : Stops rest) : EndsName rest :=
  fun c head => (stops c head).1

theorem Follows.stops {rest : List Char} (follows : Follows rest) : Stops rest := by
  obtain ⟨c, s, rfl, member⟩ := follows
  fin_cases member <;> exact stops_cons (by decide) (by decide) s

theorem Follows.not_bar {rest : List Char} (follows : Follows rest) :
    exactly " | ".toList rest = none := by
  obtain ⟨c, s, rfl, member⟩ := follows
  fin_cases member <;> simp

theorem nameReader_append {name : String} (isName : IsName name) {rest : List Char}
    (ended : EndsName rest) : nameReader (name.toList ++ rest) = some (name, rest) := by
  rw [nameReader, bind_apply, takeWhile1_run isName.1 isName.2 ended]
  simp

/-- No name begins with another character. -/
theorem nameReader_none {c : Char} (notName : isNameChar c = false) (s : List Char) :
    nameReader (c :: s) = none := by
  simp [nameReader, takeWhile1, notName]

theorem literalChar_escape (c : Char) (rest : List Char) :
    literalChar (escape c ++ rest) = some (c, rest) := by
  unfold escape
  simp only [beq_iff_eq]
  split_ifs with quotes slash feed ret tab
  · simp [literalChar, quotes]
  · simp [literalChar, slash]
  · simp [literalChar, feed]
  · simp [literalChar, ret]
  · simp [literalChar, tab]
  · simp [literalChar, quotes, slash]

theorem escape_ne_nil (c : Char) : escape c ≠ [] := by
  unfold escape
  split_ifs <;> simp

theorem rounds_literalChar (s rest : List Char) :
    Rounds literalChar (s.flatMap escape ++ rest) s rest :=
  rounds_flatMap literalChar_escape escape_ne_nil s rest

theorem literalReader_text (s : String) (rest : List Char) :
    literalReader ((literalText s).toList ++ rest) = some (s, rest) := by
  have stops : literalChar ('\"' :: rest) = none := by simp [literalChar]
  have body := many_of_rounds (rounds_literalChar s.toList ('\"' :: rest)) stops
  simp [literalReader, literalText, body]

/-! ## Types -/

mutual

/-- How many levels of the reader a type needs. -/
def TypeExpr.height : TypeExpr → Nat
  | .keyword _ | .literal _ => 1
  | .reference _ arguments => heightTypes arguments + 1
  | .union members => heightTypes members
  | .function parameters returns => max (heightParameters parameters) returns.height + 1

/-- How many levels some types need. -/
def heightTypes : List TypeExpr → Nat
  | [] => 1
  | type :: types => max type.height (heightTypes types)

/-- How many levels the types of some parameters need. -/
def heightParameters : List Parameter → Nat
  | [] => 0
  | .mk _ _ type :: parameters => max type.height (heightParameters parameters)

end

/-- The text of a type as a member of a union. -/
def TypeExpr.memberText (type : TypeExpr) : List Char :=
  (parenthesizedIf type.isFunction type.text).toList

theorem membersText_cons (type : TypeExpr) (types : List TypeExpr) :
    (membersText (type :: types)).toList =
      " | ".toList ++ (type.memberText ++ (membersText types).toList) := by
  simp [membersText, TypeExpr.memberText]

theorem memberText_union (first : TypeExpr) (others : List TypeExpr) :
    (TypeExpr.union (first :: others)).memberText =
      first.memberText ++ (membersText others).toList := by
  simp [TypeExpr.memberText, TypeExpr.text, TypeExpr.isFunction, parenthesizedIf]

theorem memberText_literal (text : String) :
    (TypeExpr.literal text).memberText = '\"' :: (text.toList.flatMap escape ++ ['\"']) := by
  simp [TypeExpr.memberText, TypeExpr.text, TypeExpr.isFunction, parenthesizedIf, literalText]

theorem memberText_function (parameters : List Parameter) (returns : TypeExpr) :
    (TypeExpr.function parameters returns).memberText =
      '(' :: '(' :: ((parametersText parameters).toList ++
        (") => ".toList ++ (returns.text.toList ++ [')']))) := by
  simp [TypeExpr.memberText, TypeExpr.text, TypeExpr.isFunction, parenthesizedIf]

theorem keyword_isName (word : Keyword) : IsName word.spelling := by
  cases word <;> simp [IsName, Keyword.spelling, isNameChar]

/-- A text that begins like a member of a union: not like a function type. -/
def OpensMember (s : List Char) : Prop :=
  ∃ c t, s = c :: t ∧ (c ≠ '(' ∨ ∃ u, t = '(' :: u)

theorem OpensMember.append {s : List Char} (opens : OpensMember s) (rest : List Char) :
    OpensMember (s ++ rest) := by
  obtain ⟨c, t, rfl, ordinary | ⟨u, rfl⟩⟩ := opens
  · exact ⟨c, t ++ rest, rfl, .inl ordinary⟩
  · exact ⟨c, '(' :: (u ++ rest), rfl, .inr ⟨_, rfl⟩⟩

theorem opensMember_name {name : String} (isName : IsName name) : OpensMember name.toList := by
  cases text : name.toList with
  | nil => exact absurd text isName.1
  | cons c s =>
    refine ⟨c, s, rfl, .inl ?_⟩
    rintro rfl
    exact absurd (isName.2 '(' (by simp [text])) (by decide)

theorem opensMember_memberText : ∀ {type : TypeExpr}, type.WellFormed →
    OpensMember type.memberText
  | .keyword word, _ => opensMember_name (keyword_isName word)
  | .reference name [], wellFormed => opensMember_name wellFormed.1
  | .reference name (first :: others), wellFormed => by
    have opens := (opensMember_name wellFormed.1).append
      ("<".toList ++ (first.text.toList ++ ((argumentsText others).toList ++ ">".toList)))
    simpa [TypeExpr.memberText, TypeExpr.text, TypeExpr.isFunction, parenthesizedIf] using opens
  | .union (first :: others), wellFormed => by
    rw [memberText_union]
    exact (opensMember_memberText wellFormed.2.1).append _
  | .union [], wellFormed => absurd rfl wellFormed.1
  | .literal text, _ => by
    rw [memberText_literal]
    exact ⟨'\"', _, rfl, .inl (by decide)⟩
  | .function parameters returns, _ => by
    rw [memberText_function]
    exact ⟨'(', _, rfl, .inr ⟨_, rfl⟩⟩

/-- What begins like a member of a union is no function type. -/
theorem functionReader_none {s : List Char} (opens : OpensMember s) (type : Parser TypeExpr) :
    functionReader type s = none := by
  obtain ⟨c, t, rfl, ordinary | ⟨u, rfl⟩⟩ := opens
  · simp [functionReader, parametersReader, ordinary.symm]
  · by_cases open' : c = '('
    · subst c
      have nameless := nameReader_none (c := '(') (by decide) u
      simp [functionReader, parametersReader, sepBy, sepBy1, parameterReader, nameless]
    · simp [functionReader, parametersReader, Ne.symm open']

/-- The first of some rounds reads what stands after the separator. -/
theorem sepBy1_of_separated {α : Type} {p : Parser α} {sep s u : List Char} {xs : List α}
    (rounds : Rounds (do exactly sep; p) (sep ++ s) xs u) (longer : u.length < (sep ++ s).length)
    (fails : exactly sep u = none) : sepBy1 p (exactly sep) s = some (xs, u) := by
  cases rounds with
  | done => omega
  | round reads shorter others =>
    simp only [bind_apply, exactly_append, Option.bind_some] at reads
    exact sepBy1_of_rounds reads others fails

theorem argumentsReader_stops {rest : List Char} (stops : Stops rest) (type : Parser TypeExpr) :
    argumentsReader type rest = some ([], rest) := by
  cases rest with
  | nil => rfl
  | cons c rest =>
    have notOpen := (stops c rfl).2
    simp [argumentsReader, notOpen]

theorem alternativeReader_name {name : String} (isName : IsName name) (type : Parser TypeExpr)
    (rest : List Char) :
    alternativeReader type (name.toList ++ rest) =
      (do
        let reference ← referenceReader type
        return .reference reference.name reference.arguments : Parser TypeExpr)
        (name.toList ++ rest) := by
  cases text : name.toList with
  | nil => exact absurd text isName.1
  | cons c s =>
    have isNameHead := isName.2 c (by simp [text])
    rw [List.cons_append, alternativeReader]
    · intro t equal
      obtain ⟨rfl, -⟩ := List.cons.inj equal
      exact absurd isNameHead (by decide)
    · intro t equal
      obtain ⟨rfl, -⟩ := List.cons.inj equal
      exact absurd isNameHead (by decide)

theorem follows_cons {c : Char} (member : c ∈ [',', ')', ';', '>']) (s : List Char) :
    Follows (c :: s) :=
  ⟨c, s, rfl, member⟩

theorem follows_argumentsText (types : List TypeExpr) {rest : List Char} (follows : Follows rest) :
    Follows ((argumentsText types).toList ++ rest) := by
  cases types with
  | nil => simpa [argumentsText] using follows
  | cons type types => exact ⟨',', _, by simp [argumentsText]; rfl, by simp⟩

theorem follows_moreParametersText (parameters : List Parameter) {rest : List Char}
    (follows : Follows rest) : Follows ((moreParametersText parameters).toList ++ rest) := by
  cases parameters with
  | nil => simpa [moreParametersText] using follows
  | cons parameter parameters => exact ⟨',', _, by simp [moreParametersText]; rfl, by simp⟩

theorem stops_membersText (types : List TypeExpr) {rest : List Char} (stops : Stops rest) :
    Stops ((membersText types).toList ++ rest) := by
  cases types with
  | nil => simpa [membersText] using stops
  | cons type types =>
    rw [membersText_cons]
    exact stops_cons (by decide) (by decide) _

/-- A type that is no function type is read by way of its alternatives. -/
theorem typeOver_of_rounds {type : TypeExpr} {p : Parser TypeExpr} {rest : List Char}
    (single : type.isFunction = false) (wellFormed : type.WellFormed) (follows : Follows rest)
    (rounds : Rounds (do exactly " | ".toList; alternativeReader p)
      (" | ".toList ++ (type.memberText ++ rest)) type.normalize.alternatives rest) :
    typeOver p (type.text.toList ++ rest) = some (type.normalize, rest) := by
  have text : type.memberText = type.text.toList := by
    simp [TypeExpr.memberText, parenthesizedIf, single]
  have opens := (opensMember_memberText wellFormed).append rest
  have alternatives := sepBy1_of_separated rounds
    (by simp only [List.length_append]; simp; omega) follows.not_bar
  rw [text] at opens alternatives
  rw [typeOver, firstOf_cons_apply, functionReader_none opens, Option.none_or, firstOf_cons_apply,
    bind_apply, alternatives]
  simp [unionOf_alternatives_normalize]

theorem parameterReader_text {name : String} (isName : IsName name) (optional : Bool)
    {type : TypeExpr} {p : Parser TypeExpr} {rest : List Char}
    (reads : p (type.text.toList ++ rest) = some (type.normalize, rest)) :
    parameterReader p ((Parameter.mk name optional type).text.toList ++ rest) =
      some ((Parameter.mk name optional type).normalize, rest) := by
  cases optional with
  | false =>
    have name := nameReader_append isName
      (endsName_cons (c := ':') (by decide) (' ' :: (type.text.toList ++ rest)))
    simp [parameterReader, Parameter.text, optionalMark, name, reads, Parameter.normalize]
  | true =>
    have name := nameReader_append isName
      (endsName_cons (c := '?') (by decide) (':' :: ' ' :: (type.text.toList ++ rest)))
    simp [parameterReader, Parameter.text, optionalMark, name, reads, Parameter.normalize]

theorem argumentsReader_open {p : Parser TypeExpr} {first : TypeExpr} {others : List TypeExpr}
    {rest : List Char}
    (reads : p (first.text.toList ++ ((argumentsText others).toList ++ '>' :: rest)) =
      some (first.normalize, (argumentsText others).toList ++ '>' :: rest))
    (rounds : Rounds (do exactly ", ".toList; p) ((argumentsText others).toList ++ '>' :: rest)
      (normalizeTypes others) ('>' :: rest)) :
    argumentsReader p
      ('<' :: (first.text.toList ++ ((argumentsText others).toList ++ '>' :: rest))) =
      some (normalizeTypes (first :: others), rest) := by
  have arguments := sepBy1_of_rounds reads rounds (by simp)
  rw [argumentsReader, bind_apply, arguments]
  simp [normalizeTypes]

/-- A member that is one alternative takes one round. -/
theorem rounds_alternative {p : Parser TypeExpr} {text rest : List Char} {type : TypeExpr}
    (reads : alternativeReader p (text ++ rest) = some (type, rest)) :
    Rounds (do exactly " | ".toList; alternativeReader p) (" | ".toList ++ (text ++ rest)) [type]
      rest :=
  .separated reads (by decide) .done

theorem reference_text (name : String) (arguments : List TypeExpr) :
    ∃ tail, (TypeExpr.reference name arguments).text.toList = name.toList ++ tail := by
  cases arguments <;> simp [TypeExpr.text]

theorem heightTypes_pos (types : List TypeExpr) : 1 ≤ heightTypes types := by
  induction types with
  | nil => exact Nat.le_refl 1
  | cons type types ih => exact Nat.le_trans ih (Nat.le_max_right _ _)

theorem height_pos (type : TypeExpr) : 1 ≤ type.height := by
  cases type with
  | keyword _ | reference _ _ | literal _ | function _ _ => simp [TypeExpr.height]
  | union members => exact heightTypes_pos members

mutual

/-- A printed type is read as its normal form. -/
theorem typeReader_text : ∀ (type : TypeExpr) {levels : Nat} {rest : List Char},
    type.WellFormed → type.height ≤ levels → Follows rest →
    typeReader levels (type.text.toList ++ rest) = some (type.normalize, rest)
  | type, 0, rest, _, high, _ => absurd (height_pos type) (by omega)
  | .function parameters returns, levels + 1, rest, wellFormed, high, follows => by
    simp only [TypeExpr.height, Nat.add_le_add_iff_right, Nat.max_le] at high
    -- A function type runs as far to the right as it can, so it is no alternative of a union.
    have read := functionReader_text parameters returns wellFormed.1 wellFormed.2 high.1 high.2
      follows
    rw [typeReader, typeOver, firstOf_cons_apply, read]
    rfl
  | .keyword _, levels + 1, rest, wellFormed, high, follows
  | .reference _ _, levels + 1, rest, wellFormed, high, follows
  | .union _, levels + 1, rest, wellFormed, high, follows
  | .literal _, levels + 1, rest, wellFormed, high, follows =>
    typeOver_of_rounds rfl wellFormed follows (rounds_memberText _ wellFormed high follows.stops)
termination_by type => (sizeOf type, 2)

/-- The text of a reference is read as its name and the normal forms of its arguments. -/
theorem referenceReader_text : ∀ (name : String) (arguments : List TypeExpr) {levels : Nat}
    {rest : List Char}, IsName name → WellFormedTypes arguments → heightTypes arguments ≤ levels →
    Stops rest →
    referenceReader (typeReader levels) ((TypeExpr.reference name arguments).text.toList ++ rest) =
      some (⟨name, normalizeTypes arguments⟩, rest)
  | name, [], levels, rest, isName, _, _, stops => by
    have read := nameReader_append isName stops.endsName
    simp [referenceReader, TypeExpr.text, read, argumentsReader_stops stops, normalizeTypes]
  | name, first :: others, levels, rest, isName, wellFormed, high, _ => by
    simp only [heightTypes, Nat.max_le] at high
    have closing : Follows ('>' :: rest) := follows_cons (by simp) rest
    have head := typeReader_text first wellFormed.1 high.1 (follows_argumentsText others closing)
    have tail := rounds_argumentsText others wellFormed.2 high.2 closing
    have read := nameReader_append isName (endsName_cons (c := '<') (by decide)
      (first.text.toList ++ ((argumentsText others).toList ++ '>' :: rest)))
    simp [referenceReader, TypeExpr.text, read, argumentsReader_open head tail]
termination_by _ arguments => (sizeOf arguments, 0)

/-- Parameters between parentheses are read as their normal forms. -/
theorem parametersReader_text : ∀ (parameters : List Parameter) {levels : Nat} (rest : List Char),
    WellFormedParameters parameters → heightParameters parameters ≤ levels →
    parametersReader (typeReader levels)
      ('(' :: ((parametersText parameters).toList ++ ')' :: rest)) =
      some (normalizeParameters parameters, rest)
  | [], levels, rest, _, _ => by
    have nameless := nameReader_none (c := ')') (by decide)
    simp [parametersReader, parametersText, sepBy, sepBy1, parameterReader, nameless,
      normalizeParameters]
  | .mk name optional type :: parameters, levels, rest, wellFormed, high => by
    simp only [heightParameters, Nat.max_le] at high
    have closing : Follows (')' :: rest) := follows_cons (by simp) rest
    have head := parameterReader_text wellFormed.1.1 optional
      (typeReader_text type wellFormed.1.2 high.1 (follows_moreParametersText parameters closing))
    have tail := rounds_moreParametersText parameters wellFormed.2 high.2 closing
    have all := sepBy1_of_rounds head tail (by simp)
    simp at all
    simp [parametersReader, parametersText, sepBy, all, normalizeParameters]
termination_by parameters => (sizeOf parameters, 0)

theorem functionReader_text : ∀ (parameters : List Parameter) (returns : TypeExpr) {levels : Nat}
    {rest : List Char}, WellFormedParameters parameters → returns.WellFormed →
    heightParameters parameters ≤ levels → returns.height ≤ levels → Follows rest →
    functionReader (typeReader levels)
      ((TypeExpr.function parameters returns).text.toList ++ rest) =
      some ((TypeExpr.function parameters returns).normalize, rest)
  | parameters, returns, levels, rest, wellFormedAll, wellFormed, highAll, high, follows => by
    have inputs := parametersReader_text parameters (" => ".toList ++ (returns.text.toList ++ rest))
      wellFormedAll highAll
    have result := typeReader_text returns wellFormed high follows
    simp at inputs
    simp [functionReader, TypeExpr.text, inputs, result, TypeExpr.normalize]
termination_by parameters returns => (1 + sizeOf parameters + sizeOf returns, 0)

theorem rounds_argumentsText : ∀ (types : List TypeExpr) {levels : Nat} {rest : List Char},
    WellFormedTypes types → heightTypes types ≤ levels → Follows rest →
    Rounds (do exactly ", ".toList; typeReader levels)
      ((argumentsText types).toList ++ rest) (normalizeTypes types) rest
  | [], _, rest, _, _, _ => by
    simpa [argumentsText, normalizeTypes] using Rounds.done
  | type :: types, levels, rest, wellFormed, high, follows => by
    simp only [heightTypes, Nat.max_le] at high
    have head := typeReader_text type wellFormed.1 high.1 (follows_argumentsText types follows)
    have tail := rounds_argumentsText types wellFormed.2 high.2 follows
    have text : (argumentsText (type :: types)).toList ++ rest =
        ", ".toList ++ (type.text.toList ++ ((argumentsText types).toList ++ rest)) := by
      simp [argumentsText]
    rw [text]
    exact .separated head (by decide) tail
termination_by types => (sizeOf types, 0)

theorem rounds_moreParametersText : ∀ (parameters : List Parameter) {levels : Nat}
    {rest : List Char}, WellFormedParameters parameters → heightParameters parameters ≤ levels →
    Follows rest →
    Rounds (do exactly ", ".toList; parameterReader (typeReader levels))
      ((moreParametersText parameters).toList ++ rest) (normalizeParameters parameters) rest
  | [], _, rest, _, _, _ => by
    simpa [moreParametersText, normalizeParameters] using Rounds.done
  | .mk name optional type :: parameters, levels, rest, wellFormed, high, follows => by
    simp only [heightParameters, Nat.max_le] at high
    have head := parameterReader_text wellFormed.1.1 optional
      (typeReader_text type wellFormed.1.2 high.1 (follows_moreParametersText parameters follows))
    have tail := rounds_moreParametersText parameters wellFormed.2 high.2 follows
    have text : (moreParametersText (.mk name optional type :: parameters)).toList ++ rest =
        ", ".toList ++ ((Parameter.mk name optional type).text.toList ++
          ((moreParametersText parameters).toList ++ rest)) := by
      simp [moreParametersText]
    rw [text]
    exact .separated head (by decide) tail
termination_by parameters => (sizeOf parameters, 0)

/-- A member of a union is read as its alternatives, after a separator. -/
theorem rounds_memberText : ∀ (type : TypeExpr) {levels : Nat} {rest : List Char},
    type.WellFormed → type.height ≤ levels + 1 → Stops rest →
    Rounds (do exactly " | ".toList; alternativeReader (typeReader levels))
      (" | ".toList ++ (type.memberText ++ rest)) type.normalize.alternatives rest
  | .keyword word, levels, rest, _, _, stops => by
    have read := nameReader_append (keyword_isName word) stops.endsName
    apply rounds_alternative
    change alternativeReader _ (word.spelling.toList ++ rest) = _
    rw [alternativeReader_name (keyword_isName word)]
    simp [referenceReader, read, argumentsReader_stops stops, TypeExpr.normalize]
  | .reference name arguments, levels, rest, wellFormed, high, stops => by
    have read := referenceReader_text name arguments wellFormed.1 wellFormed.2
      (Nat.le_of_succ_le_succ high) stops
    apply rounds_alternative
    change alternativeReader _ ((TypeExpr.reference name arguments).text.toList ++ rest) = _
    obtain ⟨tail, text⟩ := reference_text name arguments
    rw [text, List.append_assoc] at read ⊢
    rw [alternativeReader_name wellFormed.1]
    simp [read, TypeExpr.normalize]
  | .union [], levels, rest, wellFormed, high, stops => absurd rfl wellFormed.1
  | .union (first :: others), levels, rest, wellFormed, high, stops => by
    -- The members of an inner union are rounds of the outer one, as its normal form has them.
    have read := rounds_membersText (first :: others) wellFormed.2 high stops
    rw [membersText_cons] at read
    rw [memberText_union, alternatives_normalize_union]
    simpa only [List.append_assoc] using read
  | .literal text, levels, rest, _, _, _ => by
    have read := literalReader_text text rest
    apply rounds_alternative
    rw [memberText_literal]
    simp [literalText] at read
    simp [alternativeReader, read, TypeExpr.normalize]
  | .function parameters returns, levels, rest, wellFormed, high, _ => by
    simp only [TypeExpr.height, Nat.add_le_add_iff_right, Nat.max_le] at high
    -- Among other members a function stands in parentheses, and the closing one ends it.
    have read := functionReader_text parameters returns wellFormed.1 wellFormed.2 high.1 high.2
      (follows_cons (c := ')') (by simp) rest)
    apply rounds_alternative
    rw [memberText_function]
    simp [TypeExpr.text] at read
    simp [alternativeReader, read]
termination_by type => (sizeOf type, 1)

theorem rounds_membersText : ∀ (types : List TypeExpr) {levels : Nat} {rest : List Char},
    WellFormedTypes types → heightTypes types ≤ levels + 1 → Stops rest →
    Rounds (do exactly " | ".toList; alternativeReader (typeReader levels))
      ((membersText types).toList ++ rest) (normalizeMembers types) rest
  | [], _, rest, _, _, _ => by
    simpa [membersText, normalizeMembers] using Rounds.done
  | type :: types, levels, rest, wellFormed, high, stops => by
    simp only [heightTypes, Nat.max_le] at high
    have head := rounds_memberText type wellFormed.1 high.1 (stops_membersText types stops)
    have tail := rounds_membersText types wellFormed.2 high.2 stops
    rw [membersText_cons, normalizeMembers]
    simpa only [List.append_assoc] using head.append tail
termination_by types => (sizeOf types, 0)

end

/-! ## Signatures -/

/-- A member of an interface.  A construct signature is told from a method of the same name by the
    blank before its parameters. -/
def signatureReader (type : Parser TypeExpr) : Parser Signature :=
  firstOf [
    do
      exactly "new ".toList
      let parameters ← parametersReader type
      exactly [';']
      return .construct parameters,
    do
      let name ← nameReader
      let parameters ← parametersReader type
      exactly ": ".toList
      let returns ← type
      exactly [';']
      return .method name parameters returns,
    do
      let readonly ← present (exactly "readonly ".toList)
      let .mk name optional type ← parameterReader type
      exactly [';']
      return .property name readonly optional type]

/-- How many levels of the reader the types of a member need. -/
def Signature.height : Signature → Nat
  | .property _ _ _ type => type.height
  | .method _ parameters returns => max (heightParameters parameters) returns.height
  | .construct parameters => heightParameters parameters

/-- A name that goes on neither as a name nor with a blank is no word before a blank. -/
theorem exactly_word_none {w name : String} (isWord : IsName w) (isName : IsName name)
    {c : Char} (notName : isNameChar c = false) (notBlank : c ≠ ' ') (s : List Char) :
    exactly (w.toList ++ [' ']) (name.toList ++ c :: s) = none := by
  cases found : exactly (w.toList ++ [' ']) (name.toList ++ c :: s) with
  | none => rfl
  | some reading =>
    obtain ⟨⟨⟩, t⟩ := reading
    have same := eq_append_of_exactly found
    rw [List.append_assoc, List.singleton_append] at same
    -- The name and the word are each the longest run of name characters at the start.
    have names := nameReader_append isName (endsName_cons notName s)
    have words := nameReader_append isWord (endsName_cons (c := ' ') (by decide) t)
    rw [same, words] at names
    simp only [Option.some.injEq, Prod.mk.injEq, List.cons.injEq] at names
    exact absurd names.2.1.symm notBlank

/-- A name before a parenthesis or a colon is not the `new` of a construct signature. -/
theorem not_new {name : String} (isName : IsName name) {c : Char} (notName : isNameChar c = false)
    (notBlank : c ≠ ' ') (s : List Char) :
    exactly ['n', 'e', 'w', ' '] (name.toList ++ c :: s) = none := by
  simpa using exactly_word_none (w := "new") (by simp [IsName, isNameChar]) isName notName
    notBlank s

/-- A name before a colon is not the mark of a read-only property. -/
theorem not_readonly {name : String} (isName : IsName name) {c : Char}
    (notName : isNameChar c = false) (notBlank : c ≠ ' ') (s : List Char) :
    exactly ['r', 'e', 'a', 'd', 'o', 'n', 'l', 'y', ' '] (name.toList ++ c :: s) = none := by
  simpa using exactly_word_none (w := "readonly") (by simp [IsName, isNameChar]) isName notName
    notBlank s

/-- After its name a parameter goes on with its own mark or a colon. -/
theorem parameter_text (name : String) (optional : Bool) (type : TypeExpr) :
    ∃ c s, (Parameter.mk name optional type).text.toList = name.toList ++ c :: s ∧
      isNameChar c = false ∧ c ≠ ' ' ∧ c ≠ '(' := by
  cases optional with
  | false => exact ⟨':', ' ' :: type.text.toList, by simp [Parameter.text, optionalMark], by decide⟩
  | true =>
    exact ⟨'?', ':' :: ' ' :: type.text.toList, by simp [Parameter.text, optionalMark], by decide⟩

theorem property_text (name : String) (readonly optional : Bool) (type : TypeExpr) :
    (Signature.property name readonly optional type).text.toList =
      (if readonly then "readonly ".toList else []) ++
        ((Parameter.mk name optional type).text.toList ++ [';']) := by
  cases readonly <;> simp [Signature.text, Parameter.text]

/-- The text of a member is read as its normal form. -/
theorem signatureReader_text {signature : Signature} (wellFormed : signature.WellFormed)
    {levels : Nat} (high : signature.height ≤ levels) (rest : List Char) :
    signatureReader (typeReader levels) (signature.text.toList ++ rest) =
      some (signature.normalize, rest) := by
  have ending : Follows (';' :: rest) := follows_cons (by simp) rest
  cases signature with
  | construct parameters =>
    have inputs := parametersReader_text parameters (';' :: rest) wellFormed high
    simp [signatureReader, firstOf_cons_apply, Signature.text, inputs, Signature.normalize]
  | method name parameters returns =>
    obtain ⟨isName, wellFormedAll, wellFormed⟩ := wellFormed
    simp only [Signature.height, Nat.max_le] at high
    have result := typeReader_text returns wellFormed high.2 ending
    have inputs := parametersReader_text parameters
      (':' :: ' ' :: (returns.text.toList ++ ';' :: rest)) wellFormedAll high.1
    -- A method may be called `new`, but no blank follows its name.
    have notNew := not_new isName (c := '(') (by decide) (by decide)
    have named := fun s => nameReader_append isName (endsName_cons (c := '(') (by decide) s)
    simp [signatureReader, firstOf_cons_apply, Signature.text, notNew, named, inputs, result,
      Signature.normalize]
  | property name readonly optional type =>
    obtain ⟨isName, wellFormed⟩ := wellFormed
    have reads := parameterReader_text isName optional (typeReader_text type wellFormed high ending)
    obtain ⟨c, s, text, notName, notBlank, notOpen⟩ := parameter_text name optional type
    rw [property_text, List.append_assoc, List.append_assoc, List.singleton_append]
    cases readonly with
    | true =>
      -- Read as the name of a method, `readonly` would have a parenthesis behind it.
      have isWord : IsName "readonly" := by simp [IsName, isNameChar]
      have named := nameReader_append isWord (endsName_cons (c := ' ') (by decide)
        ((Parameter.mk name optional type).text.toList ++ ';' :: rest))
      simp at named
      simp [signatureReader, firstOf_cons_apply, named, parametersReader, reads, Parameter.normalize,
        Signature.normalize]
    | false =>
      rw [text, List.append_assoc, List.cons_append] at reads ⊢
      have named := nameReader_append isName (endsName_cons notName (s ++ ';' :: rest))
      simp [signatureReader, firstOf_cons_apply, not_new isName notName notBlank,
        not_readonly isName notName notBlank, named, parametersReader, notOpen.symm, reads,
        Parameter.normalize, Signature.normalize]

/-! ## Declarations -/

/-- What an interface extends. -/
def heritageReader (type : Parser TypeExpr) : Parser (List Reference) :=
  firstOf [
    do exactly " extends ".toList; sepBy1 (referenceReader type) (exactly ", ".toList),
    pure []]

def bodyLineReader (type : Parser TypeExpr) : Parser Signature := do
  exactly "    ".toList
  let signature ← signatureReader type
  exactly ['\n']
  return signature

/-- A declaration, told by its first word. -/
def declarationReader (type : Parser TypeExpr) : Parser Declaration :=
  firstOf [
    do
      exactly "interface ".toList
      let name ← nameReader
      let heritage ← heritageReader type
      exactly " \x7b\n".toList
      let members ← many (bodyLineReader type)
      exactly ['\x7d']
      return .interface name heritage members,
    do
      exactly "type ".toList
      let name ← nameReader
      exactly " = ".toList
      let type ← type
      exactly [';']
      return .alias name type,
    do
      let declare ← present (exactly "declare ".toList)
      exactly "var ".toList
      let name ← nameReader
      exactly ": ".toList
      let type ← type
      exactly [';']
      return .variable name type declare]

def declarationLineReader (type : Parser TypeExpr) : Parser Declaration := do
  let declaration ← declarationReader type
  exactly ['\n']
  return declaration

/-- How many levels of the reader a declaration needs, at most. -/
def Declaration.height : Declaration → Nat
  | .interface _ heritage members =>
    (heritage.map fun reference => heightTypes reference.arguments).sum +
      (members.map Signature.height).sum
  | .alias _ type | .variable _ type _ => type.height

def moreReferencesText : List Reference → List Char
  | [] => []
  | reference :: references =>
    ", ".toList ++ (reference.text.toList ++ moreReferencesText references)

theorem intercalate_references (reference : Reference) (references : List Reference) :
    [',', ' '].intercalate
        (reference.text.toList :: references.map (String.toList ∘ Reference.text)) =
      reference.text.toList ++ moreReferencesText references := by
  induction references generalizing reference with
  | nil => simp [moreReferencesText]
  | cons second references ih =>
    rw [List.map_cons, List.intercalate_cons_cons, Function.comp_apply, ih]
    simp [moreReferencesText]

theorem heritageText_cons (reference : Reference) (references : List Reference) :
    (heritageText (reference :: references)).toList =
      " extends ".toList ++ (reference.text.toList ++ moreReferencesText references) := by
  simp [heritageText, intercalate_references]

theorem stops_moreReferencesText (references : List Reference) {rest : List Char}
    (stops : Stops rest) : Stops (moreReferencesText references ++ rest) := by
  cases references with
  | nil => exact stops
  | cons reference references => exact stops_cons (by decide) (by decide) _

theorem rounds_moreReferencesText {references : List Reference}
    (wellFormed : ∀ reference ∈ references, reference.WellFormed) {levels : Nat}
    (high : ∀ reference ∈ references, heightTypes reference.arguments ≤ levels)
    {rest : List Char} (stops : Stops rest) :
    Rounds (do exactly ", ".toList; referenceReader (typeReader levels))
      (moreReferencesText references ++ rest) (references.map Reference.normalize) rest := by
  induction references with
  | nil => exact .done
  | cons reference references ih =>
    simp only [List.forall_mem_cons] at wellFormed high
    have head := referenceReader_text reference.name reference.arguments wellFormed.1.1
      wellFormed.1.2 high.1 (stops_moreReferencesText references stops)
    rw [moreReferencesText, List.append_assoc, List.append_assoc]
    exact .separated head (by decide) (ih wellFormed.2 high.2)

theorem heritageReader_text {heritage : List Reference}
    (wellFormed : ∀ reference ∈ heritage, reference.WellFormed) {levels : Nat}
    (high : ∀ reference ∈ heritage, heightTypes reference.arguments ≤ levels) (rest : List Char) :
    heritageReader (typeReader levels) ((heritageText heritage).toList ++ ' ' :: '\x7b' :: rest) =
      some (heritage.map Reference.normalize, ' ' :: '\x7b' :: rest) := by
  cases heritage with
  | nil => simp [heritageReader, heritageText, firstOf_cons_apply]
  | cons reference references =>
    simp only [List.forall_mem_cons] at wellFormed high
    have stops : Stops (' ' :: '\x7b' :: rest) := stops_cons (by decide) (by decide) _
    have first := referenceReader_text reference.name reference.arguments wellFormed.1.1
      wellFormed.1.2 high.1 (stops_moreReferencesText references stops)
    have others := rounds_moreReferencesText wellFormed.2 high.2 stops
    have all := sepBy1_of_rounds first others (by simp)
    rw [heritageText_cons, List.append_assoc, List.append_assoc, heritageReader,
      firstOf_cons_apply, bind_apply, exactly_append, Option.bind_some]
    simp only [Reference.text, all]
    rfl

theorem endsName_heritageText (heritage : List Reference) (rest : List Char) :
    EndsName ((heritageText heritage).toList ++ ' ' :: rest) := by
  cases heritage with
  | nil => exact endsName_cons (by decide) rest
  | cons reference references =>
    rw [heritageText_cons]
    exact endsName_cons (by decide) _

theorem rounds_bodyText {members : List Signature}
    (wellFormed : ∀ member ∈ members, member.WellFormed) {levels : Nat}
    (high : ∀ member ∈ members, member.height ≤ levels) (rest : List Char) :
    Rounds (bodyLineReader (typeReader levels)) ((bodyText members).toList ++ rest)
      (members.map Signature.normalize) rest := by
  induction members with
  | nil => exact .done
  | cons member members ih =>
    simp only [List.forall_mem_cons] at wellFormed high
    have head := signatureReader_text wellFormed.1 high.1
      ('\n' :: ((bodyText members).toList ++ rest))
    refine .round ?_ ?_ (ih wellFormed.2 high.2)
    · simp [bodyLineReader, bodyText, head]
    · simp [bodyText]
      omega

/-- The text of a declaration is read as its normal form. -/
theorem declarationReader_text {declaration : Declaration} (wellFormed : declaration.WellFormed)
    {levels : Nat} (high : declaration.height ≤ levels) (rest : List Char) :
    declarationReader (typeReader levels) (declaration.text.toList ++ rest) =
      some (declaration.normalize, rest) := by
  have ending : Follows (';' :: rest) := follows_cons (by simp) rest
  match declaration with
  | .interface name heritage members =>
    obtain ⟨isName, wellFormedHeritage, wellFormedMembers⟩ := wellFormed
    simp only [Declaration.height] at high
    -- The height is a sum over the parts, so each part has enough levels.
    have highHeritage : ∀ reference ∈ heritage, heightTypes reference.arguments ≤ levels := by
      intro reference member
      have := List.le_sum_of_mem
        (List.mem_map_of_mem (f := fun reference => heightTypes reference.arguments) member)
      omega
    have highMembers : ∀ member ∈ members, member.height ≤ levels := by
      intro member found
      have := List.le_sum_of_mem (List.mem_map_of_mem (f := Signature.height) found)
      omega
    have extended := heritageReader_text wellFormedHeritage highHeritage
    have body := many_of_rounds (rounds_bodyText wellFormedMembers highMembers ('\x7d' :: rest))
      (by simp [bodyLineReader])
    have named := fun s => nameReader_append isName (endsName_heritageText heritage s)
    simp [declarationReader, firstOf_cons_apply, Declaration.text, named, extended, body,
      Declaration.normalize]
  | .alias name type =>
    have read := typeReader_text type wellFormed.2 high ending
    have named := fun s => nameReader_append wellFormed.1 (endsName_cons (c := ' ') (by decide) s)
    simp [declarationReader, firstOf_cons_apply, Declaration.text, named, read,
      Declaration.normalize]
  | .variable name type declare =>
    have read := typeReader_text type wellFormed.2 high ending
    have named := fun s => nameReader_append wellFormed.1 (endsName_cons (c := ':') (by decide) s)
    cases declare <;> simp [declarationReader, firstOf_cons_apply, Declaration.text, named, read,
      Declaration.normalize]

theorem rounds_print {declarations : List Declaration}
    (wellFormed : ∀ declaration ∈ declarations, declaration.WellFormed) {levels : Nat}
    (high : ∀ declaration ∈ declarations, declaration.height ≤ levels) :
    Rounds (declarationLineReader (typeReader levels)) (print declarations).toList
      (declarations.map Declaration.normalize) [] := by
  induction declarations with
  | nil => exact .done
  | cons declaration declarations ih =>
    simp only [List.forall_mem_cons] at wellFormed high
    have head := declarationReader_text wellFormed.1 high.1
      ('\n' :: (print declarations).toList)
    refine .round ?_ ?_ (ih wellFormed.2 high.2)
    · simp [declarationLineReader, print, head]
    · simp [print]
      omega

/-- Printed declarations are read as their normal forms. -/
theorem read_print {declarations : List Declaration}
    (wellFormed : ∀ declaration ∈ declarations, declaration.WellFormed) {levels : Nat}
    (high : (declarations.map Declaration.height).sum ≤ levels) :
    many (declarationLineReader (typeReader levels)) (print declarations).toList =
      some (declarations.map Declaration.normalize, []) := by
  refine many_of_rounds (rounds_print wellFormed ?_) rfl
  intro declaration member
  have := List.le_sum_of_mem (List.mem_map_of_mem (f := Declaration.height) member)
  omega

/-- Declarations with the same text have the same normal forms. -/
theorem print_unambiguous {first second : List Declaration}
    (wellFormedFirst : ∀ declaration ∈ first, declaration.WellFormed)
    (wellFormedSecond : ∀ declaration ∈ second, declaration.WellFormed)
    (same : print first = print second) :
    first.map Declaration.normalize = second.map Declaration.normalize := by
  have readFirst := read_print wellFormedFirst
    (Nat.le_add_right _ (second.map Declaration.height).sum)
  have readSecond := read_print wellFormedSecond
    (Nat.le_add_left _ (first.map Declaration.height).sum)
  rw [same, readSecond] at readFirst
  simpa using readFirst.symm

/-- A method called `new` beside a construct signature, and a union that ends in a function type
    whose result is a union. -/
def unionsOnTheRight : List Declaration := [
  .interface "new" [⟨"Base", [.keyword .string]⟩] [
    .construct [.mk "new" true (.union [.union [.keyword .number], .literal "\" | \n"])],
    .method "new" [] (.function [] (.union [.named "A", .union [.named "B", .named "C"]])),
    .property "readonly" true true (.union [.function [] (.keyword .void), .named "D"])]]

/-- The same, built in another way. -/
def unionsOnTheLeft : List Declaration := [
  .interface "new" [⟨"Base", [.named "string"]⟩] [
    .construct [.mk "new" true (.union [.named "number", .literal "\" | \n"])],
    .method "new" [] (.function [] (.union [.union [.named "A", .named "B"], .named "C"])),
    .property "readonly" true true (.union [.union [.function [] (.named "void")], .named "D"])]]

theorem print_unambiguous_nested_unions :
    print unionsOnTheRight = print unionsOnTheLeft ∧
      unionsOnTheRight.map Declaration.normalize = unionsOnTheLeft.map Declaration.normalize := by
  have same : print unionsOnTheRight = print unionsOnTheLeft := by decide +kernel
  refine ⟨same, print_unambiguous ?_ ?_ same⟩
  · simp [unionsOnTheRight, Declaration.WellFormed, Reference.WellFormed, Signature.WellFormed,
      TypeExpr.named, TypeExpr.WellFormed, WellFormedTypes, WellFormedParameters,
      Parameter.WellFormed, IsName, isNameChar]
  · simp [unionsOnTheLeft, Declaration.WellFormed, Reference.WellFormed, Signature.WellFormed,
      TypeExpr.named, TypeExpr.WellFormed, WellFormedTypes, WellFormedParameters,
      Parameter.WellFormed, IsName, isNameChar]

end IdlTypings.TypeScript
