import Mathlib
import IdlTypings.Proofs.StatementBorder

/-! # The grammar at a border

Each production of the grammar where a statement begins on a new line behind anything.

* Literals, brackets and whatever begins or ends with a word of the grammar seal: they are read in
  front of the border only.
* A type or a name may be a word of the tail, and takes one.
* A member or a statement ends with a semicolon.  The tail has its first one behind three words, and
  no form that is not sealed takes three: `seals_interfaceMember`, `seals_dictionaryMember`,
  `seals_definitionForm`.

The one statement that takes three words of the tail is its own.  It begins behind the border, so a
statement that begins before it stays before it.
-/

namespace IdlTypings.Grammar.Tail

open IdlTypings.Parser

variable {α β : Type} {tail : Tail}

/-! ## Terminal forms -/

theorem stops_lexeme {eats : Bool} {p : Parser α} (lexeme : Lexeme eats p) : tail.Stops p := by
  induction lexeme with
  | pure x => exact stops_pure x
  | satisfy line => exact stops_satisfy (by simpa using (Bool.and_eq_true_iff.mp line).2)
  | takeWhile line => exact stops_takeWhile (by simpa using (Bool.and_eq_true_iff.mp line).2)
  | notFollowedBy test => exact stops_notFollowedBy test
  | bind _ _ first second => exact stops_bind first second
  | orElse _ _ first second => exact stops_orElse first second

theorem seals_failure {a : Nat} : tail.Seals a (failure : Parser α) := by
  intro i s t x few stands found
  cases found

/-- A terminal form passes no word behind the border, and seals if it reads something. -/
theorem terminal_border {eats : Bool} {p : Parser α} (terminal : Terminal eats p) :
    (eats = true → tail.Seals 4 p) ∧ tail.Takes 0 p := by
  have sealed {α : Type} {eats : Bool} {p : Parser α} (seals : tail.Seals 4 p) :
      (eats = true → tail.Seals 4 p) ∧ tail.Takes 0 p :=
    ⟨fun _ => seals, seals.takes⟩
  induction terminal with
  | pure x => exact ⟨fun eats => absurd eats (by decide), takes_pure x⟩
  | failure => exact sealed seals_failure
  | token lexeme foreign => exact sealed (seals_token_of_first (stops_lexeme lexeme) foreign)
  | keyword foreign => exact sealed (seals_keyword foreign)
  | bind _ _ first second =>
    refine ⟨fun eats => ?_, takes_bind first.2 fun x => (second x).2⟩
    rcases Bool.or_eq_true_iff.mp eats with early | late
    · exact seals_then (first.1 early) fun x => (second x).2
    · exact seals_after first.2.tracks fun x => (second x).1 late
  | orElse _ _ first second =>
    refine ⟨fun eats => ?_, takes_orElse first.2 second.2⟩
    obtain ⟨left, right⟩ := Bool.and_eq_true_iff.mp eats
    exact seals_orElse (first.1 left) (second.1 right)

theorem seals_terminal {p : Parser α} (terminal : Terminal true p) : tail.Seals 4 p :=
  (terminal_border terminal).1 rfl

theorem takes_terminal {eats : Bool} {p : Parser α} (terminal : Terminal eats p) :
    tail.Takes 0 p :=
  (terminal_border terminal).2

theorem seals_word {w : String} (foreign : isForeignWord w = true) (x : α) :
    tail.Seals 4 (do keyword w; return x) :=
  seals_terminal (.word foreign x)

theorem seals_stringLiteral : tail.Seals 4 stringLiteral := by
  refine seals_token_of_first stops_quoted fun c first s => ?_
  have other : '\"' ≠ c := by
    rintro rfl
    exact absurd first (by decide)
  simp [other]

theorem seals_defaultValue : tail.Seals 4 defaultValue :=
  seals_orElse (seals_then (seals_terminal terminal_booleanLiteral) fun _ => takes_pure _) <|
  seals_orElse
    (seals_after (seals_symbol (by decide)).tracks fun _ =>
      seals_then (seals_symbol (by decide)) fun _ =>
      takes_pure _) <|
  seals_orElse
    (seals_after (seals_symbol (by decide)).tracks fun _ =>
      seals_then (seals_symbol (by decide)) fun _ =>
      takes_pure _) <|
  seals_orElse (seals_then (seals_terminal terminal_floatLiteral) fun _ => takes_pure _) <|
  seals_orElse (seals_then (seals_terminal terminal_integerLiteral) fun _ => takes_pure _) <|
  seals_orElse (seals_word (by decide) _) <|
  seals_then seals_stringLiteral fun _ => takes_pure _

/-! ## Brackets -/

section

variable {p : Parser α}

/-- Whatever is read between brackets, the closing one is in front of the border. -/
theorem seals_between {left right : String} (opens : isForeignMark left = true)
    (closes : isForeignMark right = true) (inner : tail.Moves 4 4 p) :
    tail.Seals 4 (do symbol left; let x ← p; symbol right; return x) :=
  seals_after (seals_symbol opens).tracks fun _ =>
  seals_after inner fun _ =>
  seals_then (seals_symbol closes) fun _ =>
  takes_pure _

theorem seals_parenthesized (inner : tail.Moves 4 4 p) : tail.Seals 4 (parenthesized p) :=
  seals_between (by decide) (by decide) inner

theorem seals_bracketed (inner : tail.Moves 4 4 p) : tail.Seals 4 (bracketed p) :=
  seals_between (by decide) (by decide) inner

theorem seals_angled (inner : tail.Moves 4 4 p) : tail.Seals 4 (angled p) :=
  seals_between (by decide) (by decide) inner

/-- Members seal from a place in front of the tail, which is where the bracket leaves off. -/
theorem seals_braced_many (member : tail.Seals 1 p) : tail.Seals 4 (braced (many p)) :=
  seals_bind (seals_symbol (by decide)) fun _ =>
    Seals.moves
      (seals_after (moves_many (member.moves (Nat.le_refl 1))) fun _ =>
        (seals_then (seals_symbol (by decide)) fun _ => takes_pure _).mono (by decide))
      (Nat.le_refl 1)

end

/-! ## Types without brackets -/

theorem seals_maybeNull {p : Parser α} {f : α → Bool → β} (seals : tail.Seals 4 p) :
    tail.Seals 4 (do return f (← p) (← nullable)) :=
  seals_then seals fun _ => takes_bind (takes_terminal terminal_nullable) fun _ => takes_pure _

theorem takes_named {f : String → Bool → β} :
    tail.Takes 1 (do return f (← identifier) (← nullable)) :=
  takes_bind takes_identifier fun _ => takes_bind (takes_terminal terminal_nullable) fun _ => takes_pure _

theorem takes_constType : tail.Takes 1 constType :=
  takes_orElse (seals_maybeNull (seals_terminal terminal_integerType)).takes <|
  takes_orElse (seals_maybeNull (seals_terminal terminal_floatType)).takes <|
  takes_orElse (seals_terminal (terminal_typeWord (by decide))).takes <|
  takes_orElse (seals_terminal (terminal_typeWord (by decide))).takes <|
  takes_orElse (seals_terminal (terminal_typeWord (by decide))).takes <|
  takes_named

/-! ## One level over another -/

/-- A level whose parsers take no more than a word of the tail. -/
structure Borders (tail : Tail) (level : Nested) : Prop where
  type : tail.Takes 1 level.type
  nonAny : tail.Takes 1 level.nonAny
  union : tail.Seals 4 level.union
  attributes : tail.Seals 4 level.attributes

section

variable {level : Nested}

theorem takes_returnForm {type : Parser TypeForm} (takes : tail.Takes 1 type) :
    tail.Takes 1 (returnForm type) :=
  takes_orElse (seals_word (by decide) _).takes (takes_bind takes fun _ => takes_pure _)

theorem takes_recordKey {nonAny : Parser NonAnyType} (takes : tail.Takes 1 nonAny) :
    tail.Takes 1 (recordKey nonAny) :=
  takes_orElse (seals_word (by decide) _).takes <|
  takes_orElse (seals_word (by decide) _).takes <|
  takes_orElse (seals_word (by decide) _).takes <|
  takes_bind takes fun _ => takes_pure _

/-- A generic name and the types between its brackets. -/
theorem seals_generic {w : String} {p : Parser α} {f : α → Bool → β}
    (foreign : isForeignWord w = true) (inner : tail.Moves 4 4 p) :
    tail.Seals 4 (do keyword w; let x ← angled p; return f x (← nullable)) :=
  seals_after (seals_keyword foreign).tracks fun _ => seals_maybeNull (seals_angled inner)

theorem takes_nonAnyType (borders : tail.Borders level) : tail.Takes 1 (nonAnyType level) :=
  takes_orElse
    (Seals.takes <| seals_after (seals_keyword (by decide)).tracks fun _ =>
      seals_then (seals_angled (takes_returnForm borders.type).tracks) fun _ => takes_pure _) <|
  takes_orElse (seals_maybeNull (seals_terminal terminal_integerType)).takes <|
  takes_orElse (seals_maybeNull (seals_terminal terminal_floatType)).takes <|
  takes_orElse (seals_terminal (terminal_builtInOf _)).takes <|
  takes_orElse (seals_generic (by decide) borders.type.tracks).takes <|
  takes_orElse (seals_terminal (terminal_builtInOf _)).takes <|
  takes_orElse (seals_generic (by decide) borders.type.tracks).takes <|
  takes_orElse
    (Seals.takes <| seals_generic (f := fun (key, value) => NonAnyType.record key value) (by decide) <|
      moves_bind (takes_recordKey borders.nonAny).tracks fun _ =>
      moves_bind (seals_symbol (by decide)).tracks fun _ =>
      moves_bind borders.type.tracks fun _ =>
      moves_pure _ (Nat.le_refl 4)) <|
  takes_named

theorem moves_unionMember (borders : tail.Borders level) :
    tail.Moves 4 4 (unionMember level) :=
  moves_orElse
    (moves_bind (takes_optional borders.attributes).tracks fun _ =>
      moves_bind borders.nonAny.tracks fun _ =>
      moves_pure _ (Nat.le_refl 4)) <|
  (seals_maybeNull borders.union).tracks

theorem seals_unionType (borders : tail.Borders level) : tail.Seals 4 (unionType level) :=
  seals_parenthesized (moves_sepBy (moves_unionMember borders) (seals_keyword (by decide)).tracks)

theorem takes_typeForm {nonAny : Parser NonAnyType} {union : Parser (List UnionMember)}
    (single : tail.Takes 1 nonAny) (several : tail.Seals 4 union) :
    tail.Takes 1 (typeForm nonAny union) :=
  takes_orElse (seals_word (by decide) _).takes <|
  takes_orElse (takes_bind single fun _ => takes_pure _) <|
  (seals_maybeNull several).takes

theorem takes_attributedType (borders : tail.Borders level) :
    tail.Takes 1 (attributedType level) :=
  takes_bind (takes_optional borders.attributes) fun _ =>
  takes_bind borders.type fun _ =>
  takes_pure _

theorem seals_default : tail.Seals 4 default :=
  seals_after (seals_symbol (by decide)).tracks fun _ => seals_defaultValue

theorem moves_argument (borders : tail.Borders level) : tail.Moves 4 4 (argument level) := by
  refine moves_bind (takes_optional borders.attributes).tracks fun _ => moves_orElse ?single ?variadic
  case single =>
    refine moves_bind (takes_present (seals_keyword (by decide))).tracks fun isOptional =>
      moves_bind (takes_attributedType borders).tracks fun _ =>
      moves_bind takes_identifier.tracks fun _ => ?_
    -- Only an optional argument has a default.
    cases isOptional with
    | true =>
      exact moves_bind (takes_optional seals_default).tracks fun _ => moves_pure _ (Nat.le_refl 4)
    | false =>
      exact moves_bind (moves_pure none (Nat.le_refl 4)) fun _ => moves_pure _ (Nat.le_refl 4)
  case variadic =>
    exact moves_bind borders.type.tracks fun _ =>
      moves_bind (seals_symbol (by decide)).tracks fun _ =>
      moves_bind takes_identifier.tracks fun _ =>
      moves_pure _ (Nat.le_refl 4)

theorem seals_arguments (borders : tail.Borders level) : tail.Seals 4 (arguments level) :=
  seals_parenthesized (moves_sepBy (moves_argument borders) (seals_symbol (by decide)).tracks)

theorem moves_extendedAttribute (borders : tail.Borders level) :
    tail.Moves 4 4 (extendedAttribute level) := by
  have assign : tail.Moves 4 4 (symbol "=") := (seals_symbol (by decide)).tracks
  refine moves_bind takes_identifier.tracks fun _ =>
    moves_orElse (seals_then (seals_arguments borders) fun _ => takes_pure _).tracks <|
    moves_orElse ?namedArguments <|
    moves_orElse ?names <|
    moves_orElse ?name <|
    moves_orElse ?string (moves_pure _ (Nat.le_refl 4))
  case namedArguments =>
    exact moves_bind assign fun _ =>
      moves_bind takes_identifier.tracks fun _ =>
      moves_bind (seals_arguments borders).tracks fun _ =>
      moves_pure _ (Nat.le_refl 4)
  case names =>
    have several : tail.Seals 4 (parenthesized (sepBy identifier (symbol ","))) :=
      seals_parenthesized (moves_sepBy takes_identifier.tracks (seals_symbol (by decide)).tracks)
    exact moves_bind assign fun _ =>
      moves_bind several.tracks fun _ =>
      moves_pure _ (Nat.le_refl 4)
  case name =>
    exact moves_bind assign fun _ =>
      moves_bind takes_identifier.tracks fun _ =>
      moves_pure _ (Nat.le_refl 4)
  case string =>
    exact moves_bind assign fun _ =>
      moves_bind seals_stringLiteral.tracks fun _ =>
      moves_pure _ (Nat.le_refl 4)

theorem seals_extendedAttributes (borders : tail.Borders level) :
    tail.Seals 4 (extendedAttributes level) :=
  seals_bracketed
    (moves_sepBy (moves_extendedAttribute borders) (seals_symbol (by decide)).tracks)

theorem Borders.step (borders : tail.Borders level) : tail.Borders level.step where
  type := takes_typeForm (takes_nonAnyType borders) (seals_unionType borders)
  nonAny := takes_nonAnyType borders
  union := seals_unionType borders
  attributes := seals_extendedAttributes borders

end

theorem borders_nested (tail : Tail) (n : Nat) : tail.Borders (nested n) := by
  induction n with
  | zero =>
    exact ⟨seals_failure.takes, seals_failure.takes, seals_failure, seals_failure⟩
  | succ n ih => exact ih.step

/-! ## Members -/

/-- No place before the tail's own semicolon is a place for a semicolon behind the border. -/
theorem seals_closed {a : Nat} {p : Parser α} (form : tail.Moves a 3 p) :
    tail.Seals a (closed p) :=
  seals_after form fun _ => seals_then seals_semicolon fun _ => takes_pure _

theorem seals_closed_of_seals {p : Parser α} (form : tail.Seals 4 p) : tail.Seals 4 (closed p) :=
  seals_closed (form.moves (by decide))

section

variable {level : Nested}

theorem seals_annotated {p : Parser α} (borders : tail.Borders level) (form : tail.Seals 1 p) :
    tail.Seals 1 (annotated level p) :=
  seals_after (takes_optional borders.attributes (Nat.le_refl 1)) fun _ =>
  seals_then form fun _ =>
  takes_pure _

theorem seals_body {p : Parser α} (borders : tail.Borders level) (member : tail.Seals 1 p) :
    tail.Seals 4 (body level p) :=
  seals_braced_many (seals_annotated borders member)

theorem seals_typePair (borders : tail.Borders level) : tail.Seals 4 (typePair level) :=
  seals_angled <|
    moves_bind (takes_attributedType borders).tracks fun _ =>
    moves_bind (seals_symbol (by decide)).tracks fun _ =>
    moves_bind (takes_attributedType borders).tracks fun _ =>
    moves_pure _ (Nat.le_refl 4)

theorem seals_typeArgument (borders : tail.Borders level) :
    tail.Seals 4 (angled (attributedType level)) :=
  seals_angled (takes_attributedType borders).tracks

theorem seals_constant : tail.Seals 4 constant :=
  seals_after (seals_keyword (by decide)).tracks fun _ =>
  seals_after takes_constType.tracks fun _ =>
  seals_after takes_identifier.tracks fun _ =>
  seals_after (seals_symbol (by decide)).tracks fun _ =>
  seals_then (seals_terminal terminal_constValue) fun _ =>
  takes_pure _

/-- A type and a name take two words, which is not enough for the semicolon. -/
theorem moves_typeAndName {f : AttributedType → String → β} (borders : tail.Borders level) :
    tail.Moves 1 3 (do let type ← attributedType level; return f type (← identifier)) :=
  (takes_bind (takes_attributedType borders) fun _ =>
    takes_bind takes_identifier fun _ => takes_pure _) (Nat.le_refl 1)

/-- What an operation gives, its name and its arguments. -/
theorem seals_signature {f : ReturnForm → Option String → List Argument → β}
    (borders : tail.Borders level) :
    tail.Seals 4 (do
      let returns ← returnForm level.type
      let name ← optional identifier
      return f returns name (← arguments level)) :=
  seals_after (takes_returnForm borders.type).tracks fun _ =>
  seals_after (moves_optional takes_identifier.tracks) fun _ =>
  seals_then (seals_arguments borders) fun _ =>
  takes_pure _

theorem seals_attributeMember (borders : tail.Borders level) :
    tail.Seals 4 (attributeMember level) :=
  seals_closed <|
    moves_bind (takes_optional (seals_terminal terminal_attributeModifier)).tracks fun _ =>
    moves_bind (takes_present (seals_keyword (by decide))).tracks fun _ =>
    moves_bind ((seals_keyword (by decide)).moves (Nat.le_refl 1)) fun _ =>
    moves_typeAndName borders

theorem seals_operationMember (borders : tail.Borders level) :
    tail.Seals 4 (operationMember level) :=
  seals_closed_of_seals <|
    seals_after (takes_optional (seals_terminal terminal_operationModifier)).tracks fun _ =>
    seals_after (takes_optional (seals_terminal terminal_special)).tracks fun _ =>
    seals_signature borders

theorem seals_interfaceMember (borders : tail.Borders level) :
    tail.Seals 4 (interfaceMember level) := by
  refine seals_firstOf ?_
  simp only [List.forall_mem_cons, List.not_mem_nil, false_imp_iff, implies_true, and_true]
  refine ⟨seals_closed_of_seals ?const, seals_attributeMember borders,
    seals_closed_of_seals ?constructor, seals_operationMember borders,
    seals_closed_of_seals ?iterable, seals_closed_of_seals ?iterablePair,
    seals_closed_of_seals ?asyncIterable, seals_closed_of_seals ?asyncIterablePair,
    seals_closed_of_seals ?maplike, seals_closed_of_seals ?setlike,
    seals_closed_of_seals (seals_word (by decide) _)⟩
  case const => exact seals_then seals_constant fun _ => takes_pure _
  case constructor =>
    exact seals_after (seals_keyword (by decide)).tracks fun _ =>
      seals_then (seals_arguments borders) fun _ => takes_pure _
  case iterable =>
    exact seals_after (seals_keyword (by decide)).tracks fun _ =>
      seals_then (seals_typeArgument borders) fun _ => takes_pure _
  case iterablePair =>
    exact seals_after (seals_keyword (by decide)).tracks fun _ =>
      seals_then (seals_typePair borders) fun _ => takes_pure _
  case asyncIterable =>
    exact seals_after (seals_terminal terminal_asyncIterable).tracks fun _ =>
      seals_then (seals_typeArgument borders) fun _ =>
      takes_bind (takes_optional (seals_arguments borders)) fun _ => takes_pure _
  case asyncIterablePair =>
    exact seals_after (seals_terminal terminal_asyncIterable).tracks fun _ =>
      seals_then (seals_typePair borders) fun _ =>
      takes_bind (takes_optional (seals_arguments borders)) fun _ => takes_pure _
  case maplike =>
    exact seals_after (takes_present (seals_keyword (by decide))).tracks fun _ =>
      seals_after (seals_keyword (by decide)).tracks fun _ =>
      seals_then (seals_typePair borders) fun _ => takes_pure _
  case setlike =>
    exact seals_after (takes_present (seals_keyword (by decide))).tracks fun _ =>
      seals_after (seals_keyword (by decide)).tracks fun _ =>
      seals_then (seals_typeArgument borders) fun _ => takes_pure _

theorem seals_mixinMember (borders : tail.Borders level) : tail.Seals 4 (mixinMember level) := by
  refine seals_firstOf ?_
  simp only [List.forall_mem_cons, List.not_mem_nil, false_imp_iff, implies_true, and_true]
  refine ⟨seals_closed_of_seals ?const, seals_closed_of_seals ?operation, seals_closed ?property,
    seals_closed_of_seals (seals_word (by decide) _)⟩
  case const => exact seals_then seals_constant fun _ => takes_pure _
  case operation =>
    exact seals_after (takes_present (seals_keyword (by decide))).tracks fun _ =>
      seals_signature borders
  case property =>
    exact moves_bind (takes_present (seals_keyword (by decide))).tracks fun _ =>
      moves_bind (takes_present (seals_keyword (by decide))).tracks fun _ =>
      moves_bind ((seals_keyword (by decide)).moves (Nat.le_refl 1)) fun _ =>
      moves_typeAndName borders

theorem seals_namespaceMember (borders : tail.Borders level) :
    tail.Seals 4 (namespaceMember level) := by
  refine seals_firstOf ?_
  simp only [List.forall_mem_cons, List.not_mem_nil, false_imp_iff, implies_true, and_true]
  refine ⟨seals_closed_of_seals (seals_signature borders), seals_closed ?_⟩
  exact moves_bind (seals_keyword (by decide)).tracks fun _ =>
    moves_bind ((seals_keyword (by decide)).moves (Nat.le_refl 1)) fun _ =>
    moves_typeAndName borders

/-- A field of a dictionary begins with no word of the grammar, so it seals from the places where a
    member begins only. -/
theorem seals_dictionaryMember (borders : tail.Borders level) :
    tail.Seals 1 (dictionaryMember level) :=
  seals_closed <|
    (takes_bind (takes_present (seals_keyword (by decide))) fun _ =>
      takes_bind borders.type fun _ =>
      takes_bind takes_identifier fun _ =>
      takes_bind (takes_optional seals_default) fun _ =>
      takes_pure _) (Nat.le_refl 1)

/-! ## Statements -/

theorem moves_inheritance : tail.Moves 4 4 inheritance :=
  moves_bind (seals_symbol (by decide)).tracks fun _ => takes_identifier.tracks

theorem seals_enumValues : tail.Seals 4 enumValues :=
  seals_between (by decide) (by decide) <|
    moves_bind (moves_sepBy1 seals_stringLiteral.tracks (seals_symbol (by decide)).tracks) fun _ =>
    moves_bind (takes_present (seals_symbol (by decide))).tracks fun _ =>
    moves_pure _ (Nat.le_refl 4)

/-- The name of a definition and its members. -/
theorem seals_named {p : Parser α} {f : String → List (Annotated α) → β}
    (borders : tail.Borders level) (member : tail.Seals 1 p) :
    tail.Seals 4 (do let name ← identifier; return f name (← body level p)) :=
  seals_after takes_identifier.tracks fun _ =>
  seals_then (seals_body borders member) fun _ =>
  takes_pure _

/-- The name of a definition, its parent and its members. -/
theorem seals_inheriting {p : Parser α} {f : String → Option String → List (Annotated α) → β}
    (borders : tail.Borders level) (member : tail.Seals 1 p) :
    tail.Seals 4 (do
      let name ← identifier
      let parent ← optional inheritance
      return f name parent (← body level p)) :=
  seals_after takes_identifier.tracks fun _ =>
  seals_after (moves_optional moves_inheritance) fun _ =>
  seals_then (seals_body borders member) fun _ =>
  takes_pure _

/-- A name, a word and a name. -/
theorem moves_relation {w : String} {f : String → String → β} (foreign : isForeignWord w = true) :
    tail.Moves 4 3 (do let name ← identifier; keyword w; return f name (← identifier)) := by
  refine moves_bind takes_identifier.tracks fun _ =>
    moves_bind ((seals_keyword foreign).moves (Nat.le_refl 1)) fun _ => ?_
  exact Moves.mono ((takes_bind takes_identifier fun _ => takes_pure _) (Nat.le_refl 1)) (by decide)

/-- A statement that begins before the border ends before it. -/
theorem seals_definitionForm (borders : tail.Borders level) :
    tail.Seals 0 (definitionForm level) := by
  have interfaces := (seals_interfaceMember borders).mono (by decide : 1 ≤ 4)
  have mixins := (seals_mixinMember borders).mono (by decide : 1 ≤ 4)
  have namespaces := (seals_namespaceMember borders).mono (by decide : 1 ≤ 4)
  have dictionaries := seals_dictionaryMember borders
  have closed {p : Parser DefinitionForm} (form : tail.Seals 4 p) : tail.Seals 0 (closed p) :=
    (seals_closed_of_seals form).mono (Nat.zero_le 4)
  refine seals_firstOf ?_
  simp only [List.forall_mem_cons, List.not_mem_nil, false_imp_iff, implies_true, and_true]
  refine ⟨closed ?callback, closed ?callbackInterface, closed ?interface, closed ?mixin,
    closed ?namespaceOf, closed ?dictionary, closed ?partialInterface, closed ?partialMixin,
    closed ?partialDictionary, closed ?partialNamespace, closed ?enumeration, seals_closed ?typedef,
    (seals_closed (moves_relation (by decide))).mono (Nat.zero_le 4),
    (seals_closed (moves_relation (by decide))).mono (Nat.zero_le 4)⟩
  case callback =>
    exact seals_after (seals_keyword (by decide)).tracks fun _ =>
      seals_after takes_identifier.tracks fun _ =>
      seals_after (seals_symbol (by decide)).tracks fun _ =>
      seals_after (takes_returnForm borders.type).tracks fun _ =>
      seals_then (seals_arguments borders) fun _ => takes_pure _
  case callbackInterface =>
    exact seals_after (seals_keyword (by decide)).tracks fun _ =>
      seals_after (seals_keyword (by decide)).tracks fun _ => seals_inheriting borders interfaces
  case interface =>
    exact seals_after (seals_keyword (by decide)).tracks fun _ => seals_inheriting borders interfaces
  case mixin =>
    exact seals_after (seals_keyword (by decide)).tracks fun _ =>
      seals_after (seals_keyword (by decide)).tracks fun _ => seals_named borders mixins
  case namespaceOf =>
    exact seals_after (seals_keyword (by decide)).tracks fun _ => seals_named borders namespaces
  case dictionary =>
    exact seals_after (seals_keyword (by decide)).tracks fun _ =>
      seals_inheriting borders dictionaries
  case partialInterface =>
    exact seals_after (seals_keyword (by decide)).tracks fun _ =>
      seals_after (seals_keyword (by decide)).tracks fun _ => seals_named borders interfaces
  case partialMixin =>
    exact seals_after (seals_keyword (by decide)).tracks fun _ =>
      seals_after (seals_keyword (by decide)).tracks fun _ =>
      seals_after (seals_keyword (by decide)).tracks fun _ => seals_named borders mixins
  case partialDictionary =>
    exact seals_after (seals_keyword (by decide)).tracks fun _ =>
      seals_after (seals_keyword (by decide)).tracks fun _ => seals_named borders dictionaries
  case partialNamespace =>
    exact seals_after (seals_keyword (by decide)).tracks fun _ =>
      seals_after (seals_keyword (by decide)).tracks fun _ => seals_named borders namespaces
  case enumeration =>
    exact seals_after (seals_keyword (by decide)).tracks fun _ =>
      seals_after takes_identifier.tracks fun _ =>
      seals_then seals_enumValues fun _ => takes_pure _
  case typedef =>
    -- The word that begins it is the first word of the tail too, but it begins before the border.
    exact moves_bind ((seals_token_before (stops_word (by decide))).moves (Nat.le_refl 1)) fun _ =>
      moves_typeAndName borders

end

end IdlTypings.Grammar.Tail
