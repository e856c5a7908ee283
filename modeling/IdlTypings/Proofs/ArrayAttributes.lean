import Mathlib
import IdlTypings.Typings.Basic
import IdlTypings.Proofs.CommentLines
import IdlTypings.Proofs.ComponentReading
import IdlTypings.Proofs.DeclarationLines
import IdlTypings.Proofs.FrozenArrays

/-! # Attributes that are arrays

An interface with an attribute `Type[] name` is mended and read.  Where the type is one word, it is
frozen as a whole.  The numbers of several words are taken apart: the edits see the last word alone, and
what is left is no member of an interface, so the whole document is refused:
`readDocument_arrayAttribute`.

* The head of the interface, the type and the name behind it are edited on their own
  (`freezeArrays_append`), and what becomes of a number is computed.
* `inlineLayout` writes an interface on one line, so that the grammar can be asked for tokens.
-/

namespace IdlTypings.Dialect.Emscripten

open IdlTypings.Parser IdlTypings.Text

/-- A text in which no statement is found stays as it is. -/
theorem inheritImplemented_of_scans {s : List Char} (scans : Scans findStatement s (s.map .inl)) :
    inheritImplemented s = s := by
  have pieces : implementations s = s.map .inl := scans.scan
  simp [inheritImplemented, pieces, List.flatMap_map, List.filterMap_map, Function.comp_def]

/-- Where the last character is none of a statement, and there is no semicolon or only one blank, no
    statement is found. -/
theorem scans_findStatement {s : List Char} (last : ∀ c ∈ s.getLast?, inStatement c = false)
    (few : ';' ∉ s ∨ s.count ' ' ≤ 1) : Scans findStatement s (s.map .inl) := by
  have reaches {before : Option Char} {s rest : List Char} {x : List Char × Implementation}
      (found : findStatement before s = some (x, rest)) :
      ∃ u v, s = u ++ ';' :: v ∧ (∀ c ∈ u, inStatement c = true) ∧ 2 ≤ u.count ' ' := by
    obtain ⟨text, split, spells⟩ := findStatement_eq_some found
    exact ⟨text, _, split, spells.inStatement, Gecko.two_le_count_blank spells⟩
  refine scans_of_stops reaches (fun u part two => ?_) last
  rcases few with missing | one
  · exact missing (part.subset (by simp))
  · have fewer := part.sublist.count_le ' '
    rw [List.count_append] at fewer
    omega

end IdlTypings.Dialect.Emscripten

namespace IdlTypings.Dialect

open IdlTypings.Parser IdlTypings.Text
open Emscripten hiding Name
open Gecko (Name)

/-! ## The texts -/

/-- The type of the elements of an array. -/
inductive Element where
  | named (name : Name)
  | builtIn (type : Grammar.BuiltIn)
  | integer (type : Grammar.IntegerType)
  | float (type : Grammar.FloatType)

/-- The spelling of a type, with blanks between its words. -/
def Element.spelling : Element → String
  | .named name => name.text
  | .builtIn type => type.spelling
  | .integer type => type.spelling
  | .float type => type.spelling

def Element.words (element : Element) : List String :=
  Grammar.nameWords element.spelling

/-- What the edits make of an array behind the words of its type: they look at the last word alone. -/
def frozenLast : List String → String
  | [] => "[]"
  | [word] => if word = "float" ∨ word = "long" then "FrozenArray<" ++ word ++ ">" else word ++ "[]"
  | word :: words => word ++ " " ++ frozenLast words

/-- An interface with one attribute. -/
def interfaceText (owner : Name) (type : String) (name : Name) : String :=
  "interface " ++ owner.text ++ " \x7b" ++ (" attribute " ++ type) ++ (" " ++ name.text ++ "; \x7d;")

/-- That interface, if the type is a frozen array. -/
def frozenInterface (owner : Name) (element : String) (name : Name) : Idl.Definition :=
  .interface
    { name := owner.text
      parent := none
      members := [.attribute name.text (.generic "FrozenArray" [.named element]) false]
      attributes := [] }

/-- The numbers of several words. -/
def compounds : List (List String) :=
  [["unsigned", "short"], ["unsigned", "long"], ["unsigned", "long", "long"], ["long", "long"],
    ["unrestricted", "float"], ["unrestricted", "double"]]

/-- A type is one word, or a number of several words. -/
theorem Element.cases (element : Element) :
    element.words = [element.spelling] ∧ Grammar.isWord element.spelling = true ∧
        Grammar.Writable (.named element.spelling) ∧ element.spelling ≠ "void" ∨
      element.words ∈ compounds ∧ element.spelling = String.intercalate " " element.words := by
  have single {element : Element} (word : Grammar.isWord element.spelling = true) :
      element.words = [element.spelling] :=
    Grammar.nameWords_word word
  cases element with
  | named name =>
    have word := name.isIdentifier.word
    exact .inl ⟨single word, word, .identifier name.isIdentifier, name.ne_void⟩
  | builtIn type =>
    have word := Grammar.builtIn_word type
    exact .inl ⟨single word.1, word.1, .builtIn type, word.2.1⟩
  | integer type =>
    -- A number is one word or is among the compounds: there are six integers and four floats.
    by_cases word : Grammar.isWord type.spelling = true
    · have notVoid : type.spelling ≠ "void" := by
        obtain ⟨unsigned, size⟩ := type
        cases unsigned <;> cases size <;> decide
      exact .inl ⟨single word, word, .integer type, notVoid⟩
    · right
      obtain ⟨unsigned, size⟩ := type
      revert word
      cases unsigned <;> cases size <;> decide +kernel
  | float type =>
    by_cases word : Grammar.isWord type.spelling = true
    · have notVoid : type.spelling ≠ "void" := by
        obtain ⟨unrestricted, size⟩ := type
        cases unrestricted <;> cases size <;> decide
      exact .inl ⟨single word, word, .float type, notVoid⟩
    · right
      obtain ⟨unrestricted, size⟩ := type
      revert word
      cases unrestricted <;> cases size <;> decide +kernel

/-! ## Mending -/

/-- An attribute of one word is frozen as a whole. -/
theorem freezeArrays_word {word : String} (isWord : Grammar.isWord word = true) :
    freezeArrays (" attribute " ++ (word ++ "[]")).toList =
      (" attribute " ++ ("FrozenArray<" ++ word ++ ">")).toList := by
  have written : (" attribute " ++ ("FrozenArray<" ++ word ++ ">")).toList =
      ' ' :: ("attribute ".toList ++ frozen word.toList) := by
    rw [frozen_eq]
    simp
  have ascii := Gecko.isAsciiWord_of_isWord isWord
  have found : arrayAttribute ("attribute ".toList ++ (word.toList ++ "[]".toList) ++ []) =
      some ("attribute ".toList ++ frozen word.toList, []) := by
    obtain ⟨c, s, chars, -⟩ := Grammar.isWord_cons isWord
    exact arrayAttribute_eq_some_iff.mpr ⟨"attribute ".toList, word.toList, by simp, by decide,
      by simp [chars], fun c member => Gecko.isWord_of_isAsciiWord (ascii c member), rfl⟩
  have blank (s : List Char) : arrayAttribute (' ' :: s) = none := rfl
  have edited : replaceAll (fun _ => arrayAttribute) (" attribute " ++ (word ++ "[]")).toList =
      ' ' :: ("attribute ".toList ++ frozen word.toList) := by
    have text : (" attribute " ++ (word ++ "[]")).toList =
        ' ' :: ("attribute ".toList ++ (word.toList ++ "[]".toList) ++ []) := by
      simp
    have rest : replaceAll (fun _ => arrayAttribute) [] = [] := rfl
    rw [text, replaceAll_cons_of_none (blank _), replaceAll_append_of_some (by simp) found, rest,
      List.append_nil]
  -- What the first edit writes has no bracket for the two others.
  have spent : Frozen (' ' :: ("attribute ".toList ++ frozen word.toList)) := by
    have noBracket : '[' ∉ word.toList := fun member => absurd (ascii _ member) (by decide)
    refine frozen_of_missing ?_
    rw [frozen_eq]
    simp [noBracket]
  rw [freezeArrays, edited, spent.floats.replaceAll, spent.longs.replaceAll, written]

/-- Of a number of several words only the last one is frozen. -/
theorem freezeArrays_compound {words : List String} (compound : words ∈ compounds) :
    freezeArrays (" attribute " ++ (String.intercalate " " words ++ "[]")).toList =
      (" attribute " ++ frozenLast words).toList := by
  fin_cases compound <;> decide +kernel

/-- The head and the end of an interface with an attribute stay as they are. -/
theorem freezeArrays_interfaceText (owner name : Name) {type : String}
    (last : ∀ c ∈ (" attribute " ++ type).toList.getLast?, inArray c = false) {edited : String}
    (freezes : freezeArrays (" attribute " ++ type).toList = (" attribute " ++ edited).toList) :
    freezeArrays (interfaceText owner type name).toList = (interfaceText owner edited name).toList := by
  have kept {s : String} (missing : s.toList.all ('[' != ·) = true) : freezeArrays s.toList = s.toList :=
    (frozen_of_missing fun member => by simpa using List.all_eq_true.mp missing _ member).freezeArrays
  have noBracket (name : Name) : name.text.toList.all ('[' != ·) = true := name.lacks (by decide)
  have head := kept (s := "interface " ++ owner.text ++ " \x7b") (by
    simp only [String.toList_append, List.all_append, noBracket]
    decide)
  have foot := kept (s := " " ++ name.text ++ "; \x7d;") (by
    simp only [String.toList_append, List.all_append, noBracket]
    decide)
  have opening : ∀ c ∈ ("interface " ++ owner.text ++ " \x7b").toList.getLast?, inArray c = false :=
    last_of_ending _ (by decide)
  rw [interfaceText, String.toList_append, String.toList_append, List.append_assoc,
    freezeArrays_append opening, freezeArrays_append last, head, freezes, foot, interfaceText]
  simp

/-- An interface with an attribute is no place for a statement of implementation, whatever the names
    are. -/
theorem inheritImplemented_interfaceText (owner name : Name) {type : String}
    (single : ';' ∉ type.toList) :
    inheritImplemented (interfaceText owner (type ++ "[]") name).toList =
      (interfaceText owner (type ++ "[]") name).toList := by
  have noMark {c : Char} (mark : isAsciiWord c = false) (name : Name) : c ∉ name.text.toList :=
    fun member => by simpa using List.all_eq_true.mp (name.lacks mark) _ member
  -- The text is cut behind characters that are in no statement, so that the pieces can be looked at
  -- alone.
  have head : Scans findStatement ("interface " ++ owner.text ++ " \x7b").toList
      (("interface " ++ owner.text ++ " \x7b").toList.map .inl) := by
    refine scans_findStatement (last_of_ending _ (by decide)) (.inl ?_)
    simp [noMark (c := ';') (by decide) owner]
  have array : Scans findStatement (" attribute " ++ (type ++ "[]")).toList
      ((" attribute " ++ (type ++ "[]")).toList.map .inl) := by
    refine scans_findStatement ?_ (.inl (by simp [single]))
    rw [← String.append_assoc]
    exact last_of_ending _ (by decide)
  have named : Scans findStatement (" " ++ name.text ++ ";").toList
      ((" " ++ name.text ++ ";").toList.map .inl) := by
    refine scans_findStatement (last_of_ending _ (by decide)) (.inr ?_)
    simp [List.count_eq_zero.mpr (noMark (c := ' ') (by decide) name)]
  have closing : Scans findStatement " \x7d;".toList (" \x7d;".toList.map .inl) :=
    scans_findStatement (by simp [show inStatement ';' = false by decide]) (.inr (by decide))
  refine inheritImplemented_of_scans ?_
  have whole := (head.append array).append (named.append closing)
  simpa [interfaceText] using whole

end IdlTypings.Dialect

namespace IdlTypings.Grammar

open IdlTypings.Parser

/-! ## One line -/

/-- The blanks after a token, where everything stands on one line. -/
def inlineGap : Token → List Token → List Char
  | _, [] => []
  | .mark .openBrace, _ | .mark .semicolon, _ | .mark .closeAngle, _ | .mark .closeBracket, _ => [' ']
  | .mark _, _ | _, .mark .semicolon :: _ | _, .mark .openAngle :: _ | _, .mark .closeAngle :: _
  | _, .mark .openBracket :: _ => []
  | _, _ => [' ']

theorem inlineGap_nil (t : Token) : inlineGap t [] = [] := by
  simp [inlineGap]

theorem inlineGap_cases (t : Token) (ts : List Token) : inlineGap t ts = [] ∨ inlineGap t ts = [' '] := by
  unfold inlineGap
  split <;> simp

/-- A layout on one line. -/
def inlineLayout : Layout where
  gap := inlineGap
  blank := by
    intro t ts c member
    rcases inlineGap_cases t ts with gap | gap
    · simp [gap] at member
    · simp_all [isBlank]
  apart := by
    intro text t ts other
    cases t with
    | mark m => exact absurd rfl (other m)
    | word _ | literal _ | zero => simp [inlineGap]
  last := inlineGap_nil
  void := Dialect.Gecko.lineLayout.void
  void_word := Dialect.Gecko.lineLayout.void_word

theorem spell_inline_nil : spell inlineLayout [] = [] :=
  rfl

theorem spell_inline (t : Token) (ts : List Token) :
    spell inlineLayout (t :: ts) = t.text ++ (inlineGap t ts ++ spell inlineLayout ts) :=
  rfl

variable {layout : Layout} {ts : List Token}

/-! ## Members that are refused -/

/-- The first word of a number is a name where the number does not go on. -/
theorem attributedType_modifier (layout : Layout) {first next : String}
    (modifier : first ∈ ["unsigned", "unrestricted"]) (known : isWord next = true)
    (other : next ∉ ["short", "long", "float", "double"]) (n : Nat) (ts : List Token) :
    ∃ form, attributedType (nested (n + 1)) (spell layout (.word first :: .word next :: ts)) =
      some (form, spell layout (.word next :: ts)) := by
  have word : isWord first = true := by fin_cases modifier <;> simp
  have second : ∀ w ∈ ["short", "long", "float", "double"],
      keyword w (spell layout (.word next :: ts)) = none := by
    intro w member
    refine keyword_other (by fin_cases member <;> simp) known ?_
    rintro rfl
    exact other member
  simp only [List.forall_mem_cons] at second
  -- Both numbers that begin with this word want one of those behind it.
  have noNumber : integerType (spell layout (.word first :: .word next :: ts)) = none ∧
      floatType (spell layout (.word first :: .word next :: ts)) = none := by
    fin_cases modifier <;> simp [integerType, floatType, keyword_word, known, second]
  obtain ⟨form, read, -⟩ := nonAnyType_of_none layout (nested n) word
    (by fin_cases modifier <;> decide) noNumber.1 noNumber.2 (show Opens (.word next :: ts) from known)
  have bare := attributes_none (n := n + 1) (show symbol "[" (spell layout (.word first ::
    .word next :: ts)) = none by simp [word])
  have type : (nested (n + 1)).type (spell layout (.word first :: .word next :: ts)) =
      some (.single form, spell layout (.word next :: ts)) := by
    have notAny : keyword "any" (spell layout (.word first :: .word next :: ts)) = none :=
      keyword_other (by simp) word (by fin_cases modifier <;> decide)
    simp [nested, Nested.step, typeForm, notAny, read]
  exact ⟨.mk none (.single form), by simp [attributedType, bare, type]⟩

/-- Where an attribute does not end behind its name, there is no member. -/
theorem interfaceMember_attribute {first second : String} {n : Nat}
    (words : isWord first = true ∧ isWord second = true) {form : AttributedType} {rest : List Token}
    (type : attributedType (nested (n + 1)) (spell layout (.word first :: .word second :: ts)) =
      some (form, spell layout rest))
    (stuck : ∀ {name after}, identifier (spell layout rest) = some (name, after) →
      symbol ";" after = none) :
    interfaceMember (nested (n + 1))
      (spell layout (.word "attribute" :: .word first :: .word second :: ts)) = none := by
  have notAttribute : attributeMember (nested (n + 1))
      (spell layout (.word "attribute" :: .word first :: .word second :: ts)) = none := by
    cases named : identifier (spell layout rest) with
    | none => simp [attributeMember, attributeModifier, closed, keyword_word, words, type, named]
    | some result =>
      have ends := stuck named
      simp [attributeMember, attributeModifier, closed, keyword_word, words, type, named, ends]
  -- As an operation this would have the type `attribute`, but no parenthesis follows the name.
  have notOperation : operationMember (nested (n + 1))
      (spell layout (.word "attribute" :: .word first :: .word second :: ts)) = none := by
    obtain ⟨returned, read, -⟩ := returnForm_word layout n (show isWord "attribute" = true by simp)
      (by decide) (by decide) (show Opens (.word first :: .word second :: ts) from words.1)
    simp [operationMember, operationModifier, special, closed, keyword_word, words, read, arguments,
      parenthesized]
  simp [interfaceMember, firstOf_cons_apply, firstOf_nil_apply, notAttribute, notOperation,
    constMember, constant, constructorMember, iterableMember, iterablePairMember, asyncIterableMember,
    asyncIterablePairMember, asyncIterable, maplikeMember, setlikeMember, stringifierMember, closed,
    keyword_word, words]

/-- Where the first member is refused, there is no interface. -/
theorem definition_refused {owner word : String} (isIdentifier : IsIdentifier owner)
    (known : isWord word = true) {n : Nat}
    (refused : interfaceMember (nested (n + 1)) (spell layout (.word word :: ts)) = none) :
    definition (nested (n + 1)) (spell layout (.word "interface" :: .word owner :: .mark .openBrace ::
      .word word :: ts)) = none := by
  have bare {first : String} (ts : List Token) (isWord_first : isWord first = true) :
      (nested (n + 1)).attributes (spell layout (.word first :: ts)) = none :=
    attributes_none (by simp [isWord_first]) (n + 1)
  -- The members stop in front of the first word, which is no closing bracket.
  have noMembers : many (annotated (nested (n + 1)) (interfaceMember (nested (n + 1))))
      (spell layout (.word word :: ts)) = some ([], spell layout (.word word :: ts)) :=
    many_of_rounds .done (by simp [annotated, bare ts known, refused])
  have noInterface : interfaceForm (nested (n + 1)) (spell layout (.word "interface" :: .word owner ::
      .mark .openBrace :: .word word :: ts)) = none := by
    simp [interfaceForm, closed, keyword_word, isIdentifier.word, inheritance, body, braced, known,
      noMembers]
  -- The owner may be called `includes`, but no name follows it as in such a statement.
  have noName : identifier (skipBlanks (layout.gap (.word owner) (.mark .openBrace :: .word word :: ts) ++
      spell layout (.mark .openBrace :: .word word :: ts))) = none := by
    rw [skipBlanks_gap (opens_mark _ _), identifier_mark]
  have noForm : definitionForm (nested (n + 1)) (spell layout (.word "interface" :: .word owner ::
      .mark .openBrace :: .word word :: ts)) = none := by
    have opens : Opens (.word owner :: .mark .openBrace :: .word word :: ts) := isIdentifier.word
    have interface : isWord "interface" = true := by simp
    have begins : Begins "interface" (spell layout (.word "interface" :: .word owner ::
        .mark .openBrace :: .word word :: ts)) (spell layout (.word owner :: .mark .openBrace ::
          .word word :: ts)) := by
      refine ⟨fun isWord_w => ?_, identifier_word interface opens⟩
      simp only [keyword_word isWord_w interface opens, eq_comm]
    rw [definitionForm_interface _ begins, noInterface]
    exact fun _ => lone_word isIdentifier.word (ends_word layout _ owner) noName
  simp [definition, annotated, bare, noForm]

end IdlTypings.Grammar

namespace IdlTypings.Dialect

open IdlTypings.Parser IdlTypings.Text
open Emscripten hiding Name
open Gecko (Name parse_lines)
open Grammar (Token Mark spell inlineLayout inlineGap spell_inline spell_inline_nil)

/-! ## Reading -/

/-- The tokens of what the edits make of an array. -/
def frozenTokens : List String → List Token
  | [] => [.mark .openBracket, .mark .closeBracket]
  | [word] =>
    if word = "float" ∨ word = "long" then
      [.word "FrozenArray", .mark .openAngle, .word word, .mark .closeAngle]
    else
      [.word word, .mark .openBracket, .mark .closeBracket]
  | word :: words => .word word :: frozenTokens words

def interfaceTokens (owner : Name) (type : List Token) (name : Name) : List Token :=
  .word "interface" :: .word owner.text :: .mark .openBrace :: .word "attribute" ::
    (type ++ [.word name.text, .mark .semicolon, .mark .closeBrace, .mark .semicolon])

theorem read_frozen (owner name : Name) {word : String} (isWord : Grammar.isWord word = true)
    (writable : Grammar.Writable (.named word)) (notVoid : word ≠ "void") :
    Grammar.read (interfaceText owner ("FrozenArray<" ++ word ++ ">") name).toList =
      .ok [frozenInterface owner word name] := by
  have definition : Grammar.WritableDefinition (frozenInterface owner word name) := by
    refine ⟨owner.isIdentifier, by simp, by simp, ?_⟩
    simp only [List.mem_singleton, forall_eq]
    exact ⟨name.isIdentifier, .frozenArray writable⟩
  have single : Grammar.nameTokens inlineLayout word = [.word word] :=
    Grammar.nameTokens_word isWord notVoid
  have lines : (interfaceText owner ("FrozenArray<" ++ word ++ ">") name).toList =
      [] ++ (spell inlineLayout (Grammar.documentTokens inlineLayout
        [frozenInterface owner word name]) ++ []) := by
    simp [interfaceText, frozenInterface, Grammar.documentTokens, Grammar.definitionTokens,
      Grammar.attributesTokens, Grammar.bodyTokens, Grammar.inheritanceTokens, Grammar.membersTokens,
      Grammar.memberTokens, Grammar.typeTokens, Grammar.typesTokens, Grammar.moreTypesTokens, single,
      spell_inline, spell_inline_nil, inlineGap, Grammar.Token.text]
  obtain ⟨-, forms, parsed, lowered⟩ := parse_lines inlineLayout (by simp) (by simpa using definition)
    (List.forall_mem_nil _) (List.forall_mem_nil _) lines
  exact Grammar.read_eq_ok_iff.mpr ⟨forms, parsed, lowered⟩

section

variable {layout : Grammar.Layout} {n : Nat} {rest : List Token}

/-- What can stand behind the type of an attribute when the number before it has been cut. -/
def Stuck (rest : List Token) : Prop :=
  (∃ more, rest = .mark .openBracket :: more) ∨
    ∃ word more, rest = .word "FrozenArray" :: .mark .openAngle :: .word word :: more ∧
      Grammar.isWord word = true

theorem Stuck.ends (stuck : Stuck rest) : Grammar.Ends rest := by
  rcases stuck with ⟨more, rfl⟩ | ⟨word, more, rfl, -⟩ <;> simp

theorem Stuck.refuses (stuck : Stuck rest) {name : String} {after : List Char}
    (named : Grammar.identifier (spell layout rest) = some (name, after)) :
    Grammar.symbol ";" after = none := by
  rcases stuck with ⟨more, rfl⟩ | ⟨word, more, rfl, known⟩
  · simp at named
  · rw [Grammar.identifier_word (by simp) (by simp)] at named
    cases named
    simp [known]

/-- The type of an attribute goes as far as the cut of a number. -/
theorem attributedType_compound {words : List String} (compound : words ∈ compounds) {name : String}
    {ts : List Token}
    (fits : (spell layout (frozenTokens words ++ .word name :: ts)).length ≤ n + 1) :
    ∃ first second more, frozenTokens words ++ .word name :: ts = .word first :: .word second :: more ∧
      (Grammar.isWord first = true ∧ Grammar.isWord second = true) ∧
      ∃ form rest, Stuck rest ∧ Grammar.attributedType (Grammar.nested (n + 1))
        (spell layout (.word first :: .word second :: more)) = some (form, spell layout rest) := by
  -- Either a number stands in front of the cut, and is read as the type with brackets or a frozen array
  -- behind it, or only a modifier does, and is read as a name.
  have number {type : Idl.IdlType} (writable : Grammar.Writable type) {words : List String}
      (tokens : Grammar.typeTokens layout type = words.map .word) {rest : List Token}
      (stuck : Stuck rest) (fits : (spell layout (words.map .word ++ rest)).length ≤ n + 1) :
      ∃ form rest', Stuck rest' ∧ Grammar.attributedType (Grammar.nested (n + 1))
        (spell layout (words.map .word ++ rest)) = some (form, spell layout rest') := by
    rw [← tokens] at fits ⊢
    obtain ⟨form, read, -⟩ := Grammar.attributedType_reads layout writable _ rest stuck.ends fits
    exact ⟨form, rest, stuck, read⟩
  have modified {first word : String} (modifier : first ∈ ["unsigned", "unrestricted"])
      (known : Grammar.isWord word = true) (more : List Token) :
      ∃ form rest, Stuck rest ∧ Grammar.attributedType (Grammar.nested (n + 1)) (spell layout
        (.word first :: .word "FrozenArray" :: .mark .openAngle :: .word word :: more)) =
          some (form, spell layout rest) := by
    obtain ⟨form, read⟩ := Grammar.attributedType_modifier layout modifier
      (show Grammar.isWord "FrozenArray" = true by simp) (by decide) n
      (.mark .openAngle :: .word word :: more)
    exact ⟨form, _, .inr ⟨word, more, rfl, known⟩, read⟩
  have brackets : Stuck (.mark .openBracket :: .mark .closeBracket :: .word name :: ts) :=
    .inl ⟨_, rfl⟩
  have frozen : Stuck (.word "FrozenArray" :: .mark .openAngle :: .word "long" :: .mark .closeAngle ::
      .word name :: ts) :=
    .inr ⟨_, _, rfl, by simp⟩
  simp only [compounds, List.mem_cons, List.not_mem_nil, or_false] at compound
  rcases compound with rfl | rfl | rfl | rfl | rfl | rfl
  · exact ⟨_, _, _, rfl, by simp, number (.integer ⟨true, .short⟩)
      (Grammar.nameTokens_integer ⟨true, .short⟩) brackets fits⟩
  · exact ⟨_, _, _, rfl, by simp, modified (by simp) (by simp) _⟩
  · exact ⟨_, _, _, rfl, by simp, number (.integer ⟨true, .long⟩)
      (Grammar.nameTokens_integer ⟨true, .long⟩) frozen fits⟩
  · exact ⟨_, _, _, rfl, by simp, number (.integer ⟨false, .long⟩)
      (Grammar.nameTokens_integer ⟨false, .long⟩) frozen fits⟩
  · exact ⟨_, _, _, rfl, by simp, modified (by simp) (by simp) _⟩
  · exact ⟨_, _, _, rfl, by simp, number (.float ⟨true, .double⟩)
      (Grammar.nameTokens_float ⟨true, .double⟩) brackets fits⟩

/-- A cut number is refused, whatever the name behind it. -/
theorem interfaceMember_compound {words : List String} (compound : words ∈ compounds) {name : String}
    {ts : List Token}
    (fits : (spell layout (frozenTokens words ++ .word name :: ts)).length ≤ n + 1) :
    Grammar.interfaceMember (Grammar.nested (n + 1))
      (spell layout (.word "attribute" :: (frozenTokens words ++ .word name :: ts))) = none := by
  obtain ⟨first, second, more, tokens, known, form, rest, stuck, read⟩ :=
    attributedType_compound compound fits
  rw [tokens]
  exact Grammar.interfaceMember_attribute known read stuck.refuses

end

theorem read_compound (owner name : Name) {words : List String} (compound : words ∈ compounds) :
    Grammar.read (interfaceText owner (frozenLast words) name).toList =
      .error ⟨(interfaceText owner (frozenLast words) name).toList⟩ := by
  have text : (interfaceText owner (frozenLast words) name).toList =
      spell inlineLayout (interfaceTokens owner (frozenTokens words) name) := by
    fin_cases compound <;> simp [interfaceText, frozenLast, interfaceTokens, frozenTokens, spell_inline,
      spell_inline_nil, inlineGap, Grammar.Token.text]
  have trimmed : trim (interfaceText owner (frozenLast words) name).toList =
      (interfaceText owner (frozenLast words) name).toList := by
    have first : ∀ c ∈ (interfaceText owner (frozenLast words) name).toList.head?,
        isSpace c = false := by
      simp [interfaceText, show isSpace 'i' = false by decide]
    have last : ∀ c ∈ (interfaceText owner (frozenLast words) name).toList.getLast?,
        isSpace c = false := by
      rw [interfaceText, ← String.append_assoc]
      exact last_of_ending _ (by decide)
    simpa using Grammar.trim_around (List.forall_mem_nil _) (List.forall_mem_nil _) first last
  -- Not one definition is read, so the whole text is left over.
  apply Grammar.read_of_rest
  · rw [trimmed]
    exact .done
  · rw [trimmed, text]
    refine Grammar.definition_refused owner.isIdentifier (by simp) (interfaceMember_compound compound ?_)
    exact Nat.le_succ_of_le (Grammar.fits_cons (Grammar.fits_cons (Grammar.fits_cons
      (Grammar.fits_cons (Nat.le_refl _)))))
  · simp [interfaceText]

/-- An attribute whose type is an array of one word is read as a frozen array.  An array of a number of
    several words makes the document one that is refused. -/
theorem readDocument_arrayAttribute (options : Options) (owner name : Name) (element : Element) :
    readDocument { options with emscripten := true, gecko := false }
        (interfaceText owner (element.spelling ++ "[]") name).toList =
      if element.words.length = 1 then .ok [frozenInterface owner element.spelling name]
      else .error ⟨(interfaceText owner (frozenLast element.words) name).toList⟩ := by
  have mended (s : List Char) : Dialect.mend { options with emscripten := true, gecko := false } s =
      freezeArrays (inheritImplemented s) := rfl
  have last : ∀ c ∈ (" attribute " ++ (element.spelling ++ "[]")).toList.getLast?,
      inArray c = false := by
    rw [← String.append_assoc]
    exact last_of_ending _ (by decide)
  rcases element.cases with ⟨single, word, writable, notVoid⟩ | ⟨compound, words⟩
  · have noMark : ';' ∉ element.spelling.toList := fun member =>
      absurd (Gecko.isAsciiWord_of_isWord word _ member) (by decide)
    rw [readDocument, mended, inheritImplemented_interfaceText owner name noMark,
      freezeArrays_interfaceText owner name last (freezeArrays_word word), if_pos (by rw [single]; rfl)]
    exact read_frozen owner name word writable notVoid
  · have noMark : ∀ words ∈ compounds, ';' ∉ (String.intercalate " " words).toList := by
      decide +kernel
    have several : ∀ words ∈ compounds, words.length ≠ 1 := by decide
    rw [readDocument, mended, inheritImplemented_interfaceText owner name
      (words ▸ noMark _ compound), freezeArrays_interfaceText owner name last
      (words ▸ freezeArrays_compound compound), if_neg (several _ compound)]
    exact read_compound owner name compound

end IdlTypings.Dialect
