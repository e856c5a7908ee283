import Mathlib
import IdlTypings.Grammar.Lowering
import IdlTypings.Proofs.SpelledTokens

/-! # Types written in WebIDL

`Writable` says which types of the IDL tree can be written, and `typeTokens` writes them.  Read by
the grammar, the tokens of a type give back a form of it:

* `integerType_reads`, `floatType_reads` and `nonAnyType_word` read the types without brackets;
* `readsType` reads every type but `any`, at every level that the text leaves room for;
* `type_reads`, `return_reads` and `attributedType_reads` do so for the places of a document where a
  type may stand.

The grammar is an ordered choice, so what is read depends on the first word of a type
(`typeTokens_head`) and on the token after it (`Ends`).
-/

namespace IdlTypings.Grammar

open IdlTypings.Parser
open Idl (IdlType)

/-! ## Names -/

/-- The keywords of WebIDL that are no names here. -/
def reserved : List String :=
  ["any", "async", "attribute", "boolean", "byte", "ByteString", "callback", "const",
    "constructor", "deleter", "dictionary", "DOMString", "double", "enum", "float", "FrozenArray",
    "getter", "includes", "inherit", "interface", "iterable", "legacycaller", "long", "maplike",
    "mixin", "namespace", "object", "octet", "optional", "or", "partial", "Promise", "readonly",
    "record", "required", "sequence", "setlike", "setter", "short", "static", "stringifier",
    "symbol", "typedef", "undefined", "unrestricted", "unsigned", "USVString", "void"]

@[simp] theorem isWord_words :
    isWord "any" = true ∧ isWord "async" = true ∧ isWord "attribute" = true ∧
      isWord "boolean" = true ∧ isWord "byte" = true ∧ isWord "ByteString" = true ∧
      isWord "callback" = true ∧ isWord "const" = true ∧ isWord "constructor" = true ∧
      isWord "deleter" = true ∧ isWord "dictionary" = true ∧ isWord "DOMString" = true ∧
      isWord "double" = true ∧ isWord "enum" = true ∧ isWord "float" = true ∧
      isWord "FrozenArray" = true ∧ isWord "getter" = true ∧ isWord "includes" = true ∧
      isWord "inherit" = true ∧ isWord "interface" = true ∧ isWord "iterable" = true ∧
      isWord "legacycaller" = true ∧ isWord "long" = true ∧ isWord "maplike" = true ∧
      isWord "mixin" = true ∧ isWord "namespace" = true ∧ isWord "object" = true ∧
      isWord "octet" = true ∧ isWord "optional" = true ∧ isWord "or" = true ∧
      isWord "partial" = true ∧ isWord "Promise" = true ∧ isWord "readonly" = true ∧
      isWord "record" = true ∧ isWord "required" = true ∧ isWord "sequence" = true ∧
      isWord "setlike" = true ∧ isWord "setter" = true ∧ isWord "short" = true ∧
      isWord "static" = true ∧ isWord "stringifier" = true ∧ isWord "symbol" = true ∧
      isWord "typedef" = true ∧ isWord "undefined" = true ∧ isWord "unrestricted" = true ∧
      isWord "unsigned" = true ∧ isWord "USVString" = true ∧ isWord "void" = true := by
  decide +kernel

/-- A name: a word that is no keyword. -/
structure IsIdentifier (name : String) : Prop where
  word : isWord name = true
  free : name ∉ reserved

theorem IsIdentifier.ne {name : String} (isIdentifier : IsIdentifier name) {w : String}
    (known : w ∈ reserved) : name ≠ w := by
  rintro rfl
  exact isIdentifier.free known

/-! ## Writing types -/

/-- The words that the name of a type is made of. -/
def nameWords (name : String) : List String :=
  (name.toList.splitOn ' ').map String.ofList

def nameTokens (layout : Layout) (name : String) : List Token :=
  if name = "void" then [.word layout.void] else (nameWords name).map .word

mutual

def typeTokens (layout : Layout) : IdlType → List Token
  | .named name => nameTokens layout name
  | .generic name arguments =>
    .word name :: .mark .openAngle ::
      (typesTokens layout (.mark .comma) arguments ++ [.mark .closeAngle])
  | .union members =>
    .mark .openParen :: (typesTokens layout (.word "or") members ++ [.mark .closeParen])
  | .unrecognized _ => []

/-- The tokens of some types with a separator between neighbours. -/
def typesTokens (layout : Layout) (sep : Token) : List IdlType → List Token
  | [] => []
  | type :: types => typeTokens layout type ++ moreTypesTokens layout sep types

def moreTypesTokens (layout : Layout) (sep : Token) : List IdlType → List Token
  | [] => []
  | type :: types => sep :: (typeTokens layout type ++ moreTypesTokens layout sep types)

end

/-- The string types that a record may have as its key. -/
def keyTypes : List String := ["ByteString", "DOMString", "USVString"]

/-- The types that can be written. -/
inductive Writable : IdlType → Prop where
  | any : Writable (.named "any")
  | integer (type : IntegerType) : Writable (.named type.spelling)
  | float (type : FloatType) : Writable (.named type.spelling)
  | builtIn (type : BuiltIn) : Writable (.named type.spelling)
  | identifier {name : String} (isIdentifier : IsIdentifier name) : Writable (.named name)
  | sequence {element : IdlType} (writable : Writable element) :
      Writable (.generic "sequence" [element])
  | frozenArray {element : IdlType} (writable : Writable element) :
      Writable (.generic "FrozenArray" [element])
  | promise {result : IdlType} (writable : Writable result) :
      Writable (.generic "Promise" [result])
  | promiseVoid : Writable (.generic "Promise" [.named "void"])
  | record {key : String} {value : IdlType}
      (known : key ∈ keyTypes ∨ IsIdentifier key)
      (writable : Writable value) : Writable (.generic "record" [.named key, value])
  | union {members : List IdlType} (several : 2 ≤ members.length)
      (notAny : ∀ type ∈ members, type ≠ .named "any") (writable : ∀ type ∈ members, Writable type) :
      Writable (.union members)

/-- What an operation, a callback or a promise can give: a type or nothing. -/
def Returned (type : IdlType) : Prop :=
  type = .named "void" ∨ Writable type

/-! ## The first words of a type -/

def IntegerType.words (type : IntegerType) : List String :=
  (if type.unsigned then ["unsigned"] else []) ++
    match type.size with
    | .longLong => ["long", "long"]
    | .long => ["long"]
    | .short => ["short"]

def FloatType.words (type : FloatType) : List String :=
  (if type.unrestricted then ["unrestricted"] else []) ++
    match type.size with
    | .float => ["float"]
    | .double => ["double"]

variable {layout : Layout} {ts rest : List Token}

theorem nameWords_word {name : String} (word : isWord name = true) : nameWords name = [name] := by
  obtain ⟨c, s, chars, -, all⟩ := isWord_cons word
  have noBlank : ' ' ∉ name.toList := by
    intro member
    rw [chars] at member
    exact absurd (all ' ' member) (by decide)
  simp [nameWords, List.splitOn_eq_singleton noBlank]

theorem nameTokens_word {name : String} (word : isWord name = true) (notVoid : name ≠ "void") :
    nameTokens layout name = [.word name] := by
  simp [nameTokens, notVoid, nameWords_word word]

theorem nameTokens_integer (type : IntegerType) :
    nameTokens layout type.spelling = type.words.map .word := by
  have words : nameWords type.spelling = type.words ∧ type.spelling ≠ "void" := by
    obtain ⟨unsigned, size⟩ := type
    cases unsigned <;> cases size <;> decide +kernel
  rw [nameTokens, if_neg words.2, words.1]

theorem nameTokens_float (type : FloatType) :
    nameTokens layout type.spelling = type.words.map .word := by
  have words : nameWords type.spelling = type.words ∧ type.spelling ≠ "void" := by
    obtain ⟨unrestricted, size⟩ := type
    cases unrestricted <;> cases size <;> decide +kernel
  rw [nameTokens, if_neg words.2, words.1]

theorem nameTokens_void : nameTokens layout "void" = [.word layout.void] := by
  simp [nameTokens]

theorem isWord_void (layout : Layout) : isWord layout.void = true := by
  rcases layout.void_word with void | void <;> simp [void]

/-- Keywords that begin a member of an interface or a mixin, but no type. -/
def memberWords : List String :=
  ["attribute", "const", "constructor", "deleter", "getter", "inherit", "legacycaller", "readonly",
    "setter", "static", "stringifier"]

/-- Keywords that begin a member, an argument or a result, but no type. -/
def leaders : List String :=
  "optional" :: "required" :: "undefined" :: memberWords

theorem builtIn_word (type : BuiltIn) :
    isWord type.spelling = true ∧ type.spelling ≠ "void" ∧ type.spelling ∉ leaders ∧
      type.spelling ≠ "any" := by
  cases type <;> decide +kernel

/-- A type begins with a word of its own or with a parenthesis. -/
theorem typeTokens_head (layout : Layout) {type : IdlType} (writable : Writable type) :
    ∃ t ts, typeTokens layout type = t :: ts ∧
      (t = .mark .openParen ∨
        ∃ w, t = .word w ∧ isWord w = true ∧ w ∉ leaders ∧ (w = "any" → type = .named "any")) := by
  cases writable with
  | any =>
    rw [typeTokens, nameTokens_word (by simp) (by decide)]
    exact ⟨_, _, rfl, .inr ⟨"any", rfl, by simp, by decide, fun _ => rfl⟩⟩
  | integer type =>
    rw [typeTokens, nameTokens_integer]
    obtain ⟨unsigned, size⟩ := type
    cases unsigned <;> cases size <;>
      exact ⟨_, _, rfl, .inr ⟨_, rfl, by simp, by decide, by simp⟩⟩
  | float type =>
    rw [typeTokens, nameTokens_float]
    obtain ⟨unrestricted, size⟩ := type
    cases unrestricted <;> cases size <;>
      exact ⟨_, _, rfl, .inr ⟨_, rfl, by simp, by decide, by simp⟩⟩
  | builtIn type =>
    have known := builtIn_word type
    rw [typeTokens, nameTokens_word known.1 known.2.1]
    exact ⟨_, _, rfl, .inr ⟨_, rfl, known.1, known.2.2.1, fun any => absurd any known.2.2.2⟩⟩
  | identifier isIdentifier =>
    rw [typeTokens, nameTokens_word isIdentifier.word (isIdentifier.ne (by decide))]
    -- The words that lead a member are reserved, so a name is none of them.
    have free : ∀ w ∈ leaders, w ∈ reserved := by decide
    exact ⟨_, _, rfl, .inr ⟨_, rfl, isIdentifier.word, fun leads => isIdentifier.free (free _ leads),
      fun any => absurd any (isIdentifier.ne (by decide))⟩⟩
  | sequence _ | frozenArray _ | promise _ | promiseVoid | record _ _ =>
    exact ⟨_, _, rfl, .inr ⟨_, rfl, by simp, by decide, by simp⟩⟩
  | union _ _ _ => exact ⟨_, _, rfl, .inl rfl⟩

theorem opens_typeTokens (layout : Layout) {type : IdlType} (writable : Writable type)
    (ts : List Token) :
    Opens (typeTokens layout type ++ ts) := by
  obtain ⟨t, us, tokens, rfl | ⟨w, rfl, word, -⟩⟩ := typeTokens_head layout writable
  · simp [tokens]
  · simp [tokens, word]

/-- No keyword that leads a member or an argument is read where a type stands. -/
theorem keyword_typeTokens (layout : Layout) {type : IdlType} (writable : Writable type) {w : String}
    (isWord_w : isWord w = true) (leads : w ∈ leaders) (ts : List Token) :
    keyword w (spell layout (typeTokens layout type ++ ts)) = none := by
  obtain ⟨t, us, tokens, rfl | ⟨v, rfl, word, other, -⟩⟩ := typeTokens_head layout writable
  · simp [tokens, isWord_w]
  · rw [tokens, List.cons_append]
    refine keyword_other isWord_w word ?_
    rintro rfl
    exact other leads

theorem keyword_returnTokens (layout : Layout) {type : IdlType} (returned : Returned type)
    (ts : List Token) :
    ∀ w ∈ memberWords, keyword w (spell layout (typeTokens layout type ++ ts)) = none := by
  intro w leads
  have isWord_w : isWord w = true := by
    fin_cases leads <;> simp
  rcases returned with rfl | writable
  · have other : layout.void ≠ w := by
      rintro rfl
      rcases layout.void_word with void | void <;> simp [void, memberWords] at leads
    rw [typeTokens, nameTokens_void]
    exact keyword_other isWord_w (isWord_void layout) other
  · exact keyword_typeTokens layout writable isWord_w (by simp [leaders, leads]) ts

theorem keyword_any_typeTokens (layout : Layout) {type : IdlType} (writable : Writable type)
    (notAny : type ≠ .named "any") (ts : List Token) :
    keyword "any" (spell layout (typeTokens layout type ++ ts)) = none := by
  obtain ⟨t, us, tokens, rfl | ⟨v, rfl, word, -, any⟩⟩ := typeTokens_head layout writable
  · simp [tokens]
  · rw [tokens, List.cons_append]
    exact keyword_other (by simp) word fun same => notAny (any same)

/-- Of the marks only a parenthesis is read where a type stands. -/
theorem symbol_typeTokens (layout : Layout) {type : IdlType} (writable : Writable type)
    {sign : String} (single : sign.toList.length = 1) (notName : sign.toList.all isNameChar = false)
    (notParen : sign.toList ≠ ['(']) (ts : List Token) :
    symbol sign (spell layout (typeTokens layout type ++ ts)) = none := by
  obtain ⟨c, chars⟩ := List.length_eq_one_iff.mp single
  obtain ⟨t, us, tokens, rfl | ⟨w, rfl, word, -⟩⟩ := typeTokens_head layout writable
  · have different : '(' ≠ c := by
      rintro rfl
      exact notParen chars
    rw [tokens, List.cons_append]
    exact symbol_of_head notName trivial (by simp [spell, Token.text, chars, different])
  · rw [tokens, List.cons_append]
    exact symbol_word single notName word

theorem not_bracket (layout : Layout) {type : IdlType} (writable : Writable type)
    (ts : List Token) : symbol "[" (spell layout (typeTokens layout type ++ ts)) = none :=
  symbol_typeTokens layout writable (by simp) (by simp) (by simp) ts

theorem not_bracket_return (layout : Layout) {type : IdlType} (returned : Returned type)
    (ts : List Token) : symbol "[" (spell layout (typeTokens layout type ++ ts)) = none := by
  rcases returned with rfl | writable
  · simp [typeTokens, nameTokens_void, isWord_void layout]
  · exact not_bracket layout writable ts

theorem opens_returnTokens {type : IdlType} (returned : Returned type) (ts : List Token) :
    Opens (typeTokens layout type ++ ts) := by
  rcases returned with rfl | writable
  · simp [typeTokens, nameTokens_void, isWord_void layout]
  · exact opens_typeTokens layout writable ts

/-! ## Types without brackets -/

/-- Tokens that do not go on with the type before them. -/
def Ends : List Token → Prop
  | .word text :: _ => isWord text = true ∧ text ≠ "long"
  | .mark _ :: _ => True
  | _ => False

@[simp] theorem ends_mark (m : Mark) (ts : List Token) : Ends (.mark m :: ts) := trivial

@[simp] theorem ends_name (text : String) :
    Ends (.word text :: ts) ↔ isWord text = true ∧ text ≠ "long" := .rfl

theorem Ends.opens (ends : Ends ts) : Opens ts := by
  match ts with
  | .word text :: ts => exact ends.1
  | .mark m :: ts => trivial

theorem Ends.not_long (ends : Ends ts) : keyword "long" (spell layout ts) = none := by
  match ts with
  | .word text :: ts => exact keyword_other (by simp) ends.1 ends.2
  | .mark m :: ts => simp

theorem nullable_none (opens : Opens ts) :
    nullable (spell layout ts) = some (false, spell layout ts) := by
  have absent : symbol "?" (spell layout ts) = none := by
    refine symbol_of_head (by simp) opens ?_
    intro c head
    -- No token begins with a question mark.
    match ts with
    | [] => simp [spell] at head
    | .word text :: ts =>
      obtain ⟨d, s, chars, -, all⟩ := isWord_cons opens
      obtain rfl : d = c := by simpa [spell, Token.text, chars] using head
      have nameChar := all d List.mem_cons_self
      simp
      rintro rfl
      simp at nameChar
    | .mark m :: ts =>
      obtain rfl : m.char = c := by simpa [spell, Token.text] using head
      simpa using m.char_cases.2.2
    | .literal text :: ts =>
      obtain rfl : '\"' = c := by simpa [spell, Token.text] using head
      simp
    | .zero :: ts =>
      obtain rfl : '0' = c := by simpa [spell, Token.text] using head
      simp
  simp [nullable, absent]

theorem integerType_reads (type : IntegerType) (ends : Ends rest) :
    integerType (spell layout (type.words.map .word ++ rest)) = some (type, spell layout rest) := by
  have opens := ends.opens
  obtain ⟨unsigned, size⟩ := type
  cases unsigned <;> cases size <;>
    simp [integerType, IntegerType.words, keyword_word, opens, ends.not_long]

theorem floatType_reads (type : FloatType) (opens : Opens rest) :
    floatType (spell layout (type.words.map .word ++ rest)) = some (type, spell layout rest) := by
  obtain ⟨unrestricted, size⟩ := type
  cases unrestricted <;> cases size <;> simp [floatType, FloatType.words, keyword_word, opens]

/-- The words that integer types begin with. -/
def integerWords : List String := ["unsigned", "long", "short"]

/-- The words that floating-point types begin with. -/
def floatWords : List String := ["unrestricted", "float", "double"]

theorem integerType_word {name : String} (word : isWord name = true) (other : name ∉ integerWords) :
    integerType (spell layout (.word name :: ts)) = none := by
  simp only [integerWords, List.mem_cons, not_or] at other
  simp [integerType, keyword_other, word, other]

theorem integerType_float (type : FloatType) (rest : List Token) :
    integerType (spell layout (type.words.map .word ++ rest)) = none := by
  obtain ⟨unrestricted, size⟩ := type
  cases unrestricted <;> cases size <;> exact integerType_word (by simp) (by decide)

theorem floatType_word {name : String} (word : isWord name = true) (other : name ∉ floatWords) :
    floatType (spell layout (.word name :: ts)) = none := by
  simp only [floatWords, List.mem_cons, not_or] at other
  simp [floatType, keyword_other, word, other]

theorem builtInOf_mark (types : List BuiltIn) (m : Mark) :
    builtInOf types (spell layout (.mark m :: ts)) = none := by
  induction types with
  | nil => rfl
  | cons type types ih => simp [builtInOf, (builtIn_word type).1, ih]

theorem builtInOf_word (types : List BuiltIn) {name : String} (word : isWord name = true)
    (other : ∀ type ∈ types, type.spelling ≠ name) :
    builtInOf types (spell layout (.word name :: ts)) = none := by
  induction types with
  | nil => rfl
  | cons type types ih =>
    simp only [List.forall_mem_cons] at other
    simp [builtInOf, keyword_other (builtIn_word type).1 word other.1.symm, ih other.2]

/-- A built-in type among those that are tried is read by its keyword. -/
theorem builtInOf_reads (layout : Layout) {types : List BuiltIn} {type : BuiltIn}
    (member : type ∈ types) (opens : Opens ts) :
    ∃ form, builtInOf types (spell layout (.word type.spelling :: ts)) = some (form, spell layout ts) ∧
      form.lower = .named type.spelling := by
  induction types with
  | nil => simp at member
  | cons first types ih =>
    have word := (builtIn_word type).1
    by_cases same : first.spelling = type.spelling
    · refine ⟨.builtIn first false, ?_, by simp [NonAnyType.lower, same]⟩
      simp [builtInOf, same, keyword_same word opens, nullable_none opens]
    · have later : type ∈ types := by
        rcases List.mem_cons.mp member with rfl | later
        · exact absurd rfl same
        · exact later
      obtain ⟨form, reads, lowered⟩ := ih later
      refine ⟨form, ?_, lowered⟩
      simp [builtInOf, keyword_other (builtIn_word first).1 word (Ne.symm same), reads]

/-- The words that begin a type with something between brackets. -/
def bracketWords : List String := ["Promise", "sequence", "FrozenArray", "record"]

/-- A word is a type by itself where neither a number nor a bracket can follow it. -/
theorem nonAnyType_of_none (layout : Layout) (inner : Nested) {name : String}
    (word : isWord name = true) (notBracket : name ∉ bracketWords)
    (noInteger : integerType (spell layout (.word name :: ts)) = none)
    (noFloat : floatType (spell layout (.word name :: ts)) = none) (opens : Opens ts) :
    ∃ form, nonAnyType inner (spell layout (.word name :: ts)) = some (form, spell layout ts) ∧
      form.lower = .named name := by
  simp only [bracketWords, List.mem_cons, not_or] at notBracket
  -- There are two tables of built-in types.  A word that is in neither is a name.
  by_cases scalar : ∃ type ∈ scalarBuiltIns, type.spelling = name
  · obtain ⟨type, member, rfl⟩ := scalar
    obtain ⟨form, reads, lowered⟩ := builtInOf_reads layout member opens
    refine ⟨form, ?_, lowered⟩
    simp [nonAnyType, keyword_other, word, notBracket, noInteger, noFloat, reads]
  have noScalar : builtInOf scalarBuiltIns (spell layout (.word name :: ts)) = none :=
    builtInOf_word scalarBuiltIns word (by simpa using scalar)
  by_cases object : ∃ type ∈ objectBuiltIns, type.spelling = name
  · obtain ⟨type, member, rfl⟩ := object
    obtain ⟨form, reads, lowered⟩ := builtInOf_reads layout member opens
    refine ⟨form, ?_, lowered⟩
    simp [nonAnyType, keyword_other, word, notBracket, noInteger, noFloat, noScalar, reads]
  have noObject : builtInOf objectBuiltIns (spell layout (.word name :: ts)) = none :=
    builtInOf_word objectBuiltIns word (by simpa using object)
  refine ⟨.identifier name false, ?_, rfl⟩
  simp [nonAnyType, keyword_other, word, notBracket, noInteger, noFloat, noScalar, noObject, opens,
    nullable_none]

/-- A word that begins no longer type is a type by itself. -/
theorem nonAnyType_word (layout : Layout) (inner : Nested) {name : String} (word : isWord name = true)
    (plain : name ∉ bracketWords ++ (integerWords ++ floatWords)) (opens : Opens ts) :
    ∃ form, nonAnyType inner (spell layout (.word name :: ts)) = some (form, spell layout ts) ∧
      form.lower = .named name := by
  simp only [List.mem_append, not_or] at plain
  exact nonAnyType_of_none layout inner word plain.1 (integerType_word word plain.2.1)
    (floatType_word word plain.2.2) opens

theorem nonAnyType_mark (inner : Nested) (m : Mark) :
    nonAnyType inner (spell layout (.mark m :: ts)) = none := by
  simp [nonAnyType, integerType, floatType, builtInOf_mark]

/-! ## Lists of types -/

theorem moreTypesTokens_eq (sep : Token) (types : List IdlType) :
    moreTypesTokens layout sep types = types.flatMap fun type => sep :: typeTokens layout type := by
  induction types with
  | nil => rfl
  | cons type types ih => simp [moreTypesTokens, ih]

theorem separates_or : Separates layout (.word "or") (keyword "or") where
  reads opens := keyword_same (by simp) opens
  nonempty := by simp [Token.text]

/-! ## Types at every level -/

theorem attributes_none {s : List Char} (absent : symbol "[" s = none) (n : Nat) :
    (nested n).attributes s = none := by
  cases n with
  | zero => rfl
  | succ n => simp [nested, Nested.step, extendedAttributes, bracketed, absent]

/-- A level reads a type: as one that is no union, or as a union. -/
def ReadsType (layout : Layout) (n : Nat) (type : IdlType) (rest : List Token) : Prop :=
  (∃ form, (nested n).nonAny (spell layout (typeTokens layout type ++ rest)) =
      some (form, spell layout rest) ∧ form.lower = type) ∨
  (nested n).nonAny (spell layout (typeTokens layout type ++ rest)) = none ∧
    ∃ members, (nested n).union (spell layout (typeTokens layout type ++ rest)) =
      some (members, spell layout rest) ∧ .union (lowerUnionMembers members) = type

theorem length_typeTokens_pos (layout : Layout) {type : IdlType} (writable : Writable type)
    (rest : List Token) : 0 < (spell layout (typeTokens layout type ++ rest)).length := by
  obtain ⟨t, us, tokens, rfl | ⟨w, rfl, word, -⟩⟩ := typeTokens_head layout writable
  · simp [tokens, spell, Token.text]
  · obtain ⟨c, s, chars, -⟩ := isWord_cons word
    simp [tokens, spell, Token.text, chars]

theorem unionMember_of_reads {type : IdlType} (writable : Writable type) {n : Nat}
    (reads : ReadsType layout n type rest) (opens : Opens rest) :
    ∃ form, unionMember (nested n) (spell layout (typeTokens layout type ++ rest)) =
      some (form, spell layout rest) ∧ form.lower = type := by
  have bare := attributes_none (not_bracket layout writable rest) n
  obtain ⟨form, read, lowered⟩ | ⟨single, members, read, lowered⟩ := reads
  · exact ⟨.single none form, by simp [unionMember, bare, read], lowered⟩
  · exact ⟨.union members false, by simp [unionMember, bare, single, read, nullable_none opens],
      lowered⟩

theorem type_of_reads {type : IdlType} (writable : Writable type) {n : Nat}
    (reads : type ≠ .named "any" → ReadsType layout n type rest) (opens : Opens rest)
    (fits : (spell layout (typeTokens layout type ++ rest)).length ≤ n) :
    ∃ form, (nested n).type (spell layout (typeTokens layout type ++ rest)) =
      some (form, spell layout rest) ∧ form.lower = type := by
  cases n with
  | zero => exact absurd (length_typeTokens_pos layout writable rest) (by omega)
  | succ n =>
    by_cases any : type = .named "any"
    · subst any
      refine ⟨.any, ?_, rfl⟩
      rw [typeTokens, nameTokens_word (by simp) (by decide)]
      simp [nested, Nested.step, typeForm, keyword_word, opens]
    · have notAny := keyword_any_typeTokens layout writable any rest
      obtain ⟨form, read, lowered⟩ | ⟨single, members, read, lowered⟩ := reads any
      · refine ⟨.single form, ?_, lowered⟩
        simp only [nested, Nested.step] at read
        simp [nested, Nested.step, typeForm, notAny, read]
      · refine ⟨.union members false, ?_, lowered⟩
        simp only [nested, Nested.step] at read single
        simp [nested, Nested.step, typeForm, notAny, single, read, nullable_none opens]

theorem lowerUnionMembers_eq (members : List UnionMember) :
    lowerUnionMembers members = members.map UnionMember.lower := by
  induction members with
  | nil => rfl
  | cons first members ih => simp [lowerUnionMembers, ih]

/-- The words that begin no longer type are left by themselves. -/
theorem IsIdentifier.plain {name : String} (isIdentifier : IsIdentifier name) :
    name ∉ bracketWords ++ (integerWords ++ floatWords) := by
  intro member
  have known : ∀ w ∈ bracketWords ++ (integerWords ++ floatWords), w ∈ reserved := by decide
  exact isIdentifier.free (known name member)

theorem builtIn_plain (type : BuiltIn) :
    type.spelling ∉ bracketWords ++ (integerWords ++ floatWords) := by
  cases type <;> decide

theorem genericTokens_one (name : String) (type : IdlType) (rest : List Token) :
    typeTokens layout (.generic name [type]) ++ rest =
      .word name :: .mark .openAngle :: (typeTokens layout type ++ .mark .closeAngle :: rest) := by
  simp [typeTokens, typesTokens, moreTypesTokens]

theorem genericTokens_two (name : String) (key value : IdlType) (rest : List Token) :
    typeTokens layout (.generic name [key, value]) ++ rest =
      .word name :: .mark .openAngle :: (typeTokens layout key ++ .mark .comma ::
        (typeTokens layout value ++ .mark .closeAngle :: rest)) := by
  simp [typeTokens, typesTokens, moreTypesTokens]

theorem unionTokens_cons (first : IdlType) (others : List IdlType) (rest : List Token) :
    typeTokens layout (.union (first :: others)) ++ rest =
      .mark .openParen :: (separated (.word "or") (typeTokens layout) (first :: others) ++
        .mark .closeParen :: rest) := by
  simp [typeTokens, typesTokens, moreTypesTokens_eq, separated]

/-- What is read between angle brackets. -/
theorem angled_reads {p : Parser α} {x : α} (inside : Opens (ts ++ .mark .closeAngle :: rest))
    (opens : Opens rest) (reads : p (spell layout (ts ++ .mark .closeAngle :: rest)) =
      some (x, spell layout (.mark .closeAngle :: rest))) :
    angled p (spell layout (.mark .openAngle :: (ts ++ .mark .closeAngle :: rest))) =
      some (x, spell layout rest) := by
  simp [angled, inside, reads, opens]

/-- The kinds of types that are tried before a type with something between brackets. -/
theorem before_bracket {w : String} (known : w ∈ ["sequence", "FrozenArray", "record"])
    (ts : List Token) :
    keyword "Promise" (spell layout (.word w :: ts)) = none ∧
      integerType (spell layout (.word w :: ts)) = none ∧
      floatType (spell layout (.word w :: ts)) = none ∧
      builtInOf scalarBuiltIns (spell layout (.word w :: ts)) = none ∧
      builtInOf objectBuiltIns (spell layout (.word w :: ts)) = none := by
  have word : isWord w = true := by
    fin_cases known <;> simp
  refine ⟨keyword_other (by simp) word ?_, integerType_word word ?_, floatType_word word ?_,
    builtInOf_word _ word ?_, builtInOf_word _ word ?_⟩ <;>
    fin_cases known <;> decide

theorem return_of_reads {type : IdlType} (writable : Writable type) {p : Parser TypeForm}
    {form : TypeForm} (reads : p (spell layout (typeTokens layout type ++ rest)) =
      some (form, spell layout rest)) :
    returnForm p (spell layout (typeTokens layout type ++ rest)) =
      some (.type form, spell layout rest) := by
  simp [returnForm, keyword_typeTokens layout writable (w := "undefined") (by simp) (by decide), reads]

/-- A word that begins no longer type is read as a type where a result may stand. -/
theorem returnForm_word (layout : Layout) (n : Nat) {name : String} (word : isWord name = true)
    (plain : name ∉ bracketWords ++ (integerWords ++ floatWords))
    (other : name ≠ "any" ∧ name ≠ "undefined") (opens : Opens rest) :
    ∃ form, returnForm (nested (n + 1)).type (spell layout (.word name :: rest)) =
      some (form, spell layout rest) ∧ form.lower = .named name := by
  obtain ⟨form, read, lowered⟩ := nonAnyType_word layout (nested n) word plain opens
  refine ⟨.type (.single form), ?_, lowered⟩
  simp [returnForm, nested, Nested.step, typeForm, keyword_other, word, other, read]

/-- The type of no value is read by either word. -/
theorem void_reads (layout : Layout) (opens : Opens rest) (n : Nat) :
    ∃ form, returnForm (nested (n + 1)).type (spell layout (.word layout.void :: rest)) =
      some (form, spell layout rest) ∧ form.lower = .named "void" := by
  rcases layout.void_word with void | void
  · rw [void]
    exact returnForm_word layout n (by simp) (by decide) (by decide) opens
  · rw [void]
    exact ⟨.undefined, by simp [returnForm, keyword_word, opens], rfl⟩

theorem exists_level {type : IdlType} (writable : Writable type) {n : Nat}
    (fits : (spell layout (typeTokens layout type ++ rest)).length ≤ n) : ∃ m, n = m + 1 :=
  ⟨n - 1, by have := length_typeTokens_pos layout writable rest; omega⟩

theorem exists_level_word {w : String} (word : isWord w = true) {n : Nat}
    (fits : (spell layout (.word w :: ts)).length ≤ n) : ∃ m, n = m + 1 := by
  obtain ⟨c, s, chars, -⟩ := isWord_cons word
  simp only [spell, Token.text, chars, List.length_append, List.length_cons] at fits
  exact ⟨n - 1, by omega⟩

theorem recordKey_word {key : String} (known : key ∈ keyTypes ∨ IsIdentifier key) :
    isWord key = true ∧ key ≠ "void" := by
  rcases known with member | isIdentifier
  · fin_cases member <;> simp
  · exact ⟨isIdentifier.word, isIdentifier.ne (by decide)⟩

theorem recordKey_reads (layout : Layout) {key : String}
    (known : key ∈ keyTypes ∨ IsIdentifier key) (inner : Nested) {ts : List Token} (opens : Opens ts) :
    ∃ form, recordKey (nonAnyType inner) (spell layout (.word key :: ts)) =
      some (form, spell layout ts) ∧ form.lower = .named key := by
  rcases known with member | isIdentifier
  · fin_cases member
    · exact ⟨.byteString, by simp [recordKey, keyword_word, opens], rfl⟩
    · exact ⟨.domString, by simp [recordKey, keyword_word, opens], rfl⟩
    · exact ⟨.usvString, by simp [recordKey, keyword_word, opens], rfl⟩
  · obtain ⟨form, read, lowered⟩ := nonAnyType_word layout inner isIdentifier.word
      isIdentifier.plain opens
    have other : ∀ w ∈ keyTypes, key ≠ w := fun w member => isIdentifier.ne (by revert w; decide)
    simp only [keyTypes, List.forall_mem_cons] at other
    refine ⟨.nonAny form, ?_, lowered⟩
    simp [recordKey, keyword_other, isIdentifier.word, other, read]

theorem fits_bracket {w : String} {m : Mark} {n : Nat}
    (fits : (spell layout (.word w :: .mark m :: ts)).length ≤ n + 1) :
    (spell layout ts).length ≤ n := by
  have word := length_spell_le layout (.word w) (.mark m :: ts)
  have mark := length_spell_mark layout m ts
  omega

/-- An element between angle brackets. -/
theorem element_reads {name : String} {element : IdlType} (writable : Writable element) {n : Nat}
    (reads : element ≠ .named "any" →
      (spell layout (typeTokens layout element ++ .mark .closeAngle :: rest)).length ≤ n →
      ReadsType layout n element (.mark .closeAngle :: rest)) (opens : Opens rest)
    (fits : (spell layout (.word name :: .mark .openAngle ::
      (typeTokens layout element ++ .mark .closeAngle :: rest))).length ≤ n + 1) :
    ∃ form, angled (nested n).type (spell layout (.mark .openAngle ::
        (typeTokens layout element ++ .mark .closeAngle :: rest))) =
      some (form, spell layout rest) ∧ form.lower = element := by
  have inner := fits_bracket fits
  obtain ⟨form, read, lowered⟩ := type_of_reads writable (fun notAny => reads notAny inner)
    (opens_mark .closeAngle rest) inner
  exact ⟨form, angled_reads (opens_typeTokens layout writable _) opens read, lowered⟩

/-- The alternatives of a union are read between its parentheses when each of them is. -/
theorem unionType_of_items {n : Nat} {first : IdlType} {others : List IdlType}
    (writable : ∀ type ∈ first :: others, Writable type)
    (reads : ∀ type ∈ first :: others, ReadsItem layout Ends n (unionMember (nested n))
      UnionMember.lower (typeTokens layout) type) (opens : Opens rest)
    (fits : (spell layout (typeTokens layout (.union (first :: others)) ++ rest)).length ≤ n + 1) :
    ∃ forms, unionType (nested n)
        (spell layout (typeTokens layout (.union (first :: others)) ++ rest)) =
      some (forms, spell layout rest) ∧ lowerUnionMembers forms = first :: others := by
  rw [unionTokens_cons] at fits ⊢
  -- The parenthesis takes a character, so one level less is enough inside.
  have inner : (spell layout (separated (.word "or") (typeTokens layout) (first :: others) ++
      .mark .closeParen :: rest)).length ≤ n :=
    Nat.le_of_lt_succ (Nat.lt_of_lt_of_le (length_spell_mark layout .openParen _) fits)
  obtain ⟨forms, read, lowered⟩ := sepBy1_separated separates_or (by simp) reads
    (fun type member ts => opens_typeTokens layout (writable type member) ts)
    (ends_mark .closeParen rest) (by simp) inner
  have inside := opens_separated (typeTokens layout)
    (opens_typeTokens layout (writable first List.mem_cons_self)) (.word "or") others
    (.mark .closeParen :: rest)
  refine ⟨forms, ?_, by rw [lowerUnionMembers_eq, lowered]⟩
  simp [unionType, parenthesized, sepBy, inside, read, opens]

/-- Every type but `any` is read at a level that the text leaves room for. -/
theorem readsType {type : IdlType} (writable : Writable type) (notAny : type ≠ .named "any")
    {n : Nat} (ends : Ends rest)
    (fits : (spell layout (typeTokens layout type ++ rest)).length ≤ n) :
    ReadsType layout n type rest := by
  have opens := ends.opens
  have closing : Ends (.mark .closeAngle :: rest) := trivial
  -- A type between brackets is read one level further in, from a text without the bracket: the
  -- induction hypothesis asks for no more levels than there are characters left.
  induction writable generalizing n rest with
  | any => exact absurd rfl notAny
  | integer type =>
    obtain ⟨n, rfl⟩ := exists_level (.integer type) fits
    have noPromise : keyword "Promise" (spell layout (type.words.map .word ++ rest)) = none := by
      obtain ⟨unsigned, size⟩ := type
      cases unsigned <;> cases size <;> simp [IntegerType.words, keyword_other]
    refine .inl ⟨.integer type false, ?_, rfl⟩
    rw [typeTokens, nameTokens_integer]
    simp [nested, Nested.step, nonAnyType, noPromise, integerType_reads type ends,
      nullable_none opens]
  | float type =>
    obtain ⟨n, rfl⟩ := exists_level (.float type) fits
    have noPromise : keyword "Promise" (spell layout (type.words.map .word ++ rest)) = none := by
      obtain ⟨unrestricted, size⟩ := type
      cases unrestricted <;> cases size <;> simp [FloatType.words, keyword_other]
    refine .inl ⟨.float type false, ?_, rfl⟩
    rw [typeTokens, nameTokens_float]
    simp [nested, Nested.step, nonAnyType, noPromise, integerType_float, floatType_reads type opens,
      nullable_none opens]
  | builtIn type =>
    obtain ⟨n, rfl⟩ := exists_level (.builtIn type) fits
    have known := builtIn_word type
    rw [ReadsType, typeTokens, nameTokens_word known.1 known.2.1]
    exact .inl (nonAnyType_word layout (nested n) known.1 (builtIn_plain type) opens)
  | identifier isIdentifier =>
    obtain ⟨n, rfl⟩ := exists_level (.identifier isIdentifier) fits
    rw [ReadsType, typeTokens, nameTokens_word isIdentifier.word (isIdentifier.ne (by decide))]
    exact .inl (nonAnyType_word layout (nested n) isIdentifier.word isIdentifier.plain opens)
  | sequence writable ih =>
    obtain ⟨n, rfl⟩ := exists_level (.sequence writable) fits
    rw [genericTokens_one] at fits
    rw [ReadsType, genericTokens_one]
    obtain ⟨form, inside, lowered⟩ := element_reads writable
      (fun notAny fits => ih notAny closing fits closing.opens trivial) opens fits
    refine .inl ⟨.sequence form false, ?_, by simp [NonAnyType.lower, lowered]⟩
    simp [nested, Nested.step, nonAnyType, before_bracket, keyword_word, inside, nullable_none opens]
  | frozenArray writable ih =>
    obtain ⟨n, rfl⟩ := exists_level (.frozenArray writable) fits
    rw [genericTokens_one] at fits
    rw [ReadsType, genericTokens_one]
    obtain ⟨form, inside, lowered⟩ := element_reads writable
      (fun notAny fits => ih notAny closing fits closing.opens trivial) opens fits
    refine .inl ⟨.frozenArray form false, ?_, by simp [NonAnyType.lower, lowered]⟩
    simp [nested, Nested.step, nonAnyType, before_bracket, keyword_word, inside, nullable_none opens]
  | promise writable ih =>
    obtain ⟨n, rfl⟩ := exists_level (.promise writable) fits
    rw [genericTokens_one] at fits
    rw [ReadsType, genericTokens_one]
    have inner := fits_bracket fits
    obtain ⟨form, read, lowered⟩ := type_of_reads writable
      (fun notAny => ih notAny closing inner closing.opens trivial) closing.opens inner
    have result := return_of_reads writable read
    have inside := angled_reads (opens_typeTokens layout writable _) opens result
    refine .inl ⟨.promise (.type form), ?_, by simp [NonAnyType.lower, ReturnForm.lower, lowered]⟩
    simp [nested, Nested.step, nonAnyType, keyword_word, inside]
  | promiseVoid =>
    obtain ⟨n, rfl⟩ := exists_level .promiseVoid fits
    rw [genericTokens_one, typeTokens, nameTokens_void] at fits
    rw [ReadsType, genericTokens_one, typeTokens, nameTokens_void]
    obtain ⟨n, rfl⟩ := exists_level_word (isWord_void layout) (fits_bracket fits)
    obtain ⟨form, read, lowered⟩ := void_reads layout closing.opens n
    refine .inl ⟨.promise form, ?_, by simp [NonAnyType.lower, lowered]⟩
    rw [nested, Nested.step, nonAnyType]
    simp [keyword_word, angled, isWord_void layout, read, opens]
  | @record key value known writable ih =>
    obtain ⟨n, rfl⟩ := exists_level (.record known writable) fits
    have word := recordKey_word known
    rw [genericTokens_two, typeTokens, nameTokens_word word.1 word.2] at fits
    rw [ReadsType, genericTokens_two, typeTokens, nameTokens_word word.1 word.2]
    have whole := fits_bracket fits
    have inner : (spell layout (typeTokens layout value ++ .mark .closeAngle :: rest)).length ≤ n :=
      fits_cons (fits_cons whole)
    obtain ⟨form, read, lowered⟩ := type_of_reads writable
      (fun notAny => ih notAny closing inner closing.opens trivial) closing.opens inner
    obtain ⟨n, rfl⟩ := exists_level_word word.1 whole
    obtain ⟨keyForm, keyRead, keyLowered⟩ := recordKey_reads layout known (nested n)
      (opens_mark .comma (typeTokens layout value ++ .mark .closeAngle :: rest))
    refine .inl ⟨.record keyForm form false, ?_, by simp [NonAnyType.lower, keyLowered, lowered]⟩
    rw [nested, Nested.step, nonAnyType]
    simp only [nested, Nested.step] at keyRead read ⊢
    simp [before_bracket, keyword_word, angled, word.1, keyRead, opens_typeTokens layout writable, read,
      opens, nullable_none opens]
  | @union members several single writable ih =>
    -- A union is tried only after a type that is none has failed at its parenthesis.
    obtain ⟨n, rfl⟩ := exists_level (.union several single writable) fits
    obtain ⟨first, others, rfl⟩ := List.exists_cons_of_length_pos (Nat.zero_lt_of_lt several)
    have reads : ∀ type ∈ first :: others, ReadsItem layout Ends n (unionMember (nested n))
        UnionMember.lower (typeTokens layout) type := by
      intro type member rest ends fits
      exact unionMember_of_reads (writable type member)
        (ih type member (single type member) ends fits ends.opens trivial) ends.opens
    obtain ⟨forms, read, lowered⟩ := unionType_of_items writable reads opens fits
    rw [ReadsType]
    refine .inr ⟨?_, forms, read, by rw [lowered]⟩
    rw [unionTokens_cons]
    exact nonAnyType_mark (nested n) .openParen

/-- A type is read where any type may stand. -/
theorem type_reads (layout : Layout) {type : IdlType} (writable : Writable type) (n : Nat) :
    ReadsItem layout Ends n (nested n).type TypeForm.lower (typeTokens layout) type := by
  intro rest ends fits
  exact type_of_reads writable (fun notAny => readsType writable notAny ends fits) ends.opens fits

/-- A type, or the type of no value, is read where a result may stand. -/
theorem return_reads (layout : Layout) {type : IdlType} (returned : Returned type) (n : Nat) :
    ReadsItem layout Ends n (returnForm (nested n).type) ReturnForm.lower (typeTokens layout)
      type := by
  intro rest ends fits
  rcases returned with rfl | writable
  · rw [typeTokens, nameTokens_void] at fits ⊢
    obtain ⟨n, rfl⟩ := exists_level_word (isWord_void layout) fits
    exact void_reads layout ends.opens n
  · obtain ⟨form, read, lowered⟩ := type_reads layout writable n rest ends fits
    exact ⟨.type form, return_of_reads writable read, lowered⟩

/-- Written types have no extended attributes. -/
theorem attributedType_reads (layout : Layout) {type : IdlType} (writable : Writable type) (n : Nat) :
    ReadsItem layout Ends n (attributedType (nested n)) AttributedType.lower (typeTokens layout)
      type := by
  intro rest ends fits
  obtain ⟨form, read, lowered⟩ := type_reads layout writable n rest ends fits
  have bare := attributes_none (not_bracket layout writable rest) n
  exact ⟨.mk none form, by simp [attributedType, bare, read], lowered⟩

end IdlTypings.Grammar
