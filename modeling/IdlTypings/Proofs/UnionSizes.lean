import Mathlib
import IdlTypings.Proofs.DocumentRoundTrip
import IdlTypings.Proofs.TreeShapes

/-! # How many alternatives a union has

The grammar accepts any number of alternatives between the parentheses of a union, none and a single
one among them, and the tree takes them over as they are.

* `IdlType.unionSizes` lists the numbers of members of the unions in a type, and
  `DefinitionForm.unionSizes` those of the alternatives that stand between parentheses in a definition.
* `unionSizes_lower`: lowering a definition neither adds an alternative nor drops one.
* `read_union`: a union of any number of types is read as the union of these types.

So a tree has unions of at least two members exactly if its document has, `readDocument_unions`.
Otherwise a union may have no text at all, as in `type X = ;`.
-/

namespace IdlTypings

open Idl Grammar IdlTypings.Parser

/-! ## Sizes in a tree -/

/-- The number of members of a union. -/
def Idl.IdlType.unionSize? : IdlType → Option Nat
  | .union members => some members.length
  | _ => none

/-- The numbers of members of the unions in a type, from left to right. -/
def Idl.IdlType.unionSizes (type : IdlType) : List Nat :=
  type.nodes.filterMap IdlType.unionSize?

/-- The numbers of members of the unions in a definition. -/
def Idl.Definition.unionSizes (d : Definition) : List Nat :=
  d.types.flatMap IdlType.unionSizes

theorem filterMap_nodesOfTypes (types : List IdlType) :
    (nodesOfTypes types).filterMap IdlType.unionSize? = types.flatMap IdlType.unionSizes := by
  induction types with
  | nil => rfl
  | cons type types ih => rw [nodesOfTypes, List.filterMap_append, ih, List.flatMap_cons]; rfl

@[simp] theorem unionSizes_named (name : String) : (IdlType.named name).unionSizes = [] := rfl

@[simp] theorem unionSizes_generic (name : String) (arguments : List IdlType) :
    (IdlType.generic name arguments).unionSizes = arguments.flatMap IdlType.unionSizes := by
  rw [← filterMap_nodesOfTypes, IdlType.unionSizes, IdlType.nodes]
  rfl

@[simp] theorem unionSizes_union (members : List IdlType) :
    (IdlType.union members).unionSizes = members.length :: members.flatMap IdlType.unionSizes := by
  rw [← filterMap_nodesOfTypes, IdlType.unionSizes, IdlType.nodes]
  rfl

/-! ## Sizes in a document -/

namespace Grammar

mutual

/-- The numbers of alternatives between the parentheses of a type, from left to right. -/
def TypeForm.unionSizes : TypeForm → List Nat
  | .any => []
  | .single type => type.unionSizes
  | .union members _ => members.length :: memberSizes members

def NonAnyType.unionSizes : NonAnyType → List Nat
  | .promise result => result.unionSizes
  | .sequence element _ | .frozenArray element _ => element.unionSizes
  | .record key value _ => key.unionSizes ++ value.unionSizes
  | .integer .. | .float .. | .builtIn .. | .identifier .. => []

/-- The same for what an operation or a promise gives. -/
def ReturnForm.unionSizes : ReturnForm → List Nat
  | .undefined => []
  | .type type => type.unionSizes

def RecordKey.unionSizes : RecordKey → List Nat
  | .byteString | .domString | .usvString => []
  | .nonAny type => type.unionSizes

def UnionMember.unionSizes : UnionMember → List Nat
  | .single _ type => type.unionSizes
  | .union members _ => members.length :: memberSizes members

def memberSizes : List UnionMember → List Nat
  | [] => []
  | member :: members => member.unionSizes ++ memberSizes members

end

/-- The numbers of alternatives between the parentheses of a definition. -/
def DefinitionForm.unionSizes (form : DefinitionForm) : List Nat :=
  form.written.flatMap ReturnForm.unionSizes

/-! ## Lowering keeps the sizes -/

mutual

theorem unionSizes_typeForm : ∀ type : TypeForm, type.lower.unionSizes = type.unionSizes
  | .any => rfl
  | .single type => unionSizes_nonAny type
  | .union members _ => by
    rw [TypeForm.lower, unionSizes_union, unionSizes_members members, TypeForm.unionSizes,
      lowerUnionMembers_eq, List.length_map]

theorem unionSizes_nonAny : ∀ type : NonAnyType, type.lower.unionSizes = type.unionSizes
  | .integer .. | .float .. | .builtIn .. | .identifier .. => rfl
  | .promise result => by
    simp [NonAnyType.lower, NonAnyType.unionSizes, unionSizes_returnForm result]
  | .sequence element _ | .frozenArray element _ => by
    simp [NonAnyType.lower, NonAnyType.unionSizes, unionSizes_typeForm element]
  | .record key value _ => by
    simp [NonAnyType.lower, NonAnyType.unionSizes, unionSizes_recordKey key,
      unionSizes_typeForm value]

theorem unionSizes_returnForm : ∀ returns : ReturnForm, returns.lower.unionSizes = returns.unionSizes
  | .undefined => rfl
  | .type type => unionSizes_typeForm type

theorem unionSizes_recordKey : ∀ key : RecordKey, key.lower.unionSizes = key.unionSizes
  | .byteString | .domString | .usvString => rfl
  | .nonAny type => unionSizes_nonAny type

theorem unionSizes_unionMember : ∀ member : UnionMember, member.lower.unionSizes = member.unionSizes
  | .single _ type => unionSizes_nonAny type
  | .union members _ => by
    rw [UnionMember.lower, unionSizes_union, unionSizes_members members, UnionMember.unionSizes,
      lowerUnionMembers_eq, List.length_map]

theorem unionSizes_members : ∀ members : List UnionMember,
    (lowerUnionMembers members).flatMap IdlType.unionSizes = memberSizes members
  | [] => rfl
  | member :: members => by
    rw [lowerUnionMembers, List.flatMap_cons, unionSizes_unionMember member,
      unionSizes_members members, memberSizes]

end

/-- A definition has as many members in each of its unions as alternatives were written. -/
theorem unionSizes_lower (definition : Annotated DefinitionForm) :
    (DefinitionForm.lower definition).unionSizes = definition.form.unionSizes := by
  rw [Definition.unionSizes, types_lower, List.flatMap_map]
  exact List.flatMap_congr fun form _ => unionSizes_returnForm form

/-! ## Every number of alternatives is accepted -/

variable {layout : Layout} {rest : List Token}

/-- No alternative begins with a closing parenthesis. -/
theorem unionMember_end (opens : Opens rest) (n : Nat) :
    unionMember (nested n) (spell layout (.mark .closeParen :: rest)) = none := by
  have bare : (nested n).attributes (spell layout (.mark .closeParen :: rest)) = none :=
    attributes_none (by simp [opens, Mark.char]) n
  have single : (nested n).nonAny (spell layout (.mark .closeParen :: rest)) = none := by
    cases n with
    | zero => rfl
    | succ n => exact nonAnyType_mark (nested n) .closeParen
  have union : (nested n).union (spell layout (.mark .closeParen :: rest)) = none := by
    cases n with
    | zero => rfl
    | succ n => simp [nested, Nested.step, unionType, parenthesized, opens, Mark.char]
  simp [unionMember, bare, single, union]

/-- A union is read with as many alternatives as it has. -/
theorem unionType_reads {members : List IdlType}
    (writable : ∀ type ∈ members, Writable type ∧ type ≠ .named "any") {n : Nat} (opens : Opens rest)
    (fits : (spell layout (typeTokens layout (.union members) ++ rest)).length ≤ n + 1) :
    ∃ forms, unionType (nested n) (spell layout (typeTokens layout (.union members) ++ rest)) =
      some (forms, spell layout rest) ∧ lowerUnionMembers forms = members := by
  cases members with
  | nil =>
    refine ⟨[], ?_, rfl⟩
    have tokens : typeTokens layout (.union []) ++ rest =
        .mark .openParen :: .mark .closeParen :: rest := by
      simp [typeTokens, typesTokens]
    rw [tokens]
    simp [unionType, parenthesized, sepBy, sepBy1, unionMember_end opens, opens]
  | cons first others =>
    refine unionType_of_items (fun type member => (writable type member).1) ?_ opens fits
    intro type member rest ends fits
    obtain ⟨isWritable, notAny⟩ := writable type member
    exact unionMember_of_reads isWritable (readsType isWritable notAny ends fits) ends.opens

/-- A name for a union of any number of types is read as such. -/
theorem definition_union {name : String} (isIdentifier : IsIdentifier name) {members : List IdlType}
    (writable : ∀ type ∈ members, Writable type ∧ type ≠ .named "any") {n : Nat}
    (fits : (spell layout (definitionTokens layout (.typedef name (.union members)))).length ≤ n + 1) :
    ∃ form, definition (nested (n + 1))
        (spell layout (definitionTokens layout (.typedef name (.union members)))) = some (form, []) ∧
      DefinitionForm.lower form = .typedef name (.union members) := by
  obtain ⟨us, opening⟩ : ∃ us, typeTokens layout (.union members) = .mark .openParen :: us :=
    ⟨_, by rw [typeTokens]⟩
  have opens : Opens [.word name, .mark .semicolon] := isIdentifier.word
  rw [definitionTokens] at fits ⊢
  obtain ⟨forms, read, lowered⟩ := unionType_reads writable opens (fits_cons fits)
  have follows : Opens (typeTokens layout (.union members) ++ [.word name, .mark .semicolon]) := by
    simp [opening]
  have bare : (nested (n + 1)).attributes (spell layout (typeTokens layout (.union members) ++
      [.word name, .mark .semicolon])) = none :=
    attributes_none (symbol_of_head (by simp) follows
      (by simp [opening, spell, Token.text, Mark.char])) (n + 1)
  -- A parenthesis begins no single type, so the alternatives are tried.
  have single : nonAnyType (nested n) (spell layout (typeTokens layout (.union members) ++
      [.word name, .mark .semicolon])) = none := by
    rw [opening, List.cons_append]
    exact nonAnyType_mark (nested n) .openParen
  have typed : (nested (n + 1)).type (spell layout (typeTokens layout (.union members) ++
      [.word name, .mark .semicolon])) =
        some (.union forms false, spell layout [.word name, .mark .semicolon]) := by
    have notAny : keyword "any" (spell layout (typeTokens layout (.union members) ++
        [.word name, .mark .semicolon])) = none := by
      simp [opening]
    simp [nested, Nested.step, typeForm, notAny, single, read, nullable_none opens]
  have form : definitionForm (nested (n + 1)) (spell layout (.word "typedef" ::
      (typeTokens layout (.union members) ++ [.word name, .mark .semicolon]))) =
        some (.typedef (.mk none (.union forms false)) name, []) := by
    rw [definitionForm_bodiless (nested (n + 1)) (keyword_bodyWords (by simp) (by decide))]
    simp [firstOf_cons_apply, enumerationForm, typedefForm, closed, keyword_word, attributedType,
      isIdentifier.word, follows, bare, typed]
    rfl
  exact ⟨_, annotated_bare (by simp) form (n + 1),
    by simp [DefinitionForm.lower, AttributedType.lower, TypeForm.lower, lowered]⟩

theorem read_union (layout : Layout) {name : String} (isIdentifier : IsIdentifier name)
    {members : List IdlType} (writable : ∀ type ∈ members, Writable type ∧ type ≠ .named "any") :
    read (spell layout (definitionTokens layout (.typedef name (.union members)))) =
      .ok [.typedef name (.union members)] := by
  generalize document : spell layout (definitionTokens layout (.typedef name (.union members))) = text
  obtain ⟨form, reads, lowered⟩ := definition_union (n := text.length) isIdentifier writable
    (by rw [document]; exact Nat.le_succ _)
  rw [document] at reads
  have trimmed : Text.trim text = text := by
    have ends : Text.trim ([] ++ (text ++ [])) = text :=
      trim_around (List.forall_mem_nil _) (List.forall_mem_nil _) ?_ ?_
    · simpa using ends
    · rw [← document, definitionTokens]
      simp [spell, Token.text, show Text.isSpace 't' = false by decide]
    · have last := getLast?_spell layout
        (.word "typedef" :: (typeTokens layout (.union members) ++ [.word name])) .semicolon
      have tokens : .word "typedef" :: (typeTokens layout (.union members) ++ [.word name]) ++
          [.mark .semicolon] = definitionTokens layout (.typedef name (.union members)) := by
        simp [definitionTokens]
      rw [tokens, document] at last
      simp [last, Mark.char, show Text.isSpace ';' = false by decide]
  have parsed : parse text = .ok [form] := by
    rw [parse_eq_ok_iff, trimmed]
    exact .one reads (definition_shortens (Nat.lt_succ_self _) reads)
  rw [read_eq_ok_iff]
  exact ⟨[form], parsed, by rw [List.map_singleton, lowered]⟩

end Grammar

/-! ## Unions of documents -/

/-- The unions of a tree have the members that the document has written for them: there are two or
    more in each if and only if two or more are written.  No number of members is refused, neither
    none nor a single one, and a name for a union without members is declared without a type. -/
theorem readDocument_unions (options : Options) (text : List Char) :
    (∀ ds, readDocument options text = .ok ds →
      ∃ forms, parse (Dialect.mend options text) = .ok forms ∧
        ds.map Definition.unionSizes = forms.map (·.form.unionSizes) ∧
          ((∀ definition ∈ ds, ∀ size ∈ definition.unionSizes, 2 ≤ size) ↔
            ∀ annotated ∈ forms, ∀ size ∈ annotated.form.unionSizes, 2 ≤ size)) ∧
    ∀ (layout : Layout) (name : String) (members : List IdlType), IsIdentifier name →
      (∀ type ∈ members, Writable type ∧ type ≠ .named "any") →
        readDocument {} (spell layout (definitionTokens layout (.typedef name (.union members)))) =
            .ok [.typedef name (.union members)] ∧
          (members = [] →
            (declarationFile {} [.typedef name (.union members)]).value = "type " ++ name ++ " = ;\n") := by
  refine ⟨?_, ?_⟩
  · intro ds read
    obtain ⟨forms, parsed, rfl⟩ := read_eq_ok_iff.mp read
    refine ⟨forms, parsed, ?_, ?_⟩
    · rw [List.map_map]
      exact List.map_congr_left fun form _ => unionSizes_lower form
    · simp only [List.forall_mem_map, unionSizes_lower]
  · intro layout name members isIdentifier writable
    refine ⟨read_union layout isIdentifier writable, ?_⟩
    rintro rfl
    change TypeScript.print [.alias name (.union [])] = _
    simp [TypeScript.print, TypeScript.Declaration.text, TypeScript.TypeExpr.text,
      String.append_assoc]

theorem readDocument_unions_empty :
    readDocument {} (spell .spaced (definitionTokens .spaced <| Definition.typedef "X" <| .union [])) =
        .ok [ Definition.typedef "X" <| .union []] ∧
      (∃ forms, parse (Dialect.mend {}
          (spell .spaced (definitionTokens .spaced <| Definition.typedef "X" <| .union []))) =
            .ok forms ∧ forms.map (·.form.unionSizes) = [[0]]) ∧
      (declarationFile {} [ Definition.typedef "X" <| .union []]).value = "type X = ;\n" := by
  have isIdentifier : IsIdentifier "X" := ⟨by decide, by decide⟩
  obtain ⟨sizes, accepted⟩ := readDocument_unions {}
    (spell .spaced (definitionTokens .spaced <| Definition.typedef "X" <| .union []))
  obtain ⟨read, declared⟩ := accepted .spaced "X" [] isIdentifier (List.forall_mem_nil _)
  obtain ⟨forms, parsed, same, -⟩ := sizes _ read
  exact ⟨read, ⟨forms, parsed, same.symm⟩, (declared rfl).trans (by decide)⟩

end IdlTypings
