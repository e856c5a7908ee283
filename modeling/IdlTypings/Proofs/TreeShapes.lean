import Mathlib
import IdlTypings.Proofs.DocumentAppend
import IdlTypings.Proofs.Omissions

/-! # The shape of the trees of documents

Interfaces, mixins and dictionaries share one record in the tree, and so do their members.  A tree
that was read from a document uses much less of it than the record allows:

* `Definition.isShaped` says which parents and members go with which kind of definition;
* `Definition.types` lists the types of a definition, declared or not.  They are the types that the
  definition is written with, `types_lower`.

`readDocument_shaped`: every tree that is read is shaped, no type in it is unrecognized, and so no
type is reported when it is declared.  The grammar has no part in this.  Whatever it accepts, the
shape comes from the form that stands for a definition, case by case.
-/

namespace IdlTypings

open Idl Grammar

/-! ## Shapes -/

def Idl.IdlType.isNamed : IdlType → Bool
  | .named _ => true
  | _ => false

/-- What an interface may hold: no field, iterables of one or two types, constants of a named type. -/
def Idl.Member.fitsInterface : Member → Bool
  | .field .. => false
  | .const _ type => type.isNamed
  | .iterable types => types.length == 1 || types.length == 2
  | .attribute .. | .operation .. | .constructor _ | .unsupported _ => true

/-- What a mixin may hold: constants of a named type, attributes, operations and what the tree has no
    place for. -/
def Idl.Member.fitsMixin : Member → Bool
  | .const _ type => type.isNamed
  | .attribute .. | .operation .. | .unsupported _ => true
  | .field .. | .constructor _ | .iterable _ => false

/-- What a dictionary may hold: fields. -/
def Idl.Member.fitsDictionary : Member → Bool
  | .field .. => true
  | _ => false

/-- Whether the parent and the members of a definition go with its kind. -/
def Idl.Definition.isShaped : Definition → Bool
  | .interface body => body.members.all Member.fitsInterface
  | .mixin body => body.parent.isNone && body.members.all Member.fitsMixin
  | .dictionary body => body.members.all Member.fitsDictionary
  | .includes .. | .enumeration .. | .callback .. | .typedef .. | .unsupported _ => true

/-- The types of a member, those that are never declared among them. -/
def Idl.Member.types : Member → List IdlType
  | .attribute _ type _ | .field _ type _ | .const _ type => [type]
  | .operation _ arguments returns => arguments.map Argument.type ++ [returns]
  | .constructor arguments => arguments.map Argument.type
  | .iterable types => types
  | .unsupported _ => []

def Idl.Definition.types : Definition → List IdlType
  | .interface body | .mixin body | .dictionary body => body.members.flatMap Member.types
  | .callback _ arguments returns => arguments.map Argument.type ++ [returns]
  | .typedef _ type => [type]
  | .includes .. | .enumeration .. | .unsupported _ => []

/-- Whether every type in a type has a place in the tree. -/
def Idl.IdlType.isRecognized (type : IdlType) : Bool :=
  type.nodes.all fun node => !node.isUnrecognized

/-! ## What is lowered has a shape -/

namespace Grammar

theorem isNamed_constType (type : ConstType) : type.lower.isNamed = true := by
  cases type <;> rfl

theorem fitsInterface_lower (member : Annotated InterfaceMember) :
    (InterfaceMember.lower member).fitsInterface = true := by
  obtain ⟨attributes, form⟩ := member
  cases form with
  | const type _ _ => exact isNamed_constType type
  | _ => rfl

theorem fitsMixin_lower (member : Annotated MixinMember) :
    (MixinMember.lower member).fitsMixin = true := by
  obtain ⟨attributes, form⟩ := member
  cases form with
  | const type _ _ => exact isNamed_constType type
  | _ => rfl

theorem isShaped_lower (definition : Annotated DefinitionForm) :
    (DefinitionForm.lower definition).isShaped = true := by
  obtain ⟨attributes, form⟩ := definition
  cases form with
  | interface _ _ members | partialInterface _ members =>
    simp [DefinitionForm.lower, Definition.isShaped, fitsInterface_lower]
  | mixin _ members | partialMixin _ members =>
    simp [DefinitionForm.lower, Definition.isShaped, fitsMixin_lower]
  | dictionary _ _ members | partialDictionary _ members =>
    simp [DefinitionForm.lower, Definition.isShaped, DictionaryMember.lower, Member.fitsDictionary]
  | _ => rfl

/-! ### Types -/

theorem isRecognized_generic (name : String) (arguments : List IdlType) :
    (IdlType.generic name arguments).isRecognized = arguments.all IdlType.isRecognized := by
  have inside : (nodesOfTypes arguments).all (fun node => !node.isUnrecognized) =
      arguments.all IdlType.isRecognized := by
    induction arguments with
    | nil => rfl
    | cons type types ih => rw [nodesOfTypes, List.all_append, ih, List.all_cons]; rfl
  rw [IdlType.isRecognized, IdlType.nodes, List.all_cons, inside]
  rfl

theorem isRecognized_union (members : List IdlType) :
    (IdlType.union members).isRecognized = members.all IdlType.isRecognized := by
  rw [← isRecognized_generic ""]
  rfl

mutual

theorem isRecognized_typeForm : ∀ type : TypeForm, type.lower.isRecognized = true
  | .any => rfl
  | .single type => isRecognized_nonAny type
  | .union members _ => by
    rw [TypeForm.lower, isRecognized_union, isRecognized_members members]

theorem isRecognized_nonAny : ∀ type : NonAnyType, type.lower.isRecognized = true
  | .integer .. | .float .. | .builtIn .. | .identifier .. => rfl
  | .promise result => by
    simp [NonAnyType.lower, isRecognized_generic, isRecognized_returnForm result]
  | .sequence element _ | .frozenArray element _ => by
    simp [NonAnyType.lower, isRecognized_generic, isRecognized_typeForm element]
  | .record key value _ => by
    simp [NonAnyType.lower, isRecognized_generic, isRecognized_recordKey key,
      isRecognized_typeForm value]

theorem isRecognized_returnForm : ∀ returns : ReturnForm, returns.lower.isRecognized = true
  | .undefined => rfl
  | .type type => isRecognized_typeForm type

theorem isRecognized_recordKey : ∀ key : RecordKey, key.lower.isRecognized = true
  | .byteString | .domString | .usvString => rfl
  | .nonAny type => isRecognized_nonAny type

theorem isRecognized_unionMember : ∀ member : UnionMember, member.lower.isRecognized = true
  | .single _ type => isRecognized_nonAny type
  | .union members _ => by
    rw [UnionMember.lower, isRecognized_union, isRecognized_members members]

theorem isRecognized_members :
    ∀ members : List UnionMember, (lowerUnionMembers members).all IdlType.isRecognized = true
  | [] => rfl
  | member :: members => by
    rw [lowerUnionMembers, List.all_cons, isRecognized_unionMember member,
      isRecognized_members members, Bool.and_self]

end

/-! ### The types of a definition

A definition keeps the types it is written with, each at its place.  All of them are seen as results
here, the most general kind of type form. -/

def ConstType.written : ConstType → ReturnForm
  | .integer type nullable => .type (.single (.integer type nullable))
  | .float type nullable => .type (.single (.float type nullable))
  | .boolean nullable => .type (.single (.builtIn .boolean nullable))
  | .byte nullable => .type (.single (.builtIn .byte nullable))
  | .octet nullable => .type (.single (.builtIn .octet nullable))
  | .identifier name nullable => .type (.single (.identifier name nullable))

def AttributedType.written : AttributedType → ReturnForm
  | .mk _ type => .type type

def Argument.written : Argument → ReturnForm
  | .single _ _ type _ _ => type.written
  | .variadic _ type _ => .type type

/-- The types of a member of an interface that have a place in the tree. -/
def InterfaceMember.written : InterfaceMember → List ReturnForm
  | .const type _ _ => [type.written]
  | .attribute _ _ type _ | .iterable type => [type.written]
  | .constructor arguments => arguments.map Argument.written
  | .operation _ _ returns _ arguments => arguments.map Argument.written ++ [returns]
  | .iterablePair key value => [key.written, value.written]
  | .asyncIterable .. | .asyncIterablePair .. | .maplike .. | .setlike .. | .stringifier => []

def MixinMember.written : MixinMember → List ReturnForm
  | .const type _ _ => [type.written]
  | .attribute _ _ type _ => [type.written]
  | .operation _ returns _ arguments => arguments.map Argument.written ++ [returns]
  | .stringifier => []

/-- The types of a definition that have a place in the tree. -/
def DefinitionForm.written : DefinitionForm → List ReturnForm
  | .interface _ _ members | .partialInterface _ members => members.flatMap (·.form.written)
  | .mixin _ members | .partialMixin _ members => members.flatMap (·.form.written)
  | .dictionary _ _ members | .partialDictionary _ members =>
    members.flatMap fun member => [.type member.form.type]
  | .callback _ returns arguments => arguments.map Argument.written ++ [returns]
  | .typedef type _ => [type.written]
  | .callbackInterface .. | .namespaceOf .. | .partialNamespace .. | .enumeration .. | .includes ..
  | .implements .. => []

theorem lower_constType (type : ConstType) : type.written.lower = type.lower := by
  cases type <;> rfl

theorem lower_attributedType (type : AttributedType) : type.written.lower = type.lower := by
  cases type
  rfl

theorem types_arguments (arguments : List Argument) :
    (lowerArguments arguments).map Idl.Argument.type =
      (arguments.map Argument.written).map ReturnForm.lower := by
  rw [lowerArguments, List.map_map, List.map_map]
  apply List.map_congr_left
  intro argument _
  cases argument with
  | single _ _ type _ _ => exact (lower_attributedType type).symm
  | variadic _ type _ => rfl

theorem types_interfaceMember (member : Annotated InterfaceMember) :
    (InterfaceMember.lower member).types = member.form.written.map ReturnForm.lower := by
  obtain ⟨attributes, form⟩ := member
  match form with
  | .const type _ _ =>
    simp [InterfaceMember.lower, Member.types, InterfaceMember.written, lower_constType]
  | .attribute _ _ type _ | .iterable type =>
    simp [InterfaceMember.lower, Member.types, InterfaceMember.written, lower_attributedType]
  | .constructor arguments => exact types_arguments arguments
  | .operation _ _ returns _ arguments =>
    simp only [InterfaceMember.lower, Member.types, InterfaceMember.written, types_arguments,
      List.map_append, List.map_singleton]
  | .iterablePair key value =>
    simp [InterfaceMember.lower, Member.types, InterfaceMember.written, lower_attributedType]
  | .asyncIterable .. | .asyncIterablePair .. | .maplike .. | .setlike .. | .stringifier => rfl

theorem types_mixinMember (member : Annotated MixinMember) :
    (MixinMember.lower member).types = member.form.written.map ReturnForm.lower := by
  obtain ⟨attributes, form⟩ := member
  match form with
  | .const type _ _ =>
    simp [MixinMember.lower, Member.types, MixinMember.written, lower_constType]
  | .attribute _ _ type _ =>
    simp [MixinMember.lower, Member.types, MixinMember.written, lower_attributedType]
  | .operation _ returns _ arguments =>
    simp only [MixinMember.lower, Member.types, MixinMember.written, types_arguments,
      List.map_append, List.map_singleton]
  | .stringifier => rfl

theorem types_members {α : Type} {lower : α → Member} {written : α → List ReturnForm}
    (each : ∀ member, (lower member).types = (written member).map ReturnForm.lower)
    (members : List α) :
    (members.map lower).flatMap Member.types =
      (members.flatMap written).map ReturnForm.lower := by
  rw [List.flatMap_map, List.map_flatMap]
  exact List.flatMap_congr fun member _ => each member

/-- The types of a definition are the types that it is written with. -/
theorem types_lower (definition : Annotated DefinitionForm) :
    (DefinitionForm.lower definition).types = definition.form.written.map ReturnForm.lower := by
  obtain ⟨attributes, form⟩ := definition
  cases form with
  | interface _ _ members | partialInterface _ members =>
    exact types_members types_interfaceMember members
  | mixin _ members | partialMixin _ members => exact types_members types_mixinMember members
  | dictionary _ _ members | partialDictionary _ members =>
    exact types_members (fun _ => rfl) members
  | callback _ returns arguments =>
    simp only [DefinitionForm.lower, Definition.types, DefinitionForm.written, types_arguments,
      List.map_append, List.map_singleton]
  | typedef type _ =>
    simp [DefinitionForm.lower, Definition.types, DefinitionForm.written, lower_attributedType]
  | callbackInterface | namespaceOf | partialNamespace | enumeration | includes | implements => rfl

/-- No form stands for a type without a place in the tree. -/
theorem isRecognized_lower (definition : Annotated DefinitionForm) :
    ∀ type ∈ (DefinitionForm.lower definition).types, type.isRecognized = true := by
  rw [types_lower]
  exact List.forall_mem_map.mpr fun form _ => isRecognized_returnForm form

end Grammar

/-! ## No type is reported -/

theorem typeOmissions_recognized {types : List IdlType}
    (recognized : ∀ type ∈ types, type.isRecognized = true) : typeOmissions types = [] := by
  induction types with
  | nil => rfl
  | cons type types ih =>
    rw [List.forall_mem_cons] at recognized
    have first : type.nodes.filter IdlType.isUnrecognized = [] := by
      simpa [IdlType.isRecognized] using recognized.1
    rw [← List.singleton_append, typeOmissions_append, ih recognized.2]
    simp [typeOmissions, nodesOfTypes, first]

/-- The types of a member that are declared are among its types. -/
theorem declaredTypes_subset (owner : String) (member : Member) :
    member.declaredTypes owner ⊆ member.types := by
  cases member with
  | operation name arguments returns =>
    cases name with
    | none => exact List.nil_subset _
    | some name =>
      rw [Member.declaredTypes, Member.types]
      apply List.append_subset.mpr ⟨List.subset_append_left _ _, ?_⟩
      split
      · exact List.nil_subset _
      · exact List.subset_append_right _ _
  | _ => exact List.Subset.refl _

theorem omissions_recognized {d : Definition}
    (recognized : ∀ type ∈ d.types, type.isRecognized = true) :
    ∀ omission ∈ d.omissions, omission.diagnostic.kind ≠ .type := by
  have members {body : Interface}
      (recognized : ∀ type ∈ body.members.flatMap Member.types, type.isRecognized = true) :
      ∀ omission ∈ body.members.flatMap (Member.omissions body.name),
        omission.diagnostic.kind ≠ .type := by
    intro omission left
    obtain ⟨member, inside, left⟩ := List.mem_flatMap.mp left
    rw [Member.omissions] at left
    -- A member is left out as a whole, or only types in it are.
    split at left
    · obtain rfl := List.mem_singleton.mp left
      simp [Omission.diagnostic]
    · rw [typeOmissions_recognized fun type declared => recognized type
        (List.mem_flatMap.mpr ⟨member, inside, declaredTypes_subset body.name member declared⟩)] at left
      cases left
  cases d with
  | interface body | mixin body | dictionary body => exact members recognized
  | includes | enumeration => exact List.forall_mem_nil _
  | callback | typedef =>
    have none := typeOmissions_recognized recognized
    rw [Definition.types] at none
    rw [Definition.omissions, none]
    exact List.forall_mem_nil _
  | unsupported node => simp [Definition.omissions, Omission.diagnostic]

/-- What is read from a document, in any dialect, has the shape of its kind: mixins without a parent
    and with constants, attributes and operations only; fields in dictionaries only and nothing else
    there; constructors and iterables in interfaces only, the latter of one or two types; constants of
    named types.  No type in it is unrecognized, and none is reported when it is declared. -/
theorem readDocument_shaped {options : Options} {text : List Char} {ds : List Definition}
    (read : readDocument options text = .ok ds) :
    (∀ d ∈ ds, d.isShaped = true ∧ ∀ type ∈ d.types, type.isRecognized = true) ∧
      ∀ settings : Options, ∀ diagnostic ∈ (declare settings ds).diagnostics,
        diagnostic.kind ≠ .type := by
  obtain ⟨forms, -, rfl⟩ := read_eq_ok_iff.mp read
  have recognized : ∀ d ∈ forms.map DefinitionForm.lower,
      ∀ type ∈ d.types, type.isRecognized = true :=
    List.forall_mem_map.mpr fun form _ => isRecognized_lower form
  refine ⟨fun d member => ⟨?_, recognized d member⟩, ?_⟩
  · obtain ⟨form, -, rfl⟩ := List.mem_map.mp member
    exact isShaped_lower form
  · intro settings diagnostic reported
    rw [declare, declareAll_diagnostics] at reported
    obtain ⟨d, member, reported⟩ := List.mem_flatMap.mp reported
    rw [diagnostics_declareDefinition] at reported
    obtain ⟨omission, left, rfl⟩ := List.mem_map.mp reported
    exact omissions_recognized (recognized d member) omission left

/-- A part of a mixin, for Emscripten's binder. -/
def mixinDocument : List Char :=
  "partial interface mixin M \x7b attribute A[] x; \x7d;".toList

/-- The same in WebIDL. -/
def mendedMixin : List Char :=
  "partial interface mixin M \x7b attribute FrozenArray<A> x; \x7d;".toList

/-- What that document says. -/
def mixinTree : List Definition :=
  [.mixin ⟨"M", none, [.attribute "x" (.generic "FrozenArray" [.named "A"]) false], []⟩]

theorem readDocument_shaped_mixin :
    readDocument { emscripten := true } mixinDocument = .ok mixinTree ∧
      (∀ d ∈ mixinTree, d.isShaped = true ∧ ∀ type ∈ d.types, type.isRecognized = true) ∧
      ∀ settings : Options, ∀ diagnostic ∈ (declare settings mixinTree).diagnostics,
        diagnostic.kind ≠ .type := by
  have mended : Dialect.mend { emscripten := true } mixinDocument = mendedMixin := by
    decide +kernel
  have read : readDocument { emscripten := true } mixinDocument = .ok mixinTree := by
    rw [readDocument, mended]
    cbv
  exact ⟨read, readDocument_shaped read⟩

end IdlTypings
