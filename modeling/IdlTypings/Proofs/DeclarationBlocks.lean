import Mathlib
import IdlTypings.Proofs.Reports

/-! # One block of declarations for each definition

Declaring loses nothing, repeats nothing and keeps the order.

* `SignatureOf` and `IterableOf` say what a single member of a body becomes, `PlainBody` what the
  body becomes when attributes are declared as properties.
* `BlockOf` says what a definition becomes.
* `declared_in_blocks`: the declarations of a document are the blocks of its definitions, in a row.

A body feeds two lists, the signatures and what the interface extends.  `forall₂_filter_flatMap`
takes each of them apart on its own: a member has one piece in one of the lists, or none at all.
-/

namespace IdlTypings

open Idl TypeScript Reported

variable {α β : Type}

/-! ## What members become -/

/-- The parameter of an argument keeps its name and whether it may be left out. -/
def ParameterOf (argument : Idl.Argument) (parameter : Parameter) : Prop :=
  parameter = .mk argument.name argument.optional (declareType argument.type).value

/-- The signature of a member where attributes are properties. -/
def SignatureOf (owner : String) : Member → Signature → Prop
  | .attribute name type readonly, signature =>
    signature = .property name readonly false (declareType type).value
  | .field name type required, signature =>
    signature = .property name false (!required) (declareType type).value
  | .const name type, signature => signature = .property name true false (declareType type).value
  | .constructor arguments, signature =>
    ∃ parameters, List.Forall₂ ParameterOf arguments parameters ∧ signature = .construct parameters
  | .operation (some name) arguments returns, signature =>
    ∃ parameters, List.Forall₂ ParameterOf arguments parameters ∧
      signature =
        if name = owner then .construct parameters
        else .method name parameters (declareType returns).value
  | .operation none _ _, _ | .iterable _, _ | .unsupported _, _ => False

/-- What an interface extends because of a member. -/
def IterableOf : Member → Reference → Prop
  | .iterable types, reference =>
    reference.name = "Iterable" ∧
      List.Forall₂ (fun type argument => argument = (declareType type).value) types
        reference.arguments
  | _, _ => False

def Idl.Member.hasSignature : Member → Bool
  | .operation none _ _ | .iterable _ | .unsupported _ => false
  | _ => true

/-- Whether a member says what its interface iterates over. -/
def Idl.Member.isIterable : Member → Bool
  | .iterable _ => true
  | _ => false

/-- The declaration of a body where attributes are properties: one signature for each member that has
    one, and the parent followed by one reference for each member to iterate over. -/
def PlainBody (body : Interface) (declaration : Declaration) : Prop :=
  ∃ signatures iterables,
    declaration =
      .interface body.name ((body.parent.map (Reference.mk · [])).toList ++ iterables) signatures ∧
      List.Forall₂ (SignatureOf body.name) (body.members.filter Member.hasSignature) signatures ∧
      List.Forall₂ IterableOf (body.members.filter Member.isIterable) iterables

/-! ## What definitions become -/

/-- The body of an interface, a mixin or a dictionary. -/
def Idl.Definition.body? : Definition → Option Interface
  | .interface body | .mixin body | .dictionary body => some body
  | _ => none

/-- One of the attributes is `Exposed`, set to `Window` and nothing else. -/
def Idl.Interface.ExposedOnWindow (body : Interface) : Prop :=
  ∃ attr ∈ body.attributes, attr.name = "Exposed" ∧
    (attr.value = some (.identifier "Window") ∨ attr.value = some (.string "Window"))

/-- The variables behind the declaration of a definition: one of the same name and type if the
    definition has a body that is exposed on `Window`, and none otherwise. -/
def GlobalsOf (d : Definition) (globals : List Declaration) : Prop :=
  (∃ body, d.body? = some body ∧ body.ExposedOnWindow ∧
      globals = [.variable body.name (.named body.name) true]) ∨
    ((∀ body, d.body? = some body → ¬ body.ExposedOnWindow) ∧ globals = [])

/-- The declarations of a definition: none if it is unsupported, and otherwise one of its name with
    its variables behind it. -/
def BlockOf (accessors : Bool) : Definition → List Declaration → Prop
  | .unsupported _, block => block = []
  | d, block =>
    ∃ declaration globals, block = declaration :: globals ∧ d.name? = some declaration.name ∧
      GlobalsOf d globals ∧
      (accessors = false → ∀ body, d.body? = some body → PlainBody body declaration)

/-! ## Members -/

/-- Lists made item by item, when each item gives one piece or none. -/
theorem forall₂_filter_flatMap {related : α → β → Prop} {keep : α → Bool} {f : α → List β}
    (kept : ∀ x, keep x = true → ∃ y, f x = [y] ∧ related x y)
    (dropped : ∀ x, keep x = false → f x = []) (xs : List α) :
    List.Forall₂ related (xs.filter keep) (xs.flatMap f) := by
  induction xs with
  | nil => exact .nil
  | cons x xs ih =>
    rw [List.flatMap_cons]
    cases decided : keep x with
    | true =>
      obtain ⟨y, piece, holds⟩ := kept x decided
      rw [List.filter_cons_of_pos decided, piece]
      exact .cons holds ih
    | false =>
      rw [List.filter_cons_of_neg (by simp [decided]), dropped x decided]
      exact ih

theorem parametersOf (arguments : List Idl.Argument) :
    List.Forall₂ ParameterOf arguments (declareArguments arguments).value := by
  rw [declareArguments, value_forEach]
  induction arguments with
  | nil => exact .nil
  | cons argument arguments ih => exact .cons rfl ih

theorem signatureOf_declareMember (owner : String) (member : Member)
    (declared : member.hasSignature = true) :
    ∃ signature, (declareMember false owner member).value.signatures = [signature] ∧
      SignatureOf owner member signature := by
  match member with
  | .attribute _ _ _ | .field _ _ _ | .const _ _ => exact ⟨_, rfl, rfl⟩
  | .constructor arguments =>
    exact ⟨.construct (declareArguments arguments).value, rfl, _, parametersOf arguments, rfl⟩
  | .operation (some name) arguments returns =>
    refine ⟨if name = owner then .construct (declareArguments arguments).value
      else .method name (declareArguments arguments).value (declareType returns).value, ?_,
      _, parametersOf arguments, rfl⟩
    by_cases constructs : name = owner <;> simp [declareMember, constructs]

theorem signatures_of_undeclared (owner : String) (member : Member)
    (undeclared : member.hasSignature = false) :
    (declareMember false owner member).value.signatures = [] := by
  match member with
  | .operation none _ _ | .iterable _ | .unsupported _ => rfl

theorem iterableOf_declareMember (accessors : Bool) (owner : String) (member : Member)
    (iterates : member.isIterable = true) :
    ∃ reference, (declareMember accessors owner member).value.heritage = [reference] ∧
      IterableOf member reference := by
  match member with
  | .iterable types =>
    refine ⟨⟨"Iterable", (declareTypes types).value⟩, rfl, rfl, ?_⟩
    rw [value_declareTypes]
    induction types with
    | nil => exact .nil
    | cons type types ih => exact .cons rfl (ih rfl)

theorem heritage_of_other (accessors : Bool) (owner : String) (member : Member)
    (other : member.isIterable = false) :
    (declareMember accessors owner member).value.heritage = [] := by
  match member with
  | .operation (some name) _ _ => by_cases constructs : name = owner <;> simp [declareMember, constructs]
  | .attribute _ _ _ | .operation none _ _ | .constructor _ | .field _ _ _ | .const _ _
  | .unsupported _ => rfl

/-! ## Definitions -/

theorem onWindow_iff (body : Interface) : body.onWindow = true ↔ body.ExposedOnWindow := by
  have single (value : Option AttributeValue) : value.bind AttributeValue.single? = some "Window" ↔
      value = some (.identifier "Window") ∨ value = some (.string "Window") := by
    match value with
    | none | some (.identifierList _) => simp [AttributeValue.single?]
    | some (.identifier _) | some (.string _) => simp [AttributeValue.single?]
  simp [Interface.onWindow, Interface.ExposedOnWindow, single]

/-- The block of a definition with a body. -/
theorem blockOf_declareInterface (accessors : Bool) {d : Definition} {body : Interface}
    (isBody : d.body? = some body) (named : d.name? = some body.name) :
    ∃ declaration globals, (declareInterface accessors body).value = declaration :: globals ∧
      d.name? = some declaration.name ∧ GlobalsOf d globals ∧
      (accessors = false → ∀ body, d.body? = some body → PlainBody body declaration) := by
  refine ⟨_, _, declareInterface_value accessors body, named, ?_, ?_⟩
  · by_cases exposed : body.onWindow = true
    · rw [if_pos exposed]
      exact .inl ⟨body, isBody, (onWindow_iff body).mp exposed, rfl⟩
    · rw [if_neg exposed]
      refine .inr ⟨?_, rfl⟩
      intro other isOther
      obtain rfl : body = other := Option.some.inj (isBody.symm.trans isOther)
      exact fun onWindow => exposed ((onWindow_iff body).mpr onWindow)
  · rintro rfl other isOther
    obtain rfl : body = other := Option.some.inj (isBody.symm.trans isOther)
    exact ⟨_, _, rfl,
      forall₂_filter_flatMap (signatureOf_declareMember body.name)
        (signatures_of_undeclared body.name) body.members,
      forall₂_filter_flatMap (iterableOf_declareMember false body.name)
        (heritage_of_other false body.name) body.members⟩

theorem blockOf_declareDefinition (accessors : Bool) (d : Definition) :
    BlockOf accessors d (declareDefinition accessors d).value := by
  match d with
  | .interface _ | .mixin _ | .dictionary _ => exact blockOf_declareInterface accessors rfl rfl
  | .includes _ _ | .enumeration _ _ | .callback _ _ _ | .typedef _ _ =>
    refine ⟨_, [], rfl, rfl, .inr ⟨?_, rfl⟩, ?_⟩
    · intro body isBody
      cases isBody
    · intro _ body isBody
      cases isBody
  | .unsupported _ => rfl

/-- The declarations of a document are one block for each definition, in the order of the document.
    A block depends on its definition and on how attributes are declared, and on nothing else. -/
theorem declared_in_blocks :
    ∃ block : Bool → Definition → List Declaration,
      (∀ options ds, (declare options ds).value = ds.flatMap (block options.emscripten)) ∧
        ∀ accessors d, BlockOf accessors d (block accessors d) :=
  ⟨fun accessors d => (declareDefinition accessors d).value,
    fun options ds => declareAll_value options.emscripten ds, blockOf_declareDefinition⟩

end IdlTypings
