import Mathlib
import IdlTypings.Proofs.Reports
import IdlTypings.Typings.Basic

/-! # Accessor mode against plain mode

Declared twice, once with properties and once with accessor methods, the same definitions give
declarations that go together one by one.

* `MemberPair`, `DefinitionPair` say what one member and one definition give in the two modes;
* `InOrder` puts such pairs in a row;
* `declareMember_pair` and `declareDefinition_pair` are the steps of the two runs, and
  `accessor_mode_simulates` compares the runs as a whole.

The relations follow the members and definitions that were declared, not the declarations alone: a
field and a constant are declared as properties too, and stay properties in accessor mode.
-/

namespace IdlTypings

open Idl TypeScript Reported

variable {α β : Type}

/-! ## What is compared -/

/-- Two lists made from the same items: one piece after the other, and the pieces of an item are
    related. -/
inductive InOrder (related : α → List β → List β → Prop) : List α → List β → List β → Prop where
  | done : InOrder related [] [] []
  | item {x : α} {xs : List α} {left right lefts rights : List β} (piece : related x left right)
      (rest : InOrder related xs lefts rights) :
      InOrder related (x :: xs) (left ++ lefts) (right ++ rights)

/-- The signatures of a member in plain mode and in accessor mode. -/
def MemberPair : Member → List Signature → List Signature → Prop
  | .attribute name type readonly, plain, accessors =>
    plain = [.property name readonly false (declareType type).value] ∧
      accessors =
        [.method ("get_" ++ name) [] (declareType type).value,
          .method ("set_" ++ name) [.mk "value" false (declareType type).value] (.keyword .void)]
  | .operation (some _) _ _, plain, accessors | .constructor _, plain, accessors
  | .field _ _ _, plain, accessors | .const _ _, plain, accessors =>
    ∃ signature, plain = [signature] ∧ accessors = [signature]
  | .operation none _ _, plain, accessors | .iterable _, plain, accessors
  | .unsupported _, plain, accessors => plain = [] ∧ accessors = []

/-- The declarations of an interface, a mixin or a dictionary in the two modes. -/
def BodyPair (body : Interface) (plain accessors : List Declaration) : Prop :=
  ∃ heritage properties methods globals,
    InOrder MemberPair body.members properties methods ∧
      globals.length = (if body.onWindow then 1 else 0) ∧
      plain = .interface body.name heritage properties :: globals ∧
      accessors = .interface body.name heritage methods :: globals

/-- The declarations of a definition in the two modes. -/
def DefinitionPair : Definition → List Declaration → List Declaration → Prop
  | .interface body, plain, accessors | .mixin body, plain, accessors
  | .dictionary body, plain, accessors => BodyPair body plain accessors
  | .includes _ _, plain, accessors | .enumeration _ _, plain, accessors
  | .callback _ _ _, plain, accessors | .typedef _ _, plain, accessors =>
    ∃ declaration, plain = [declaration] ∧ accessors = [declaration]
  | .unsupported _, plain, accessors => plain = [] ∧ accessors = []

/-! ## Items in order -/

theorem InOrder.flatMap {related : α → List β → List β → Prop} {f g : α → List β} {xs : List α}
    (pieces : ∀ x ∈ xs, related x (f x) (g x)) :
    InOrder related xs (xs.flatMap f) (xs.flatMap g) := by
  induction xs with
  | nil => exact .done
  | cons x xs ih =>
    simp only [List.forall_mem_cons] at pieces
    exact .item pieces.1 (ih pieces.2)

theorem InOrder.length_eq {related : α → List β → List β → Prop}
    (lengths : ∀ {x left right}, related x left right → left.length = right.length)
    {xs : List α} {lefts rights : List β} (order : InOrder related xs lefts rights) :
    lefts.length = rights.length := by
  induction order with
  | done => rfl
  | item piece _ ih => rw [List.length_append, List.length_append, lengths piece, ih]

theorem DefinitionPair.length_eq {d : Definition} {plain accessors : List Declaration}
    (pair : DefinitionPair d plain accessors) : plain.length = accessors.length := by
  match d with
  | .interface _ | .mixin _ | .dictionary _ =>
    obtain ⟨heritage, properties, methods, globals, -, -, rfl, rfl⟩ := pair
    rfl
  | .includes _ _ | .enumeration _ _ | .callback _ _ _ | .typedef _ _ =>
    obtain ⟨declaration, rfl, rfl⟩ := pair
    rfl
  | .unsupported _ =>
    obtain ⟨rfl, rfl⟩ := pair
    rfl

/-! ## One step of the two runs -/

/-- A member is declared with the same reports and heritage in both modes, and only an attribute
    with other signatures. -/
theorem declareMember_pair (owner : String) (member : Member) :
    (declareMember true owner member).diagnostics = (declareMember false owner member).diagnostics ∧
      (declareMember true owner member).value.heritage =
        (declareMember false owner member).value.heritage ∧
      MemberPair member (declareMember false owner member).value.signatures
        (declareMember true owner member).value.signatures := by
  match member with
  | .attribute name type readonly =>
    exact ⟨rfl, rfl, rfl, rfl⟩
  | .operation (some name) arguments returns =>
    refine ⟨rfl, rfl, ?_⟩
    -- An operation named like its owner is a constructor, whatever the mode.
    by_cases constructs : name = owner
    · exact ⟨.construct (declareArguments arguments).value, by simp [declareMember, constructs]⟩
    · exact ⟨.method name (declareArguments arguments).value (declareType returns).value,
        by simp [declareMember, constructs]⟩
  | .constructor _ | .field _ _ _ | .const _ _ => exact ⟨rfl, rfl, _, rfl, rfl⟩
  | .operation none _ _ | .iterable _ | .unsupported _ => exact ⟨rfl, rfl, rfl, rfl⟩

theorem declareInterface_pair (body : Interface) :
    (declareInterface true body).diagnostics = (declareInterface false body).diagnostics ∧
      BodyPair body (declareInterface false body).value (declareInterface true body).value := by
  have members := declareMember_pair body.name
  refine ⟨by simp [declareInterface, (members _).1], ?_⟩
  rw [declareInterface_value, declareInterface_value]
  -- The heritage is the same in both modes, so one list of references serves for both.
  simp only [(members _).2.1]
  refine ⟨_, _, _, _, InOrder.flatMap fun member _ => (members member).2.2, ?_, rfl, rfl⟩
  split <;> rfl

theorem declareDefinition_pair (d : Definition) :
    (declareDefinition true d).diagnostics = (declareDefinition false d).diagnostics ∧
      DefinitionPair d (declareDefinition false d).value (declareDefinition true d).value := by
  match d with
  | .interface body | .mixin body | .dictionary body => exact declareInterface_pair body
  | .includes _ _ | .enumeration _ _ | .callback _ _ _ | .typedef _ _ => exact ⟨rfl, _, rfl, rfl⟩
  | .unsupported _ => exact ⟨rfl, rfl, rfl⟩

/-! ## The two runs -/

/-- In accessor mode every attribute is a pair of methods where it was a property, and nothing else
    is different.  The other settings have no part in it. -/
theorem accessor_mode_simulates (ds : List Definition) {plain accessors : Options}
    (properties : plain.emscripten = false) (methods : accessors.emscripten = true) :
    (declare accessors ds).diagnostics = (declare plain ds).diagnostics ∧
      (declare accessors ds).value.length = (declare plain ds).value.length ∧
      InOrder DefinitionPair ds (declare plain ds).value (declare accessors ds).value ∧
      ∀ first second : Options, first.emscripten = second.emscripten →
        declare first ds = declare second ds := by
  have order : InOrder DefinitionPair ds (declare plain ds).value (declare accessors ds).value := by
    rw [declare, declare, properties, methods, declareAll_value, declareAll_value]
    exact InOrder.flatMap fun d _ => (declareDefinition_pair d).2
  refine ⟨?_, (order.length_eq DefinitionPair.length_eq).symm, order, ?_⟩
  · rw [declare, declare, properties, methods, declareAll_diagnostics, declareAll_diagnostics]
    simp only [(declareDefinition_pair _).1]
  · intro first second same
    rw [declare, declare, same]

/-- A constant and an attribute of one name, on an interface with a constructor. -/
def exposedNode : Definition :=
  .interface ⟨"Node", none,
    [.const "kind" (.named "octet"), .attribute "kind" (.named "DOMString") true,
      .operation (some "Node") [] (.named "void"), .iterable [.named "Node"]],
    [⟨"Exposed", some (.identifier "Window")⟩]⟩

theorem accessor_mode_simulates_node :
    ({} : Options).emscripten = false ∧
      ({ emscripten := true, gecko := true } : Options).emscripten = true ∧
      InOrder DefinitionPair [exposedNode]
        [.interface "Node" [⟨"Iterable", [.named "Node"]⟩]
          [.property "kind" true false (.keyword .number),
            .property "kind" true false (.keyword .string), .construct []],
          .variable "Node" (.named "Node") true]
        [.interface "Node" [⟨"Iterable", [.named "Node"]⟩]
          [.property "kind" true false (.keyword .number), .method "get_kind" [] (.keyword .string),
            .method "set_kind" [.mk "value" false (.keyword .string)] (.keyword .void),
            .construct []],
          .variable "Node" (.named "Node") true] := by
  have properties : ({} : Options).emscripten = false := rfl
  have methods : ({ emscripten := true, gecko := true } : Options).emscripten = true := rfl
  obtain ⟨-, -, order, -⟩ := accessor_mode_simulates [exposedNode] properties methods
  exact ⟨properties, methods, order⟩

end IdlTypings
