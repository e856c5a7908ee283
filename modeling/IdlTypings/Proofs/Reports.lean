import Mathlib
import IdlTypings.Typings.Basic

/-! # Values and their reports

A `Reported` computation has two parts.  These equations give each part of a composed computation
from the parts of its steps, so that the proofs about declarations never open the monad:

* `value_bind` and `diagnostics_bind` for steps in a row;
* `value_forEach` and `diagnostics_forEach` for the items of a list;
* `value_declareTypes`, `declareInterface_value`, `declareAll_value` and their like for types,
  bodies and documents.
-/

namespace IdlTypings.Reported

variable {α β : Type}

@[simp] theorem value_clean (x : α) : (clean x).value = x := rfl

@[simp] theorem diagnostics_clean (x : α) : (clean x).diagnostics = [] := rfl

@[simp] theorem value_pure (x : α) : (pure x : Reported α).value = x := rfl

@[simp] theorem diagnostics_pure (x : α) : (pure x : Reported α).diagnostics = [] := rfl

@[simp] theorem value_bind (x : Reported α) (f : α → Reported β) :
    (x >>= f).value = (f x.value).value := rfl

@[simp] theorem diagnostics_bind (x : Reported α) (f : α → Reported β) :
    (x >>= f).diagnostics = x.diagnostics ++ (f x.value).diagnostics := rfl

@[simp] theorem value_forEach (f : α → Reported β) (xs : List α) :
    (forEach f xs).value = xs.map fun x => (f x).value := by
  induction xs with
  | nil => rfl
  | cons x xs ih => simp [forEach, ih]

@[simp] theorem diagnostics_forEach (f : α → Reported β) (xs : List α) :
    (forEach f xs).diagnostics = xs.flatMap fun x => (f x).diagnostics := by
  induction xs with
  | nil => rfl
  | cons x xs ih => simp [forEach, ih]

end IdlTypings.Reported

namespace IdlTypings

open Idl TypeScript Reported

/-! ## The parts of declarations -/

@[simp] theorem value_declareTypes (types : List IdlType) :
    (declareTypes types).value = types.map fun type => (declareType type).value := by
  induction types with
  | nil => rfl
  | cons type types ih => simp [declareTypes, ih]

@[simp] theorem diagnostics_declareTypes (types : List IdlType) :
    (declareTypes types).diagnostics = types.flatMap fun type => (declareType type).diagnostics := by
  induction types with
  | nil => rfl
  | cons type types ih => simp [declareTypes, ih]

theorem declareInterface_value (accessors : Bool) (body : Interface) :
    (declareInterface accessors body).value =
      .interface body.name
        ((body.parent.map fun name => Reference.mk name []).toList ++
          body.members.flatMap fun member => (declareMember accessors body.name member).value.heritage)
        (body.members.flatMap fun member =>
          (declareMember accessors body.name member).value.signatures) ::
        if body.onWindow then [.variable body.name (.named body.name) true] else [] := by
  simp [declareInterface, List.flatMap_map]

theorem declareInterface_diagnostics (accessors : Bool) (body : Interface) :
    (declareInterface accessors body).diagnostics =
      body.members.flatMap fun member =>
        (declareMember accessors body.name member).diagnostics := by
  simp [declareInterface]

theorem declareAll_value (accessors : Bool) (ds : List Definition) :
    (declareAll accessors ds).value = ds.flatMap fun d => (declareDefinition accessors d).value := by
  simp [declareAll, List.flatMap]

theorem declareAll_diagnostics (accessors : Bool) (ds : List Definition) :
    (declareAll accessors ds).diagnostics =
      ds.flatMap fun d => (declareDefinition accessors d).diagnostics := by
  simp [declareAll]

end IdlTypings
