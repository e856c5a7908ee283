import IdlTypings.Json.Basic

/-!
# Diagnostics

What cannot be declared is left out and reported.  `Reported` is a value together with the reports
made on the way to it, in order.
-/

namespace IdlTypings

/-- What kind of node was left out. -/
inductive Diagnostic.Kind where
  | definition
  | member
  | type
  deriving Repr, BEq, DecidableEq, Inhabited

/-- The report of a node that was left out. -/
structure Diagnostic where
  kind : Diagnostic.Kind
  message : String
  /-- The pretty JSON text of the node. -/
  node : String
  deriving Repr, BEq, DecidableEq, Inhabited

def Diagnostic.text (d : Diagnostic) : String :=
  d.message ++ "\n" ++ d.node ++ "\nPlease file an issue and provide the used idl file."

/-- A value and the reports made on the way to it. -/
structure Reported (α : Type) where
  value : α
  diagnostics : List Diagnostic

namespace Reported

variable {α β : Type}

/-- A value without reports. -/
def clean (value : α) : Reported α :=
  ⟨value, []⟩

/-- A value, and another made from it; the reports of the first come first. -/
def andThen (x : Reported α) (f : α → Reported β) : Reported β :=
  ⟨(f x.value).value, x.diagnostics ++ (f x.value).diagnostics⟩

instance : Monad Reported where
  pure := clean
  bind := andThen

def report (kind : Diagnostic.Kind) (message : String) (node : Json) : Reported Unit :=
  ⟨(), [⟨kind, message, node.pretty⟩]⟩

/-- The values of some items, in order. -/
def forEach (f : α → Reported β) : List α → Reported (List β)
  | [] => clean []
  | x :: xs => do
    let y ← f x
    let ys ← forEach f xs
    return y :: ys

end Reported

end IdlTypings
