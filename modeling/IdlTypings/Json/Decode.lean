import IdlTypings.Json.Reader

/-!
# Decoding JSON values

What a value means is decided by its place.  A node is an object with named fields, or an array
with the same fields in order; where there are several variants of a node, a tag says which one
stands there.

* `Record` describes the fields of a node.  All of them are decoded on their own; the first fault in
  the order of the text is the one that counts, and a missing field comes after all of them.
* `Variant` is a record with its tag; `tagged` decodes one of several variants from a value, and
  `readTagged` from text, where the tag is judged as soon as it is met.
* `tagAndValue` decodes a node whose tag stands beside a single value.
-/

namespace IdlTypings.Json

variable {α β : Type}

abbrev Decoder (α : Type) : Type :=
  Json → Except Fault α

namespace Decoder

def string : Decoder String
  | .string value => .ok value
  | other => .error (.wrongType other.found "a string")

def bool : Decoder Bool
  | .bool value => .ok value
  | other => .error (.wrongType other.found "a boolean")

def list (item : Decoder α) : Decoder (List α)
  | .array items => items.mapM item
  | other => .error (.wrongType other.found "a sequence")

/-- Nothing for null. -/
def nullable (decode : Decoder α) : Decoder (Option α)
  | .null => .ok none
  | other => some <$> decode other

end Decoder

/-! ## Fields -/

/-- The fields of a node, by name or in order. -/
inductive Fields where
  | named (entries : List (String × Json))
  | ordered (items : List Json)
  deriving Repr, BEq, Inhabited

/-- A value, or a fault and its place. -/
abbrev Placed (α : Type) : Type :=
  Except (Nat × Fault) α

/-- A function and its argument; of two faults the one at the earlier place. -/
def Placed.apply (f : Placed (α → β)) (x : Placed α) : Placed β :=
  match f, x with
  | .ok f, .ok x => .ok (f x)
  | .error e, .ok _ => .error e
  | .ok _, .error e => .error e
  | .error e₁, .error e₂ => .error (if e₂.1 < e₁.1 then e₂ else e₁)

/-- Some fields of a node. -/
structure Record (α : Type) where
  /-- How many fields there are. -/
  size : Nat
  /-- Decodes the fields, of which the first has the given number.  `expected` says what an array
      that is too short was to be. -/
  decode : (expected : String) → (first : Nat) → Fields → Placed α

namespace Record

/-- No field, and a value that needs none. -/
def of (value : α) : Record α where
  size := 0
  decode _ _ _ := .ok value

/-- The fields of a function, then those of its argument. -/
def andThen (f : Record (α → β)) (x : Record α) : Record β where
  size := f.size + x.size
  decode expected first fields :=
    Placed.apply (f.decode expected first fields) (x.decode expected (first + f.size) fields)

instance : Applicative Record where
  pure := of
  seq f x := andThen f (x ())

/-- The entries with a key, each with its place. -/
def occurrences (key : String) (entries : List (String × Json)) : List (Nat × Json) :=
  entries.zipIdx.filterMap fun ((k, value), place) => if k == key then some (place, value) else none

/-- A fault at a place, where decoding fails. -/
def placed (place : Nat) (result : Except Fault α) : Placed α :=
  result.mapError fun fault => (place, fault)

/-- A field, which takes its default where it is missing. -/
def field (name : String) (decode : Decoder α) (default : Option α) : Record α where
  size := 1
  decode expected first
    | .named entries =>
      match occurrences name entries with
      | [] =>
        match default with
        | some value => .ok value
        | none => .error (entries.length + first, .missingField name)
      | (place, value) :: others =>
        match placed place (decode value), others with
        | .ok value, [] => .ok value
        | .ok _, (second, _) :: _ => .error (second, .duplicateField name)
        | .error e, _ => .error e
    | .ordered items =>
      match items[first]?, default with
      | some value, _ => placed first (decode value)
      | none, some value => .ok value
      | none, none => .error (first, .wrongLength first expected)

/-- A field that must be there. -/
def required (name : String) (decode : Decoder α) : Record α :=
  field name decode none

def optional (name : String) (decode : Decoder α) (default : α) : Record α :=
  field name decode (some default)

/-- A field that may be null, and is when it is missing. -/
def nullable (name : String) (decode : Decoder α) : Record (Option α) :=
  optional name (Decoder.nullable decode) none

/-- Refuses an array with more items than a node has fields. -/
def checkLength (size : Nat) : Fields → Except Fault Unit
  | .named _ => .ok ()
  | .ordered items =>
    if items.length ≤ size then .ok ()
    else .error (.wrongLength items.length (elements size ++ " in sequence"))

/-- The node with these fields; `what` is its name in messages. -/
def node (what : String) (r : Record α) (fields : Fields) : Except Fault α := do
  let expected := what ++ " with " ++ elements r.size
  let value ← (r.decode expected 0 fields).mapError Prod.snd
  checkLength r.size fields
  return value

/-- A node that has no variants. -/
def plain (what : String) (r : Record α) : Decoder α
  | .object entries => r.node what (.named entries)
  | .array items => r.node what (.ordered items)
  | other => .error (.wrongType other.found what)

end Record

/-! ## Variants -/

/-- One variant of a node. -/
structure Variant (α : Type) where
  tag : String
  /-- The name in messages. -/
  what : String
  record : Record α

def tagKey : String := "kind"

def variantNamed (variants : List (Variant α)) (tag : String) : Except Fault (Variant α) :=
  match variants.find? (·.tag == tag) with
  | some variant => .ok variant
  | none => .error (.unknownVariant tag (variants.map (·.tag)))

/-- A variant by its tag or by its number. -/
def variantTag (variants : List (Variant α)) : Decoder (Variant α)
  | .string tag => variantNamed variants tag
  | .number (.integer (.ofNat index)) =>
    match variants[index]? with
    | some variant => .ok variant
    | none =>
      .error (.wrongValue (.number (.integer index))
        ("variant index 0 <= i < " ++ toString variants.length))
  | other => .error (.wrongType other.found "variant identifier")

/-- How messages name a node with variants. -/
def taggedName (name : String) : String :=
  "internally tagged enum " ++ name

/-- A node with variants.  In an object the tag may stand anywhere among the fields; in an array it
    comes first. -/
def tagged (name : String) (variants : List (Variant α)) : Decoder α
  | .array [] => .error (.missingField tagKey)
  | .array (tag :: items) => do
    let variant ← variantTag variants tag
    variant.record.node variant.what (.ordered items)
  | .object entries =>
    match entries.filter (·.1 == tagKey) with
    | [] => .error (.missingField tagKey)
    | (_, tag) :: others => do
      let variant ← variantTag variants tag
      if !others.isEmpty then throw (.duplicateField tagKey)
      variant.record.node variant.what (.named (entries.filter (·.1 != tagKey)))
  | other => .error (.wrongType other.found (taggedName name))

namespace Reader

/-- A tag in a text.  It is no number, and an array or object in its place is refused unread. -/
def tag (variants : List (Variant α)) : Reader (Variant α) := do
  match ← peek with
  | some '[' => throw (.wrongType .sequence "variant identifier")
  | some '\x7b' => throw (.wrongType .map "variant identifier")
  | _ =>
    match ← scalar with
    | .string tag => ofExcept (variantNamed variants tag)
    | other => throw (.wrongType other.found "variant identifier")

/-- What has been read of a node: the variant once its tag was met, and the fields in reverse. -/
structure Progress (α φ : Type) where
  variant : Option (Variant α) := none
  fields : List φ := []

/-- The next item of a node that is an array. -/
def taggedItem (variants : List (Variant α)) (levels : Nat) (p : Progress α Json) :
    Reader (Progress α Json) := do
  match p.variant with
  | none => return { p with variant := some (← tag variants) }
  | some _ => return { p with fields := (← value levels) :: p.fields }

/-- The next entry of a node that is an object.  A second tag is refused as soon as its key is
    met. -/
def taggedEntry (variants : List (Variant α)) (levels : Nat) (p : Progress α (String × Json))
    (key : String) : Reader (Progress α (String × Json)) := do
  if key == tagKey then
    if p.variant.isSome then throw (.duplicateField tagKey)
    return { p with variant := some (← afterColon (tag variants)) }
  else
    let item ← afterColon (value levels)
    return { p with fields := (key, item) :: p.fields }

/-- The node that has been read. -/
def finish {φ : Type} (p : Progress α φ) (fields : List φ → Fields) : Reader α :=
  match p.variant with
  | none => throw (.missingField tagKey)
  | some variant => ofExcept (variant.record.node variant.what (fields p.fields.reverse))

/-- A node with variants, from text.  It is read to its end, its tag being judged on the way; then
    its fields are decoded.  What lies inside it may nest the given number of levels. -/
def tagged (name : String) (variants : List (Variant α)) (levels : Nat) : Reader α := do
  match ← peek with
  | some '[' => finish (← array (taggedItem variants levels) {}) .ordered
  | some '\x7b' => finish (← object (taggedEntry variants levels) {}) .named
  | _ => throw (.wrongType (← scalar).found (taggedName name))

/-- An array of which each item is read by itself. -/
def list (item : Reader α) : Reader (List α) := do
  blanks
  match ← peek with
  | some '[' => return (← array (fun xs => return (← item) :: xs) []).reverse
  | some '\x7b' => throw (.wrongType .map "a sequence")
  | _ => throw (.wrongType (← scalar).found "a sequence")

end Reader

/-! ## A tag beside a value -/

/-- A tag and what it says about the value beside it. -/
structure Choice (α : Type) where
  tag : String
  decode : Decoder α

def valueKey : String := "value"

/-- How messages name a node with a tag beside its value. -/
def choiceName (name : String) : String :=
  "adjacently tagged enum " ++ name

def choiceNamed (choices : List (Choice α)) (tag : String) : Except Fault (Choice α) :=
  match choices.find? (·.tag == tag) with
  | some choice => .ok choice
  | none => .error (.unknownVariant tag (choices.map (·.tag)))

/-- A choice by its tag.  The tag may also be the only key of an object, with an empty value. -/
def choiceTag (choices : List (Choice α)) : Decoder (Choice α)
  | .string tag => choiceNamed choices tag
  | .object [(tag, value)] => do
    let choice ← choiceNamed choices tag
    match value with
    | .null | .object [] => return choice
    | other => throw (.wrongType other.found "unit")
  | .object _ => .error (.wrongValue .map "map with a single key")
  | other => .error (.wrongType other.found "string or map")

/-- Refuses a further tag or value. -/
def noFurther : List (String × Json) → Except Fault Unit
  | [] => .ok ()
  | (key, _) :: _ => .error (.duplicateField key)

/-- A node with a tag and a value, in either order; in an array the tag comes first. -/
def tagAndValue (name : String) (choices : List (Choice α)) : Decoder α
  | .array [] => .error (.wrongLength 0 (choiceName name))
  | .array (tag :: items) => do
    let choice ← choiceTag choices tag
    match items with
    | [] => throw (.wrongLength 1 (choiceName name))
    | value :: others =>
      let result ← choice.decode value
      Record.checkLength 2 (.ordered (tag :: value :: others))
      return result
  | .object entries =>
    match entries.filter fun (key, _) => key == tagKey || key == valueKey with
    | [] => .error (.missingField tagKey)
    | (key, first) :: others =>
      if key == tagKey then do
        let choice ← choiceTag choices first
        match others with
        | [] => throw (.missingField valueKey)
        | (key, second) :: others =>
          if key == tagKey then throw (.duplicateField tagKey)
          let result ← choice.decode second
          noFurther others
          return result
      else
        match others with
        | [] => .error (.missingField tagKey)
        | (key, second) :: others => do
          if key == valueKey then throw (.duplicateField valueKey)
          let choice ← choiceTag choices second
          let result ← choice.decode first
          noFurther others
          return result
  | other => .error (.wrongType other.found (choiceName name))

end IdlTypings.Json
