import Mathlib
import IdlTypings.Proofs.TreeText

/-! # Edits that a tree does not notice

The JSON form of a tree may be edited in ways that do not change what is read: the entries of an
object may be reordered, an entry that nobody asks for may be added, and an entry that says what is
the default may be left out or put in.  `Edit` is one such step anywhere in a value, `Edits` any
number of them.

Which entries a node has is said by `NodeKind.shape`, a table of fields for every kind of node.  The
decoders keep to the table, `Described`, so a decoded node stays the same while the values that stand
for its fields do, `NodeKept`.  From there `Edit.keeps` goes through the whole value.
-/

namespace IdlTypings.Idl

open Json (Choice Decoder Enclosed Fields Gives Holds Reader Record TaggedNode Variant lookupTag tagKey
  textTag valueKey valuesOf variantTag)
open Json.Record

/-! ## Shapes

A table for every kind of node: the names of its fields, what stands there and what counts as the
default. -/

inductive NodeKind where
  | definition
  | member
  | type
  | argument
  | attribute
  | attributeValue
  deriving Repr, DecidableEq

/-- What stands in a place: something without nodes, a node, a node or null, an array of nodes. -/
inductive Content where
  | plain
  | node (kind : NodeKind)
  | nullable (kind : NodeKind)
  | nodes (kind : NodeKind)
  deriving Repr, DecidableEq

/-- A field; its default is what it counts as where it is missing. -/
structure FieldShape where
  name : String
  content : Content := .plain
  default : Option Json := none

/-- The fields of a node, perhaps with a table that has them for each tag. -/
inductive NodeShape where
  | record (fields : List FieldShape)
  | variants (table : List (String × List FieldShape))

def argumentsShape : FieldShape :=
  { name := "arguments", content := .nodes .argument, default := some (.array []) }

def interfaceShape : List FieldShape :=
  [{ name := "name" }, { name := "inheritance", default := some .null },
    { name := "members", content := .nodes .member, default := some (.array []) },
    { name := "ext_attrs", content := .nodes .attribute, default := some (.array []) }]

def unsupportedShape : List FieldShape :=
  [{ name := "kind" }, { name := "name", default := some .null }, { name := "source" }]

def typeTable : List (String × List FieldShape) :=
  [("named", [{ name := "name" }]),
    ("generic", [{ name := "name" }, { name := "arguments", content := .nodes .type }]),
    ("union", [{ name := "members", content := .nodes .type }]),
    ("unrecognized", [{ name := "source" }])]

def memberTable : List (String × List FieldShape) :=
  [("attribute", [{ name := "name" }, { name := "idl_type", content := .node .type },
      { name := "readonly", default := some (.bool false) }]),
    ("operation", [{ name := "name", default := some .null }, argumentsShape,
      { name := "return_type", content := .node .type }]),
    ("constructor", [argumentsShape]),
    ("field", [{ name := "name" }, { name := "idl_type", content := .node .type },
      { name := "required", default := some (.bool false) }]),
    ("const", [{ name := "name" }, { name := "idl_type", content := .node .type }]),
    ("iterable", [{ name := "idl_types", content := .nodes .type }]),
    ("unsupported", unsupportedShape)]

def definitionTable : List (String × List FieldShape) :=
  [("interface", interfaceShape),
    ("interface-mixin", interfaceShape),
    ("dictionary", interfaceShape),
    ("includes", [{ name := "target" }, { name := "includes" }]),
    ("enum", [{ name := "name" }, { name := "values" }]),
    ("callback", [{ name := "name" }, argumentsShape,
      { name := "return_type", content := .node .type }]),
    ("typedef", [{ name := "name" }, { name := "idl_type", content := .node .type }]),
    ("unsupported", unsupportedShape)]

def NodeKind.shape : NodeKind → NodeShape
  | .definition => .variants definitionTable
  | .member => .variants memberTable
  | .type => .variants typeTable
  | .argument => .record [{ name := "name" }, { name := "idl_type", content := .node .type },
      { name := "optional", default := some (.bool false) }]
  | .attribute => .record [{ name := "name" },
      { name := "rhs", content := .nullable .attributeValue, default := some .null }]
  | .attributeValue => .record [{ name := tagKey }, { name := valueKey }]

def tagField : FieldShape := { name := tagKey }

def variantFields (table : List (String × List FieldShape)) (tag : Json) : List FieldShape :=
  ((lookupTag Prod.fst table tag).map Prod.snd).getD []

def NodeShape.named : NodeShape → List (String × Json) → List FieldShape
  | .record fields, _ => fields
  | .variants table, entries =>
    match valuesOf tagKey entries with
    -- A field with the key of the tag cannot be given by name.
    | [tag] => tagField :: (variantFields table tag).filter (·.name != tagKey)
    | _ => [tagField]

def NodeShape.ordered : NodeShape → List Json → List FieldShape
  | .record fields, _ => fields
  | .variants table, tag :: _ => tagField :: variantFields table tag
  | .variants _, [] => []

/-! ## Edits -/

/-- One edit somewhere in a value.  An entry stands first where it is put in, left out or edited:
    `reorder` brings it there. -/
inductive Edit : Content → Json → Json → Prop where
  | reorder {kind : NodeKind} {entries entries' : List (String × Json)}
      (same : entries.Perm entries') : Edit (.node kind) (.object entries) (.object entries')
  | extend {kind : NodeKind} (key : String) (value : Json) {entries : List (String × Json)}
      (foreign : ∀ field ∈ kind.shape.named entries, field.name ≠ key) :
      Edit (.node kind) (.object entries) (.object ((key, value) :: entries))
  | drop {kind : NodeKind} {field : FieldShape} {value : Json} {entries : List (String × Json)}
      (isField : field ∈ kind.shape.named ((field.name, value) :: entries))
      (isDefault : field.default = some value) :
      Edit (.node kind) (.object ((field.name, value) :: entries)) (.object entries)
  | supply {kind : NodeKind} {field : FieldShape} {value : Json} {entries : List (String × Json)}
      (isField : field ∈ kind.shape.named entries) (isDefault : field.default = some value)
      (missing : valuesOf field.name entries = []) :
      Edit (.node kind) (.object entries) (.object ((field.name, value) :: entries))
  | inEntry {kind : NodeKind} {field : FieldShape} {value value' : Json}
      {entries : List (String × Json)}
      (isField : field ∈ kind.shape.named ((field.name, value) :: entries))
      (edit : Edit field.content value value') :
      Edit (.node kind) (.object ((field.name, value) :: entries))
        (.object ((field.name, value') :: entries))
  -- A node may also be an array, with the fields in order.
  | inItem {kind : NodeKind} {field : FieldShape} {value value' : Json} (before after : List Json)
      (isField : (kind.shape.ordered (before ++ value :: after))[before.length]? = some field)
      (edit : Edit field.content value value') :
      Edit (.node kind) (.array (before ++ value :: after)) (.array (before ++ value' :: after))
  | inNullable {kind : NodeKind} {value value' : Json} (edit : Edit (.node kind) value value') :
      Edit (.nullable kind) value value'
  | inList {kind : NodeKind} {value value' : Json} (before after : List Json)
      (edit : Edit (.node kind) value value') :
      Edit (.nodes kind) (.array (before ++ value :: after)) (.array (before ++ value' :: after))

/-- Any number of edits in a tree. -/
abbrev Edits : Json → Json → Prop :=
  Relation.ReflTransGen (Edit (.nodes .definition))

/-! ## What values mean -/

def NodeKind.Node : NodeKind → Type
  | .definition => Definition
  | .member => Member
  | .type => IdlType
  | .argument => Argument
  | .attribute => ExtendedAttribute
  | .attributeValue => AttributeValue

/-- A value stands for a node. -/
def NodeKind.Stands : (kind : NodeKind) → Json → kind.Node → Prop
  | .definition => TaggedNode (textTag definitionVariants)
  | .member => fun value node => Member.ofJson value = .ok node
  | .type => fun value node => IdlType.ofJson value = .ok node
  | .argument => fun value node => Argument.ofJson value = .ok node
  | .attribute => fun value node => ExtendedAttribute.ofJson value = .ok node
  | .attributeValue => fun value node => AttributeValue.ofJson value = .ok node

def Content.Meaning : Content → Type
  | .plain => Json
  | .node kind => kind.Node
  | .nullable kind => Option kind.Node
  | .nodes kind => List kind.Node

/-- What a value means in a place. -/
def Content.Means : (content : Content) → Json → content.Meaning → Prop
  | .plain => fun value meaning => value = meaning
  | .node kind => kind.Stands
  | .nullable kind => fun value meaning =>
    (value = .null ∧ meaning = none) ∨
      (value ≠ .null ∧ ∃ node, kind.Stands value node ∧ meaning = some node)
  | .nodes kind => fun value meaning =>
    ∃ items, value = .array items ∧ List.Forall₂ kind.Stands items meaning

/-- Whatever the first value means, the second one means as well. -/
def Keeps (content : Content) (value value' : Json) : Prop :=
  ∀ ⦃meaning : content.Meaning⦄, content.Means value meaning → content.Means value' meaning

theorem Keeps.eq {value value' : Json} (keeps : Keeps .plain value value') : value' = value :=
  @keeps value rfl

/-- A decoder of some content goes by the meaning. -/
def Respects {α : Type} (decode : Decoder α) (content : Content) : Prop :=
  ∀ ⦃value value' : Json⦄, Keeps content value value' →
    ∀ ⦃x : α⦄, decode value = .ok x → decode value' = .ok x

theorem respects_plain {α : Type} (decode : Decoder α) : Respects decode .plain := by
  intro value value' keeps x decoded
  rw [keeps.eq]
  exact decoded

section

variable {kind : NodeKind} {decode : Decoder kind.Node}
  (decodes : ∀ value node, decode value = .ok node ↔ kind.Stands value node)

include decodes

theorem respects_node : Respects decode (.node kind) := by
  intro value value' keeps node decoded
  rw [decodes] at decoded ⊢
  exact keeps decoded

theorem respects_nodes : Respects (.list decode) (.nodes kind) := by
  intro value value' keeps nodes decoded
  simp only [Json.Decoder.list_ok_iff, decodes] at decoded ⊢
  exact keeps decoded

theorem respects_nullable : Respects (.nullable decode) (.nullable kind) := by
  intro value value' keeps node decoded
  simp only [Json.Decoder.nullable_ok_iff, decodes] at decoded ⊢
  exact keeps decoded

end

/-! ## Fields -/

/-- How the values that stand for a field may change.  A field that is there twice is not read, so
    nothing is asked of the others. -/
inductive FieldKept (field : FieldShape) : List Json → List Json → Prop where
  | reordered {values values' : List Json} (same : values.Perm values') : FieldKept field values values'
  | edited {value value' : Json} {others : List Json} (keeps : Keeps field.content value value') :
      FieldKept field (value :: others) (value' :: others)
  | dropped {value : Json} {others : List Json} (isDefault : field.default = some value) :
      FieldKept field (value :: others) others
  | supplied {value : Json} (isDefault : field.default = some value) : FieldKept field [] [value]

theorem FieldKept.refl (field : FieldShape) (values : List Json) : FieldKept field values values :=
  .reordered (.refl values)

/-- A single value without nodes and without a default stays as it is. -/
theorem FieldKept.eq_of_plain {name : String} {value : Json} {values : List Json}
    (kept : FieldKept { name } [value] values) : values = [value] := by
  cases kept with
  | reordered same => exact List.perm_singleton.mp same.symm
  | edited keeps => rw [keeps.eq]
  | dropped isDefault => cases isDefault

theorem gives_kept {α : Type} {decode : Decoder α} {default : Option α} {field : FieldShape}
    (respects : Respects decode field.content)
    (defaults : ∀ value, field.default = some value → ∃ x, default = some x ∧ decode value = .ok x)
    {values values' : List Json} (kept : FieldKept field values values') {x : α}
    (gives : Gives decode default values x) : Gives decode default values' x := by
  cases kept with
  | reordered same =>
    rcases gives with ⟨rfl, isDefault⟩ | ⟨value, rfl, decoded⟩
    · exact .inl ⟨List.nil_perm.mp same, isDefault⟩
    · exact .inr ⟨value, List.perm_singleton.mp same.symm, decoded⟩
  | edited keeps =>
    rcases gives with ⟨impossible, _⟩ | ⟨value, same, decoded⟩
    · cases impossible
    · cases same
      exact .inr ⟨_, rfl, respects keeps decoded⟩
  | dropped isDefault =>
    rcases gives with ⟨impossible, _⟩ | ⟨value, same, decoded⟩
    · cases impossible
    · cases same
      -- What is dropped is the default, and both are read as the same.
      obtain ⟨y, hasDefault, decodedDefault⟩ := defaults _ isDefault
      cases decoded.symm.trans decodedDefault
      exact .inl ⟨rfl, hasDefault⟩
  | supplied isDefault =>
    rcases gives with ⟨-, hasDefault⟩ | ⟨value, impossible, _⟩
    · obtain ⟨y, hasDefault', decodedDefault⟩ := defaults _ isDefault
      cases hasDefault.symm.trans hasDefault'
      exact .inr ⟨_, rfl, decodedDefault⟩
    · cases impossible

/-! ## Records -/

/-- The fields of a record are those of a list, and it makes the same of them while they are kept. -/
structure Described {α : Type} (r : Record α) (shape : List FieldShape) : Prop where
  size : r.size = shape.length
  carries : ∀ {first : Nat} {fields fields' : Fields},
    (∀ (index : Nat) (field : FieldShape), shape[index]? = some field →
      FieldKept field (fields.at field.name (first + index))
        (fields'.at field.name (first + index))) →
    Carries first r r fields fields'

section

variable {α β : Type}

theorem described_required (name : String) {decode : Decoder α} {content : Content}
    (respects : Respects decode content) : Described (required name decode) [{ name, content }] where
  size := rfl
  carries := fun kept => carries_field fun _ => gives_kept respects
    (fun _ isDefault => by cases isDefault) (kept 0 _ rfl)

theorem described_optional (name : String) {decode : Decoder α} {content : Content}
    (respects : Respects decode content) {default : α} {value : Json}
    (decoded : decode value = .ok default) :
    Described (optional name decode default) [{ name, content, default := some value }] where
  size := rfl
  carries := fun kept => carries_field fun _ => gives_kept respects
    (fun _ isDefault => ⟨default, rfl, Option.some.inj isDefault ▸ decoded⟩) (kept 0 _ rfl)

theorem described_seq {f : Record (α → β)} {r : Record α} {shape shape' : List FieldShape}
    (function : Described f shape) (argument : Described r shape') :
    Described (f <*> r) (shape ++ shape') where
  size := by rw [size_seq, List.length_append, function.size, argument.size]
  carries := by
    intro first fields fields' kept
    refine carries_seq (function.carries ?_) (argument.carries ?_)
    · intro index field isField
      have inside : index < shape.length := (List.getElem?_eq_some_iff.mp isField).1
      exact kept index field (by rw [List.getElem?_append_left inside, isField])
    · intro index field isField
      have later := kept (shape.length + index) field
        (by rw [List.getElem?_append_right (Nat.le_add_right _ _), Nat.add_sub_cancel_left, isField])
      rwa [← function.size, ← Nat.add_assoc] at later

theorem described_map (f : α → β) {r : Record α} {shape : List FieldShape}
    (described : Described r shape) : Described (f <$> r) shape where
  size := by rw [size_map, described.size]
  carries := fun kept => carries_map f (described.carries kept)

end

/-! ## Kinds of nodes -/

/-- What a value stands for is kept while the fields of its node are: all those of an object, one
    after the other those of an array. -/
structure NodeKept {α : Type} (shape : NodeShape) (stands : Json → α → Prop) : Prop where
  object : ∀ {entries entries' : List (String × Json)},
    (∀ field ∈ shape.named entries,
      FieldKept field (valuesOf field.name entries) (valuesOf field.name entries')) →
    ∀ {x : α}, stands (.object entries) x → stands (.object entries') x
  array : ∀ {before after : List Json} {value value' : Json} {field : FieldShape},
    (shape.ordered (before ++ value :: after))[before.length]? = some field →
    Keeps field.content value value' →
    ∀ {x : α}, stands (.array (before ++ value :: after)) x →
      stands (.array (before ++ value' :: after)) x

section

variable {α : Type}

theorem NodeKept.congr {shape : NodeShape} {stands stands' : Json → α → Prop}
    (kept : NodeKept shape stands) (same : ∀ value x, stands' value x ↔ stands value x) :
    NodeKept shape stands' where
  object := fun fields x node => (same _ x).mpr (kept.object fields ((same _ x).mp node))
  array := fun isField keeps x node => (same _ x).mpr (kept.array isField keeps ((same _ x).mp node))

theorem carries_named {r : Record α} {shape : List FieldShape} (described : Described r shape)
    {entries entries' : List (String × Json)}
    (kept : ∀ field ∈ shape,
      FieldKept field (valuesOf field.name entries) (valuesOf field.name entries')) :
    Carries 0 r r (.named entries) (.named entries') :=
  described.carries fun _ field isField => kept field (List.mem_of_getElem? isField)

theorem carries_ordered {r : Record α} {shape : List FieldShape} (described : Described r shape)
    {before after : List Json} {value value' : Json} {field : FieldShape}
    (isField : shape[before.length]? = some field) (keeps : Keeps field.content value value') :
    Carries 0 r r (.ordered (before ++ value :: after)) (.ordered (before ++ value' :: after)) := by
  refine described.carries fun index field' isField' => ?_
  simp only [Fields.at, Nat.zero_add]
  -- Only at the place of the edit there is another value.
  rcases Nat.lt_trichotomy index before.length with smaller | rfl | greater
  · rw [List.getElem?_append_left smaller, List.getElem?_append_left smaller]
    exact .refl _ _
  · cases isField.symm.trans isField'
    simp only [List.getElem?_append_right (Nat.le_refl _), Nat.sub_self, List.getElem?_cons_zero]
    exact .edited keeps
  · obtain ⟨later, rfl⟩ := Nat.exists_eq_add_of_lt greater
    have beyond : before.length ≤ before.length + later + 1 := by omega
    have place : before.length + later + 1 - before.length = later + 1 := by omega
    simp only [List.getElem?_append_right beyond, place, List.getElem?_cons_succ]
    exact .refl _ _

theorem nodeKept_plain {what : String} {r : Record α} {shape : List FieldShape}
    (described : Described r shape) :
    NodeKept (.record shape) fun value x => plain what r value = .ok x where
  object := fun kept _ decoded => (carries_named described kept).node id decoded
  array := by
    intro before after value value' field isField keeps x decoded
    refine (carries_ordered described isField keeps).node ?_ decoded
    simp [Fields.Fit]

/-- The variants keep to a table, tag by tag. -/
def Tabled (variants : List (Variant α)) (table : List (String × List FieldShape)) : Prop :=
  List.Forall₂ (fun variant entry => variant.tag = entry.1 ∧ Described variant.record entry.2)
    variants table

theorem Tabled.described {variants : List (Variant α)} {table : List (String × List FieldShape)}
    (tabled : Tabled variants table) {tag : Json} {variant : Variant α}
    (known : variantTag variants tag = .ok variant) :
    Described variant.record (variantFields table tag) := by
  obtain ⟨entry, found, described⟩ :=
    Json.lookupTag_related tabled (Json.variantTag_ok_iff.mp known)
  rw [variantFields, found]
  exact described

theorem nodeKept_tagged {variants : List (Variant α)} {table : List (String × List FieldShape)}
    {judge : Decoder (Variant α)} (tabled : Tabled variants table)
    (judges : ∀ {tag variant}, judge tag = .ok variant → variantTag variants tag = .ok variant) :
    NodeKept (.variants table) (TaggedNode judge) where
  object := by
    intro entries entries' kept x node
    cases node with
    | @object _ tag variant _ tags known decoded =>
      -- The tag is a field without nodes, so it is the same and the variant with it.
      simp only [NodeShape.named, tags, List.forall_mem_cons, List.mem_filter] at kept
      obtain ⟨keptTag, keptFields⟩ := kept
      have tags' : valuesOf tagKey entries' = [tag] :=
        FieldKept.eq_of_plain (tags ▸ keptTag)
      refine .object tags' known
        ((carries_named (tabled.described (judges known)) ?_).node (fun _ => trivial) decoded)
      intro field isField
      by_cases isTag : field.name = tagKey
      · rw [isTag, Json.valuesOf_filter_ne, Json.valuesOf_filter_ne]
        exact .refl _ _
      · have apart : ∀ value, (((field.name, value) : String × Json).1 != tagKey) = true := by
          simpa using isTag
        rw [Json.valuesOf_filter apart, Json.valuesOf_filter apart]
        exact keptFields field ⟨isField, by simpa using isTag⟩
  array := by
    intro before after value value' field isField keeps x node
    cases before with
    | nil =>
      cases isField
      rw [keeps.eq]
      exact node
    | cons tag before =>
      cases node with
      | array known decoded =>
        refine .array known
          ((carries_ordered (tabled.described (judges known)) isField keeps).node ?_ decoded)
        simp [Fields.Fit]

theorem nodeKept_tagAndValue (name : String) (choices : List (Choice α)) :
    NodeKept (.record [{ name := tagKey }, { name := valueKey }])
      fun value x => Json.tagAndValue name choices value = .ok x where
  object := by
    intro entries entries' kept x decoded
    rw [Json.tagAndValue_object_ok_iff] at decoded ⊢
    obtain ⟨tag, value, choice, tags, values, known, decoded⟩ := decoded
    simp only [NodeShape.named, List.forall_mem_cons, tags, values] at kept
    exact ⟨tag, value, choice, kept.1.eq_of_plain, kept.2.1.eq_of_plain, known, decoded⟩
  array := by
    intro before after value value' field isField keeps x decoded
    have plain : field.content = .plain := by
      rcases List.mem_pair.mp (List.mem_of_getElem? isField) with rfl | rfl <;> rfl
    rw [plain] at keeps
    rw [keeps.eq]
    exact decoded

end

/-! ## The nodes of a tree -/

theorem described_text (name : String) : Described (required name .string) [{ name }] :=
  described_required name (respects_plain _)

theorem described_flag (name : String) :
    Described (optional name .bool false) [{ name, default := some (.bool false) }] :=
  described_optional name (respects_plain _) rfl

theorem described_nullableText (name : String) :
    Described (nullable name .string) [{ name, default := some .null }] :=
  described_optional name (respects_plain _) rfl

theorem described_type (name : String) :
    Described (required name IdlType.ofJson) [{ name, content := .node .type }] :=
  described_required name (respects_node fun _ _ => Iff.rfl)

theorem described_types (name : String) :
    Described (required name (.list IdlType.ofJson)) [{ name, content := .nodes .type }] :=
  described_required name (respects_nodes fun _ _ => Iff.rfl)

/-- A list of nodes that is empty if it is missing. -/
theorem described_nodes (name : String) (kind : NodeKind) (decode : Decoder kind.Node)
    (decodes : ∀ value node, decode value = .ok node ↔ kind.Stands value node) :
    Described (optional name (.list decode) [])
      [{ name, content := .nodes kind, default := some (.array []) }] :=
  described_optional name (respects_nodes decodes) rfl

theorem described_arguments : Described argumentsField [argumentsShape] :=
  described_nodes _ .argument Argument.ofJson fun _ _ => Iff.rfl

theorem described_interface : Described interfaceFields interfaceShape :=
  described_seq
    (described_seq
      (described_seq (described_map _ (described_text _)) (described_nullableText _))
      (described_nodes _ .member Member.ofJson fun _ _ => Iff.rfl))
    (described_nodes _ .attribute ExtendedAttribute.ofJson fun _ _ => Iff.rfl)

theorem described_rightSide : Described (nullable "rhs" AttributeValue.ofJson)
    [{ name := "rhs", content := .nullable .attributeValue, default := some .null }] := by
  have respects : Respects (.nullable AttributeValue.ofJson) (.nullable .attributeValue) :=
    respects_nullable fun _ _ => Iff.rfl
  exact described_optional _ respects rfl

theorem described_unsupported : Described unsupportedFields unsupportedShape :=
  described_seq
    (described_seq (described_map _ (described_text _)) (described_nullableText _))
    (described_text _)

theorem tabled_types : Tabled (typeVariants IdlType.ofJson) typeTable :=
  .cons ⟨rfl, described_map _ (described_text _)⟩ <|
  .cons ⟨rfl, described_seq (described_map _ (described_text _)) (described_types _)⟩ <|
  .cons ⟨rfl, described_map _ (described_types _)⟩ <|
  .cons ⟨rfl, described_map _ (described_text _)⟩ .nil

theorem tabled_members : Tabled memberVariants memberTable :=
  .cons ⟨rfl, described_seq
    (described_seq (described_map _ (described_text _)) (described_type _)) (described_flag _)⟩ <|
  .cons ⟨rfl, described_seq
    (described_seq (described_map _ (described_nullableText _)) described_arguments)
    (described_type _)⟩ <|
  .cons ⟨rfl, described_map _ described_arguments⟩ <|
  .cons ⟨rfl, described_seq
    (described_seq (described_map _ (described_text _)) (described_type _)) (described_flag _)⟩ <|
  .cons ⟨rfl, described_seq (described_map _ (described_text _)) (described_type _)⟩ <|
  .cons ⟨rfl, described_map _ (described_types _)⟩ <|
  .cons ⟨rfl, described_map _ described_unsupported⟩ .nil

theorem tabled_definitions : Tabled definitionVariants definitionTable :=
  .cons ⟨rfl, described_map _ described_interface⟩ <|
  .cons ⟨rfl, described_map _ described_interface⟩ <|
  .cons ⟨rfl, described_map _ described_interface⟩ <|
  .cons ⟨rfl, described_seq (described_map _ (described_text _)) (described_text _)⟩ <|
  .cons ⟨rfl, described_seq (described_map _ (described_text _))
    (described_required _ (respects_plain _))⟩ <|
  .cons ⟨rfl, described_seq
    (described_seq (described_map _ (described_text _)) described_arguments) (described_type _)⟩ <|
  .cons ⟨rfl, described_seq (described_map _ (described_text _)) (described_type _)⟩ <|
  .cons ⟨rfl, described_map _ described_unsupported⟩ .nil

/-- Every kind of node is kept while its fields are. -/
theorem nodeKept : ∀ kind : NodeKind, NodeKept kind.shape kind.Stands
  | .definition => nodeKept_tagged tabled_definitions Json.variantTag_of_textTag
  | .member => (nodeKept_tagged tabled_members id).congr fun _ _ => Json.tagged_ok_iff
  | .type => (nodeKept_tagged tabled_types id).congr fun _ _ => ofJson_ok_iff
  | .argument => nodeKept_plain <|
    described_seq (described_seq (described_map _ (described_text _)) (described_type _))
      (described_flag _)
  | .attribute => nodeKept_plain <|
    described_seq (described_map _ (described_text _)) described_rightSide
  | .attributeValue => nodeKept_tagAndValue _ attributeChoices

/-! ## Names -/

/-- A name stands for one field only, whatever the tag. -/
def NodeShape.Distinct : NodeShape → Prop
  | .record fields => (fields.map FieldShape.name).Nodup
  | .variants table => ∀ entry ∈ table, (entry.2.map FieldShape.name).Nodup

instance : (shape : NodeShape) → Decidable shape.Distinct
  | .record fields => inferInstanceAs (Decidable (fields.map FieldShape.name).Nodup)
  | .variants table =>
    inferInstanceAs (Decidable (∀ entry ∈ table, (entry.2.map FieldShape.name).Nodup))

theorem distinct_shape (kind : NodeKind) : kind.shape.Distinct := by
  cases kind <;> decide

theorem NodeShape.Distinct.named {shape : NodeShape} (distinct : shape.Distinct)
    (entries : List (String × Json)) : ((shape.named entries).map FieldShape.name).Nodup := by
  cases shape with
  | record fields => exact distinct
  | variants table =>
    rw [NodeShape.named]
    split
    next tag _ =>
      have fields : ((variantFields table tag).map FieldShape.name).Nodup := by
        rw [variantFields]
        cases found : lookupTag Prod.fst table tag with
        | none => exact List.nodup_nil
        | some entry => exact distinct entry (Json.mem_of_lookupTag found)
      -- A field with the name of the tag is filtered out.
      rw [List.map_cons, List.nodup_cons]
      refine ⟨?_, fields.sublist (List.filter_sublist.map _)⟩
      intro member
      obtain ⟨field, isField, isTag⟩ := List.mem_map.mp member
      simpa [isTag, tagField] using (List.mem_filter.mp isField).2
    next => exact List.nodup_singleton _

theorem named_unique {kind : NodeKind} {entries : List (String × Json)} {field field' : FieldShape}
    (isField : field ∈ kind.shape.named entries) (isField' : field' ∈ kind.shape.named entries)
    (same : field.name = field'.name) : field = field' :=
  List.inj_on_of_nodup_map ((distinct_shape kind).named entries) isField isField' same

/-! ## Edits of a tree -/

section

variable {kind : NodeKind} {entries entries' : List (String × Json)}

theorem object_keeps
    (kept : ∀ field ∈ kind.shape.named entries,
      FieldKept field (valuesOf field.name entries) (valuesOf field.name entries')) :
    Keeps (.node kind) (.object entries) (.object entries') :=
  fun _ stands => (nodeKept kind).object kept stands

/-- An object is kept while one of its fields is and all others stay as they are. -/
theorem object_keeps_field {field : FieldShape} (isField : field ∈ kind.shape.named entries)
    (kept : FieldKept field (valuesOf field.name entries) (valuesOf field.name entries'))
    (others : ∀ name, field.name ≠ name → valuesOf name entries' = valuesOf name entries) :
    Keeps (.node kind) (.object entries) (.object entries') := by
  refine object_keeps fun field' isField' => ?_
  by_cases same : field.name = field'.name
  · cases named_unique isField isField' same
    exact kept
  · rw [others _ same]
    exact .refl _ _

end

theorem forall₂_replace {α β : Type} {stands : α → β → Prop} {before after : List α} {x x' : α}
    (keeps : ∀ y, stands x y → stands x' y) {ys : List β}
    (row : List.Forall₂ stands (before ++ x :: after) ys) :
    List.Forall₂ stands (before ++ x' :: after) ys := by
  induction before generalizing ys with
  | nil =>
    cases row with
    | cons first others => exact .cons (keeps _ first) others
  | cons item before ih =>
    cases row with
    | cons first others => exact .cons first (ih others)

theorem Edit.keeps {content : Content} {value value' : Json} (edit : Edit content value value') :
    Keeps content value value' := by
  -- The way down to the edited object is the induction; what happens there is a change of fields.
  induction edit with
  | reorder same => exact object_keeps fun field _ => .reordered ((same.filter _).map _)
  | extend key value foreign =>
    refine object_keeps fun field isField => ?_
    rw [Json.valuesOf_cons_of_ne (foreign field isField).symm]
    exact .refl _ _
  | drop isField isDefault =>
    refine object_keeps_field isField ?_ fun name other => (Json.valuesOf_cons_of_ne other _ _).symm
    rw [Json.valuesOf_cons_self]
    exact .dropped isDefault
  | supply isField isDefault missing =>
    refine object_keeps_field isField ?_ fun name other => Json.valuesOf_cons_of_ne other _ _
    rw [Json.valuesOf_cons_self, missing]
    exact .supplied isDefault
  | inEntry isField _ ih =>
    refine object_keeps_field isField ?_ fun name other => by
      rw [Json.valuesOf_cons_of_ne other, Json.valuesOf_cons_of_ne other]
    rw [Json.valuesOf_cons_self, Json.valuesOf_cons_self]
    exact .edited ih
  | @inItem kind _ _ _ before after isField _ ih =>
    exact fun _ stands => (nodeKept kind).array isField ih stands
  | inNullable edit ih =>
    rintro meaning (⟨rfl, -⟩ | ⟨-, node, stands, isNode⟩)
    · cases edit
    · refine .inr ⟨?_, node, ih stands, isNode⟩
      rintro rfl
      cases edit
  | inList before after _ ih =>
    rintro nodes ⟨items, same, row⟩
    cases same
    exact ⟨_, rfl, forall₂_replace (fun _ stands => ih stands) row⟩

theorem Edits.keeps {value value' : Json} (edits : Edits value value') :
    Keeps (.nodes .definition) value value' := by
  induction edits with
  | refl => exact fun _ means => means
  | tail _ edit ih => exact fun _ means => edit.keeps (ih means)

theorem readTree_ok_iff_means {text : List Char} {definitions : List Definition} :
    readTree text = .ok definitions ↔
      ∃ value, Holds text value ∧ Content.Means (.nodes .definition) value definitions := by
  rw [readTree_ok_iff]
  constructor
  · rintro ⟨items, holds, nodes⟩
    exact ⟨_, holds, items, rfl, nodes⟩
  · rintro ⟨_, holds, items, rfl, nodes⟩
    exact ⟨items, holds, nodes⟩

/-- A text from which a tree is read holds a value, and the same tree is read from every text that
    holds this value after any number of edits. -/
theorem readTree_edited {text : List Char} {definitions : List Definition}
    (reads : readTree text = .ok definitions) :
    (∃ value, Holds text value) ∧
      ∀ value value' text', Holds text value → Edits value value' → Holds text' value' →
        readTree text' = .ok definitions := by
  obtain ⟨value, holds, means⟩ := readTree_ok_iff_means.mp reads
  refine ⟨⟨value, holds⟩, fun other value' text' holdsOther edits holds' => ?_⟩
  cases holds.unique holdsOther
  exact readTree_ok_iff_means.mpr ⟨value', holds', edits.keeps means⟩

/-- The entries of an interface with one constructor, some other entries first. -/
def interfaceEntries (others constructor : List (String × Json)) : List (String × Json) :=
  others ++ [("members", .array [.object constructor]), ("kind", .string "interface"),
    ("name", .string "A")]

theorem named_interfaceEntries {others : List (String × Json)} (noTag : valuesOf tagKey others = [])
    (constructor : List (String × Json)) :
    NodeKind.definition.shape.named (interfaceEntries others constructor) =
      tagField :: interfaceShape := by
  have tags : valuesOf tagKey (interfaceEntries others constructor) = [.string "interface"] := by
    rw [interfaceEntries, valuesOf, List.filter_append, List.map_append]
    exact congrArg (· ++ [Json.string "interface"]) noTag
  simp only [NodeKind.shape, NodeShape.named, tags]
  rfl

/-- A default is left out of the constructor, one is put into the interface, an entry that nobody
    asks for is added and the order is turned round. -/
theorem edits_interface :
    Edits
      (.array [.object
        (interfaceEntries [] [("arguments", .array []), ("kind", .string "constructor")])])
      (.array [.object (interfaceEntries [("note", .array [.null]), ("inheritance", .null)]
        [("kind", .string "constructor")]).reverse]) := by
  have members : { name := "members", content := .nodes .member, default := some (.array []) } ∈
      NodeKind.definition.shape.named
        (interfaceEntries [] [("arguments", .array []), ("kind", .string "constructor")]) := by
    rw [named_interfaceEntries rfl]
    simp [interfaceShape]
  have arguments : argumentsShape ∈
      NodeKind.member.shape.named [("arguments", .array []), ("kind", .string "constructor")] := by
    simp [NodeKind.shape, NodeShape.named, valuesOf, tagKey, variantFields, lookupTag, memberTable,
      argumentsShape]
  have inheritance : { name := "inheritance", default := some .null } ∈
      NodeKind.definition.shape.named (interfaceEntries [] [("kind", .string "constructor")]) := by
    rw [named_interfaceEntries rfl]
    simp [interfaceShape]
  have note : ∀ field ∈ NodeKind.definition.shape.named
      (interfaceEntries [("inheritance", .null)] [("kind", .string "constructor")]),
      field.name ≠ "note" := by
    rw [named_interfaceEntries rfl]
    simp [interfaceShape, tagField, tagKey]
  exact .head (.inList [] [] (.inEntry members (.inList [] [] (.drop arguments rfl)))) <|
    .head (.inList [] [] (.supply inheritance rfl rfl)) <|
    .head (.inList [] [] (.extend "note" (.array [.null]) note)) <|
    .single (.inList [] [] (.reorder (List.reverse_perm _).symm))

theorem holds_of_value {text : List Char} {value : Json}
    (reads : Reader.value Reader.maxDepth text = .ok (value, [])) (starts : Json.solid text = text) :
    Holds text value :=
  ⟨[], starts.symm ▸ Reader.value_ok_iff.mp reads, rfl⟩

def interfaceText : List Char :=
  ("[\x7b\"members\":[\x7b\"arguments\":[],\"kind\":\"constructor\"\x7d]," ++
    "\"kind\":\"interface\",\"name\":\"A\"\x7d]").toList

def editedText : List Char :=
  ("[\x7b\"name\":\"A\",\"kind\":\"interface\",\"members\":[\x7b\"kind\":\"constructor\"\x7d]," ++
    "\"inheritance\":null,\"note\":[null]\x7d]").toList

set_option maxRecDepth 20000 in
theorem readTree_edited_interface :
    readTree interfaceText = .ok [.interface ⟨"A", none, [.constructor []], []⟩] ∧
      readTree editedText = .ok [.interface ⟨"A", none, [.constructor []], []⟩] := by
  have reads : readTree interfaceText = .ok [.interface ⟨"A", none, [.constructor []], []⟩] := by
    cbv
  have holds : Holds interfaceText (.array [.object
      (interfaceEntries [] [("arguments", .array []), ("kind", .string "constructor")])]) :=
    holds_of_value (by cbv) (by cbv)
  have holdsEdited : Holds editedText (.array [.object
      (interfaceEntries [("note", .array [.null]), ("inheritance", .null)]
        [("kind", .string "constructor")]).reverse]) :=
    holds_of_value (by cbv) (by cbv)
  exact ⟨reads, (readTree_edited reads).2 _ _ _ holds edits_interface holdsEdited⟩

end IdlTypings.Idl
