import Mathlib
import IdlTypings.Idl.OfJson
import IdlTypings.Idl.ToJson
import IdlTypings.Proofs.JsonNodes

/-! # The JSON form of the IDL tree, written and read

A tree without `Unsupported` nodes is read back from its JSON text, as long as the text nests no
deeper than the reader goes.  An `Unsupported` node is written with two entries called `kind`, and
the reader refuses the second.

* `typeWithin_toJson`, `Member.ofJson_toJson` and their like read one kind of node back from its JSON
  value;
* `definitionReader_write` reads a definition from its text;
* `readTree_treeText` reads all definitions of a tree in order, and stops at the first that is
  refused.
-/

namespace IdlTypings.Idl

open Json (Fault NumberFree NumberFreeItems NumberFreeEntries Untagged tagKey)
open Json.Record

/-! ## Supported nodes -/

/-- Whether a member has a place in the tree. -/
def Member.Supported : Member → Prop
  | .unsupported _ => False
  | _ => True

instance : DecidablePred Member.Supported
  | .attribute .. | .operation .. | .constructor .. | .field .. | .const .. | .iterable .. =>
    isTrue trivial
  | .unsupported _ => isFalse id

/-- Whether a definition and all its members have a place in the tree. -/
def Definition.Supported : Definition → Prop
  | .interface body | .mixin body | .dictionary body => ∀ member ∈ body.members, member.Supported
  | .unsupported _ => False
  | _ => True

instance : DecidablePred Definition.Supported
  | .interface body | .mixin body | .dictionary body =>
    inferInstanceAs (Decidable (∀ member ∈ body.members, member.Supported))
  | .includes .. | .enumeration .. | .callback .. | .typedef .. => isTrue trivial
  | .unsupported _ => isFalse id

/-! ## No numbers -/

mutual

theorem IdlType.numberFree_toJson : ∀ type : IdlType, type.toJson.NumberFree
  | .named _ | .unrecognized _ => by
    simp [IdlType.toJson, tagged, NumberFree, NumberFreeEntries]
  | .generic name arguments => by
    simpa [IdlType.toJson, tagged, NumberFree, NumberFreeEntries] using
      numberFree_typesToJson arguments
  | .union members => by
    simpa [IdlType.toJson, tagged, NumberFree, NumberFreeEntries] using
      numberFree_typesToJson members

theorem numberFree_typesToJson : ∀ types : List IdlType, NumberFreeItems (typesToJson types)
  | [] => trivial
  | type :: types => ⟨type.numberFree_toJson, numberFree_typesToJson types⟩

end

theorem numberFree_map {α : Type} {encode : α → Json} (plain : ∀ x, (encode x).NumberFree)
    (items : List α) : NumberFreeItems (items.map encode) := by
  rw [Json.numberFreeItems_iff]
  intro item member
  obtain ⟨x, -, rfl⟩ := List.mem_map.mp member
  exact plain x

theorem numberFree_ifPresent {key : String} {value : Option Json}
    (plain : ∀ v ∈ value, v.NumberFree) {entries : List (String × Json)}
    (others : NumberFreeEntries entries) : NumberFreeEntries (ifPresent key value ++ entries) := by
  cases value with
  | none => exact others
  | some v => exact ⟨plain v rfl, others⟩

theorem Argument.numberFree_toJson (argument : Argument) : argument.toJson.NumberFree :=
  ⟨trivial, argument.type.numberFree_toJson, trivial, trivial⟩

theorem numberFree_argumentsToJson (arguments : List Argument) :
    (argumentsToJson arguments).NumberFree :=
  numberFree_map Argument.numberFree_toJson arguments

theorem Unsupported.numberFree_entries (node : Unsupported) : NumberFreeEntries node.entries := by
  refine ⟨trivial, numberFree_ifPresent ?_ ⟨trivial, trivial⟩⟩
  cases node.name <;> simp [NumberFree]

theorem Member.numberFree_toJson : ∀ member : Member, member.toJson.NumberFree
  | .attribute _ type _ | .field _ type _ =>
    ⟨trivial, trivial, type.numberFree_toJson, trivial, trivial⟩
  | .operation none arguments returns =>
    ⟨trivial, numberFree_argumentsToJson arguments, returns.numberFree_toJson, trivial⟩
  | .operation (some _) arguments returns =>
    ⟨trivial, trivial, numberFree_argumentsToJson arguments, returns.numberFree_toJson, trivial⟩
  | .constructor arguments => ⟨trivial, numberFree_argumentsToJson arguments, trivial⟩
  | .const _ type => ⟨trivial, trivial, type.numberFree_toJson, trivial⟩
  | .iterable types => ⟨trivial, numberFree_map IdlType.numberFree_toJson types, trivial⟩
  | .unsupported node => ⟨trivial, node.numberFree_entries⟩

theorem numberFree_strings (texts : List String) : NumberFreeItems (texts.map Json.string) :=
  numberFree_map (fun _ => trivial : ∀ text, (Json.string text).NumberFree) texts

theorem AttributeValue.numberFree_toJson : ∀ value : AttributeValue, value.toJson.NumberFree
  | .identifier _ | .string _ => ⟨trivial, trivial, trivial⟩
  | .identifierList names => ⟨trivial, numberFree_strings names, trivial⟩

theorem ExtendedAttribute.numberFree_toJson :
    ∀ attr : ExtendedAttribute, attr.toJson.NumberFree
  | ⟨_, none⟩ => ⟨trivial, trivial⟩
  | ⟨_, some value⟩ => ⟨trivial, value.numberFree_toJson, trivial⟩

theorem Interface.numberFree_entries (body : Interface) : NumberFreeEntries body.entries := by
  have members := numberFree_map Member.numberFree_toJson body.members
  have attributes := numberFree_map ExtendedAttribute.numberFree_toJson body.attributes
  refine ⟨trivial, numberFree_ifPresent ?_ ⟨members, ?_⟩⟩
  · cases body.parent <;> simp [NumberFree]
  · cases body.attributes.isEmpty with
    | true => trivial
    | false => exact ⟨attributes, trivial⟩

theorem Definition.numberFree_toJson : ∀ definition : Definition, definition.toJson.NumberFree
  | .interface body | .mixin body | .dictionary body => ⟨trivial, body.numberFree_entries⟩
  | .includes _ _ => ⟨trivial, trivial, trivial, trivial⟩
  | .enumeration _ values => ⟨trivial, trivial, numberFree_strings values, trivial⟩
  | .callback _ arguments returns =>
    ⟨trivial, trivial, numberFree_argumentsToJson arguments, returns.numberFree_toJson, trivial⟩
  | .typedef _ type => ⟨trivial, trivial, type.numberFree_toJson, trivial⟩
  | .unsupported node => ⟨trivial, node.numberFree_entries⟩

/-! ## Types and arguments -/

theorem tagged_eq (kind : String) (entries : List (String × Json)) :
    tagged kind entries = .object ((tagKey, .string kind) :: entries) :=
  rfl

theorem depth_tagged (kind : String) (entries : List (String × Json)) :
    (tagged kind entries).depth = Json.depthEntries entries + 1 := by
  simp [tagged, Json.depth, Json.depthEntries]

@[simp] theorem decode_string (text : String) : Json.Decoder.string (.string text) = .ok text := rfl

@[simp] theorem decode_bool (value : Bool) : Json.Decoder.bool (.bool value) = .ok value := rfl

mutual

theorem typeWithin_toJson : ∀ (type : IdlType) {levels : Nat}, type.toJson.depth ≤ levels →
    typeWithin levels type.toJson = .ok type
  | .named _, 0, deep | .generic _ _, 0, deep | .union _, 0, deep | .unrecognized _, 0, deep => by
    -- Every type nests at least one level.
    simp [IdlType.toJson, depth_tagged] at deep
  | .named name, levels + 1, deep => by
    rw [typeWithin, IdlType.toJson, tagged_eq, Json.tagged_cons _ _ _ (by simp [Untagged, tagKey])]
    simp [Json.variantNamed, typeVariants, Except.bind, node_named, occurrences]
  | .generic name arguments, levels + 1, deep => by
    have inner : Json.depthItems (typesToJson arguments) ≤ levels := by
      simp only [IdlType.toJson, depth_tagged, Json.depthEntries, Json.depth] at deep
      omega
    have read := typesWithin_toJson arguments inner
    rw [typeWithin, IdlType.toJson, tagged_eq, Json.tagged_cons _ _ _ (by simp [Untagged, tagKey])]
    simp [Json.variantNamed, typeVariants, Except.bind, node_named, occurrences,
      Json.Decoder.list, read]
  | .union members, levels + 1, deep => by
    have inner : Json.depthItems (typesToJson members) ≤ levels := by
      simp only [IdlType.toJson, depth_tagged, Json.depthEntries, Json.depth] at deep
      omega
    have read := typesWithin_toJson members inner
    rw [typeWithin, IdlType.toJson, tagged_eq, Json.tagged_cons _ _ _ (by simp [Untagged, tagKey])]
    simp [Json.variantNamed, typeVariants, Except.bind, node_named, occurrences,
      Json.Decoder.list, read]
  | .unrecognized source, levels + 1, deep => by
    rw [typeWithin, IdlType.toJson, tagged_eq, Json.tagged_cons _ _ _ (by simp [Untagged, tagKey])]
    simp [Json.variantNamed, typeVariants, Except.bind, node_named, occurrences]

theorem typesWithin_toJson : ∀ (types : List IdlType) {levels : Nat},
    Json.depthItems (typesToJson types) ≤ levels →
    (typesToJson types).mapM (typeWithin levels) = .ok types
  | [], _, _ => rfl
  | type :: types, levels, deep => by
    simp only [typesToJson, Json.depthItems, Nat.max_le] at deep
    rw [typesToJson, List.mapM_cons, typeWithin_toJson type deep.1, typesWithin_toJson types deep.2]
    rfl

end

theorem IdlType.ofJson_toJson (type : IdlType) : IdlType.ofJson type.toJson = .ok type :=
  typeWithin_toJson type (Nat.le_succ _)

theorem Argument.ofJson_toJson (argument : Argument) :
    Argument.ofJson argument.toJson = .ok argument := by
  simp [Argument.ofJson, Argument.toJson, plain, node_named, occurrences,
    argument.type.ofJson_toJson]

theorem arguments_ofJson (arguments : List Argument) :
    Json.Decoder.list Argument.ofJson (argumentsToJson arguments) = .ok arguments :=
  Json.mapM_map_ok fun argument _ => argument.ofJson_toJson

theorem types_ofJson (types : List IdlType) :
    Json.Decoder.list IdlType.ofJson (.array (types.map IdlType.toJson)) = .ok types :=
  Json.mapM_map_ok fun type _ => type.ofJson_toJson

/-! ## Members -/

/-- A member is read back from its JSON value, unless it is unsupported. -/
theorem Member.ofJson_toJson : ∀ member : Member,
    Member.ofJson member.toJson =
      if member.Supported then .ok member else .error (.duplicateField tagKey)
  | .attribute name type readonly => by
    rw [Member.ofJson, Member.toJson, tagged_eq, Json.tagged_cons _ _ _ (by simp [Untagged, tagKey])]
    simp [Json.variantNamed, memberVariants, Except.bind, node_named, occurrences,
      type.ofJson_toJson, Member.Supported]
  | .operation none arguments returns => by
    rw [Member.ofJson, Member.toJson, tagged_eq,
      Json.tagged_cons _ _ _ (by simp [Untagged, tagKey, ifPresent])]
    simp [Json.variantNamed, memberVariants, Except.bind, node_named, occurrences, ifPresent,
      argumentsField, arguments_ofJson, returns.ofJson_toJson, Member.Supported]
  | .operation (some name) arguments returns => by
    rw [Member.ofJson, Member.toJson, tagged_eq,
      Json.tagged_cons _ _ _ (by simp [Untagged, tagKey, ifPresent])]
    simp [Json.variantNamed, memberVariants, Except.bind, node_named, occurrences, ifPresent,
      Json.Decoder.nullable, argumentsField, arguments_ofJson, returns.ofJson_toJson,
      Member.Supported]
  | .constructor arguments => by
    rw [Member.ofJson, Member.toJson, tagged_eq, Json.tagged_cons _ _ _ (by simp [Untagged, tagKey])]
    simp [Json.variantNamed, memberVariants, Except.bind, node_named, occurrences, argumentsField,
      arguments_ofJson, Member.Supported]
  | .field name type required => by
    rw [Member.ofJson, Member.toJson, tagged_eq, Json.tagged_cons _ _ _ (by simp [Untagged, tagKey])]
    simp [Json.variantNamed, memberVariants, Except.bind, node_named, occurrences,
      type.ofJson_toJson, Member.Supported]
  | .const name type => by
    rw [Member.ofJson, Member.toJson, tagged_eq, Json.tagged_cons _ _ _ (by simp [Untagged, tagKey])]
    simp [Json.variantNamed, memberVariants, Except.bind, node_named, occurrences,
      type.ofJson_toJson, Member.Supported]
  | .iterable types => by
    rw [Member.ofJson, Member.toJson, tagged_eq, Json.tagged_cons _ _ _ (by simp [Untagged, tagKey])]
    simp [Json.variantNamed, memberVariants, Except.bind, node_named, occurrences, types_ofJson,
      Member.Supported]
  | .unsupported node => by
    rw [Member.ofJson, Member.toJson, tagged_eq]
    exact Json.tagged_twice _ _ _ _ _

theorem members_ofJson (members : List Member) :
    Json.Decoder.list Member.ofJson (.array (members.map Member.toJson)) =
      if ∀ member ∈ members, member.Supported then .ok members
      else .error (.duplicateField tagKey) := by
  rw [Json.Decoder.list, List.mapM_map,
    Json.mapM_accepted id fun member _ => member.ofJson_toJson, List.map_id]

/-! ## Extended attributes -/

theorem strings_ofJson (texts : List String) :
    Json.Decoder.list .string (.array (texts.map Json.string)) = .ok texts :=
  Json.mapM_map_ok fun _ _ => rfl

theorem AttributeValue.ofJson_toJson (value : AttributeValue) :
    AttributeValue.ofJson value.toJson = .ok value := by
  cases value with
  | identifier name | string text => rfl
  | identifierList names =>
    change (AttributeValue.identifierList <$> Json.Decoder.list .string
      (.array (names.map Json.string)) >>= fun value => Json.noFurther [] >>= fun _ => pure value) = _
    rw [strings_ofJson]
    rfl

theorem AttributeValue.nullable_toJson (value : AttributeValue) :
    Json.Decoder.nullable AttributeValue.ofJson value.toJson = .ok (some value) := by
  have read := value.ofJson_toJson
  cases value <;> simp_all [AttributeValue.toJson, tagged, Json.Decoder.nullable]

theorem ExtendedAttribute.ofJson_toJson : ∀ attr : ExtendedAttribute,
    ExtendedAttribute.ofJson attr.toJson = .ok attr
  | ⟨name, none⟩ => by
    simp [ExtendedAttribute.ofJson, ExtendedAttribute.toJson, plain, node_named, occurrences,
      ifPresent]
  | ⟨name, some value⟩ => by
    simp [ExtendedAttribute.ofJson, ExtendedAttribute.toJson, plain, node_named, occurrences,
      ifPresent, value.nullable_toJson]

theorem attributes_ofJson (attributes : List ExtendedAttribute) :
    Json.Decoder.list ExtendedAttribute.ofJson
      (.array (attributes.map ExtendedAttribute.toJson)) = .ok attributes :=
  Json.mapM_map_ok fun attr _ => attr.ofJson_toJson

/-! ## Definitions -/

/-- The parts of an interface give it back, unless one of its members is unsupported. -/
theorem Interface.decode_entries (body : Interface) (expected : String) :
    interfaceFields.decode expected 0 (.named body.entries) =
      if ∀ member ∈ body.members, member.Supported then .ok body
      else .error (if body.parent.isSome then 2 else 1, .duplicateField tagKey) := by
  obtain ⟨name, parent, members, attributes⟩ := body
  have read := members_ofJson members
  -- The parent, if there is one, stands before the members and moves them by one place.
  by_cases supported : ∀ member ∈ members, member.Supported
  · rw [if_pos supported] at read
    rw [if_pos supported]
    cases parent <;> cases attributes <;>
      simp [interfaceFields, Interface.entries, ifPresent, occurrences, read,
        Json.Decoder.nullable, -List.map_cons, attributes_ofJson]
  · rw [if_neg supported] at read
    rw [if_neg supported]
    cases parent <;> cases attributes <;>
      simp [interfaceFields, Interface.entries, ifPresent, occurrences, read,
        Json.Decoder.nullable, -List.map_cons, attributes_ofJson]

theorem Interface.untagged_entries (body : Interface) : Untagged body.entries := by
  obtain ⟨name, parent, members, attributes⟩ := body
  cases parent <;> cases attributes <;>
    simp [Untagged, tagKey, Interface.entries, ifPresent]

/-- What reading the text of a definition gives. -/
def Definition.readBack (definition : Definition) : Except Fault Definition :=
  if definition.toJson.depth ≤ Json.Reader.maxDepth - 1 then
    if definition.Supported then .ok definition else .error (.duplicateField tagKey)
  else .error .malformed

/-- A definition that tells its kind once is decoded from its parts, where it may nest so deep. -/
theorem definitionReader_tagged {tag : String} {variant : Json.Variant Definition}
    (known : Json.variantNamed definitionVariants tag = .ok variant)
    {entries : List (String × Json)} (plain : NumberFreeEntries entries)
    (untagged : Untagged entries) (level : Nat) (rest : List Char) :
    definitionReader ((Json.write level (tagged tag entries)).toList ++ rest) =
      (if (tagged tag entries).depth ≤ Json.Reader.maxDepth - 1 then
        variant.record.node variant.what (.named entries)
      else .error .malformed).map (·, rest) := by
  have levels : Json.depthEntries entries + 1 ≤ Json.Reader.maxDepth - 1 ↔
      Json.depthEntries entries ≤ Json.Reader.maxDepth - 2 := by
    simp only [Json.Reader.maxDepth]
    omega
  rw [definitionReader, depth_tagged, tagged_eq,
    Json.Reader.tagged_write _ _ _ _ _ plain untagged, known]
  simp only [levels, Except.bind]

theorem Interface.node_entries (what : String) (make : Interface → Definition)
    (body : Interface) :
    (make <$> interfaceFields).node what (.named body.entries) =
      if ∀ member ∈ body.members, member.Supported then .ok (make body)
      else .error (.duplicateField tagKey) := by
  rw [node_named, decode_map, body.decode_entries]
  split_ifs <;> rfl

theorem Unsupported.untagged_rest (node : Unsupported) :
    Untagged (ifPresent "name" (node.name.map .string) ++ [("source", .string node.source)]) := by
  cases node.name <;> simp [Untagged, tagKey, ifPresent]

theorem Unsupported.depth_entries (node : Unsupported) : Json.depthEntries node.entries = 0 := by
  obtain ⟨kind, name, source⟩ := node
  cases name <;> simp [Unsupported.entries, ifPresent, Json.depthEntries, Json.depth]

/-- A definition is read back from its text, unless it is unsupported or nests too deep. -/
theorem definitionReader_write (definition : Definition) (level : Nat) (rest : List Char) :
    definitionReader ((Json.write level definition.toJson).toList ++ rest) =
      definition.readBack.map (·, rest) := by
  have plain := definition.numberFree_toJson
  cases definition with
  | interface body | mixin body | dictionary body =>
    refine (definitionReader_tagged (by rfl) plain.2 body.untagged_entries level rest).trans ?_
    rw [body.node_entries]
    rfl
  | includes target included =>
    refine (definitionReader_tagged (by rfl) plain.2 (by simp [Untagged, tagKey]) level rest).trans ?_
    simp [node_named, occurrences, Definition.readBack, Definition.toJson, Definition.Supported]
  | enumeration name values =>
    refine (definitionReader_tagged (by rfl) plain.2 (by simp [Untagged, tagKey]) level rest).trans ?_
    simp [node_named, occurrences, strings_ofJson, Definition.readBack, Definition.toJson,
      Definition.Supported]
  | callback name arguments returns =>
    refine (definitionReader_tagged (by rfl) plain.2 (by simp [Untagged, tagKey]) level rest).trans ?_
    simp [node_named, occurrences, argumentsField, arguments_ofJson, returns.ofJson_toJson,
      Definition.readBack, Definition.toJson, Definition.Supported]
  | typedef name type =>
    refine (definitionReader_tagged (by rfl) plain.2 (by simp [Untagged, tagKey]) level rest).trans ?_
    simp [node_named, occurrences, type.ofJson_toJson, Definition.readBack, Definition.toJson,
      Definition.Supported]
  | unsupported node =>
    have shallow : (Definition.unsupported node).toJson.depth ≤ Json.Reader.maxDepth - 1 := by
      rw [Definition.toJson, depth_tagged, node.depth_entries]
      decide
    have refused : ¬ (Definition.unsupported node).Supported := id
    rw [Definition.readBack, if_pos shallow, if_neg refused]
    -- An unsupported definition keeps the tag that it was read with, so it is written with two of
    -- them.
    exact Json.Reader.tagged_write_twice _ _ _ _ _ _ node.numberFree_entries.2 node.untagged_rest _

/-! ## Trees -/

/-- Reading a tree back is reading back its definitions, one after the other. -/
theorem readTree_treeText (definitions : List Definition) :
    readTree (treeText definitions).toList = definitions.mapM Definition.readBack := by
  have plain := numberFree_map Definition.numberFree_toJson definitions
  have read := Json.Reader.list_write 0 plain
    (fun definition rest => definitionReader_write definition 1 rest) []
  rw [List.append_nil] at read
  rw [readTree, treeText, Json.pretty, Json.Reader.whole, read]
  cases definitions.mapM Definition.readBack <;> rfl

theorem depth_tree (definitions : List Definition) :
    (Json.array (definitions.map Definition.toJson)).depth ≤ Json.Reader.maxDepth ↔
      ∀ definition ∈ definitions, definition.toJson.depth ≤ Json.Reader.maxDepth - 1 := by
  rw [Json.depth, Json.Reader.maxDepth, Nat.succ_le_succ_iff, Json.depthItems_le_iff,
    List.forall_mem_map]

/-- What is read back as it was is supported and nests no deeper than the limit. -/
theorem readBack_eq_ok {definition other : Definition} (read : definition.readBack = .ok other) :
    definition.Supported ∧ definition.toJson.depth ≤ Json.Reader.maxDepth - 1 := by
  rw [Definition.readBack] at read
  split_ifs at read with fits supported
  exact ⟨supported, fits⟩

theorem mapM_readBack_eq_ok {definitions others : List Definition}
    (read : definitions.mapM Definition.readBack = .ok others) :
    ∀ definition ∈ definitions,
      definition.Supported ∧ definition.toJson.depth ≤ Json.Reader.maxDepth - 1 := by
  induction definitions generalizing others with
  | nil => simp
  | cons definition definitions ih =>
    rw [List.mapM_cons] at read
    cases first : definition.readBack with
    | error fault => simp [first, bind, Except.bind] at read
    | ok found =>
      cases rest : definitions.mapM Definition.readBack with
      | error fault => simp [first, rest, bind, Except.bind] at read
      | ok found => exact List.forall_mem_cons.mpr ⟨readBack_eq_ok first, ih rest⟩

/-- A tree that nests no deeper than the limit is read back whole, or for its unsupported nodes
    not at all. -/
theorem mapM_readBack_of_depth {definitions : List Definition}
    (deep : (Json.array (definitions.map Definition.toJson)).depth ≤ Json.Reader.maxDepth) :
    definitions.mapM Definition.readBack =
      if ∀ definition ∈ definitions, definition.Supported then .ok definitions
      else .error (.duplicateField tagKey) := by
  have judged : ∀ definition ∈ definitions, definition.readBack =
      if definition.Supported then .ok (id definition) else .error (.duplicateField tagKey) := by
    intro definition member
    rw [Definition.readBack, if_pos ((depth_tree definitions).mp deep definition member)]
    rfl
  rw [Json.mapM_accepted id judged, List.map_id]

/-- A tree is read back from its JSON text if and only if it has no unsupported node and its text
    nests at most 127 deep.  A text that nests no deeper, of a tree with unsupported nodes, is refused
    for the second `kind` of the first such node. -/
theorem tree_round_trip (definitions : List Definition) :
    (readTree (treeText definitions).toList = .ok definitions ↔
      (∀ definition ∈ definitions, definition.Supported) ∧
        (Json.array (definitions.map Definition.toJson)).depth ≤ 127) ∧
    ((Json.array (definitions.map Definition.toJson)).depth ≤ 127 →
      ¬ (∀ definition ∈ definitions, definition.Supported) →
      (readTree (treeText definitions).toList).mapError treeFaultMessage =
        .error "Input is not a valid IDL syntax tree: duplicate field `kind`") := by
  rw [readTree_treeText]
  refine ⟨⟨?_, ?_⟩, ?_⟩
  · intro read
    have each := mapM_readBack_eq_ok read
    exact ⟨fun definition member => (each definition member).1,
      (depth_tree definitions).mpr fun definition member => (each definition member).2⟩
  · rintro ⟨supported, deep⟩
    rw [mapM_readBack_of_depth deep, if_pos supported]
  · intro deep unsupported
    rw [mapM_readBack_of_depth deep, if_neg unsupported]
    rfl

/-- An attribute of an unrecognized type, and other members. -/
def labelWith (others : List Member) : Definition :=
  .interface ⟨"Label", none, .attribute "text" (.unrecognized "\u00e9\n") true :: others, []⟩

def bareStringifier : Member :=
  .unsupported ⟨"stringifier", none, "stringifier;"⟩

/-- A stringifier is refused, and an unrecognized type is not. -/
theorem tree_round_trip_stringifier :
    (Json.array ([labelWith [bareStringifier]].map Definition.toJson)).depth ≤ 127 ∧
    (readTree (treeText [labelWith [bareStringifier]]).toList).mapError treeFaultMessage =
      .error "Input is not a valid IDL syntax tree: duplicate field `kind`" ∧
    readTree (treeText [labelWith []]).toList = .ok [labelWith []] :=
  ⟨by decide, (tree_round_trip _).2 (by decide) (by decide),
    (tree_round_trip _).1.mpr ⟨by decide, by decide⟩⟩

end IdlTypings.Idl
