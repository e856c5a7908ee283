import Mathlib
import IdlTypings.Idl.OfJson
import IdlTypings.Proofs.JsonNodes

/-! # What a node is decoded from

When decoding succeeds, and from which values:

* a field from the one value that stands for it, or else it has its default, `field_ok_iff`;
* a record from its fields, so that what it makes of some fields it makes of others that give the
  same, `Carries`;
* a node with variants from its one tag and the rest of its entries, `tagged_ok_iff`;
* a node with a tag beside its value from these two, `tagAndValue_object_ok_iff`;
* a type from the types inside it, however deep they lie, `ofJson_ok_iff`.

The order of the entries does not come into it, and neither do entries that nobody asks for.
-/

namespace IdlTypings.Json

variable {α β : Type}

/-! ## Values of keys -/

/-- The values of a key, in the order of the entries. -/
def valuesOf (key : String) (entries : List (String × Json)) : List Json :=
  (entries.filter (·.1 == key)).map (·.2)

@[simp] theorem valuesOf_nil (key : String) : valuesOf key [] = [] := rfl

@[simp] theorem valuesOf_cons_self (key : String) (value : Json) (entries : List (String × Json)) :
    valuesOf key ((key, value) :: entries) = value :: valuesOf key entries := by
  simp [valuesOf]

theorem valuesOf_cons_of_ne {key key' : String} (other : key' ≠ key) (value : Json)
    (entries : List (String × Json)) :
    valuesOf key ((key', value) :: entries) = valuesOf key entries := by
  simp [valuesOf, other]

theorem mem_valuesOf {key : String} {value : Json} {entries : List (String × Json)} :
    value ∈ valuesOf key entries ↔ (key, value) ∈ entries := by
  simp [valuesOf]

theorem valuesOf_filter {key : String} {keep : String × Json → Bool}
    (keeps : ∀ value, keep (key, value) = true) (entries : List (String × Json)) :
    valuesOf key (entries.filter keep) = valuesOf key entries := by
  rw [valuesOf, valuesOf, List.filter_filter]
  refine congrArg (List.map _) (List.filter_congr fun entry _ => ?_)
  obtain ⟨key', value⟩ := entry
  by_cases same : key' = key
  · subst same
    simp [keeps]
  · simp [same]

theorem valuesOf_filter_ne (key : String) (entries : List (String × Json)) :
    valuesOf key (entries.filter (·.1 != key)) = [] := by
  rw [valuesOf, List.filter_filter, List.map_eq_nil_iff, List.filter_eq_nil_iff]
  simp

/-! ## Fields -/

/-- The values that stand for a field: those with its name, or the one with its number. -/
def Fields.at (name : String) (index : Nat) : Fields → List Json
  | .named entries => valuesOf name entries
  | .ordered items => items[index]?.toList

/-- An array has no more items than the node has fields. -/
def Fields.Fit (size : Nat) : Fields → Prop
  | .named _ => True
  | .ordered items => items.length ≤ size

/-- Some values give a field: there is one and it is decoded, or there is none and the field has a
    default. -/
def Gives (decode : Decoder α) (default : Option α) (values : List Json) (x : α) : Prop :=
  (values = [] ∧ default = some x) ∨ ∃ value, values = [value] ∧ decode value = .ok x

theorem Gives.imp {decode decode' : Decoder α} {default : Option α} {values : List Json} {x : α}
    (finer : ∀ value ∈ values, decode value = .ok x → decode' value = .ok x)
    (gives : Gives decode default values x) : Gives decode' default values x := by
  rcases gives with missing | ⟨value, rfl, decoded⟩
  · exact .inl missing
  · exact .inr ⟨value, rfl, finer value List.mem_cons_self decoded⟩

theorem except_bind_ok_iff {r : Except Fault α} {f : α → Except Fault β} {y : β} :
    r >>= f = .ok y ↔ ∃ x, r = .ok x ∧ f x = .ok y := by
  cases r <;> simp [bind, Except.bind]

namespace Record

theorem occurrences_values (name : String) (entries : List (String × Json)) :
    (occurrences name entries).map (·.2) = valuesOf name entries := by
  -- The places are counted from some number on, so the induction is over all of them.
  suffices shifted : ∀ n, ((entries.zipIdx n).filterMap fun entry =>
      if entry.1.1 == name then some (entry.2, entry.1.2) else none).map (·.2) =
        valuesOf name entries from
    shifted 0
  induction entries with
  | nil => simp
  | cons entry entries ih =>
    intro n
    obtain ⟨key, value⟩ := entry
    have others := ih (n + 1)
    by_cases same : key = name
    · subst same
      simp_all
    · simp_all [valuesOf_cons_of_ne]

theorem placed_ok_iff {place : Nat} {result : Except Fault α} {x : α} :
    placed place result = .ok x ↔ result = .ok x := by
  cases result <;> simp

theorem field_ok_iff {name : String} {decode : Decoder α} {default : Option α} {expected : String}
    {first : Nat} {fields : Fields} {x : α} :
    (field name decode default).decode expected first fields = .ok x ↔
      Gives decode default (fields.at name first) x := by
  cases fields with
  | named entries =>
    rw [Fields.at, ← occurrences_values]
    simp only [field, Gives]
    match occurrences name entries with
    | [] => cases default <;> simp
    | [(place, value)] => cases decoded : decode value <;> simp [decoded]
    | (place, value) :: (second, other) :: others =>
      cases decoded : decode value <;> simp [decoded]
  | ordered items =>
    simp only [field, Fields.at, Gives]
    cases items[first]? with
    | none => cases default <;> simp
    | some value => simp [placed_ok_iff]

theorem apply_ok_iff {f : Placed (α → β)} {x : Placed α} {z : β} :
    Placed.apply f x = .ok z ↔ ∃ g y, f = .ok g ∧ x = .ok y ∧ g y = z := by
  cases f <;> cases x <;> simp [Placed.apply]

theorem checkLength_ok_iff {size : Nat} {fields : Fields} :
    checkLength size fields = .ok () ↔ fields.Fit size := by
  cases fields with
  | named entries => simp [checkLength, Fields.Fit]
  | ordered items =>
    simp only [checkLength, Fields.Fit]
    split_ifs with fits <;> simp [fits]

theorem node_ok_iff {what : String} {r : Record α} {fields : Fields} {x : α} :
    r.node what fields = .ok x ↔
      r.decode (what ++ " with " ++ elements r.size) 0 fields = .ok x ∧ fields.Fit r.size := by
  rw [node, ← checkLength_ok_iff]
  cases r.decode (what ++ " with " ++ elements r.size) 0 fields with
  | error e => simp [bind, Except.bind]
  | ok y =>
    cases checkLength r.size fields with
    | error fault => simp [bind, Except.bind]
    | ok _ => simp [bind, Except.bind, pure, Except.pure]

/-! ## What records have in common -/

/-- What one record makes of some fields, the other one makes of the others. -/
structure Carries (first : Nat) (r r' : Record α) (fields fields' : Fields) : Prop where
  size : r.size = r'.size
  decode : ∀ {expected expected' : String} {x : α},
    r.decode expected first fields = .ok x → r'.decode expected' first fields' = .ok x

section

variable {first : Nat} {fields fields' : Fields}

theorem carries_seq {f f' : Record (α → β)} {r r' : Record α}
    (function : Carries first f f' fields fields')
    (argument : Carries (first + f.size) r r' fields fields') :
    Carries first (f <*> r) (f' <*> r') fields fields' where
  size := by rw [size_seq, size_seq, function.size, argument.size]
  decode := by
    intro expected expected' z decoded
    rw [decode_seq, apply_ok_iff] at decoded ⊢
    obtain ⟨g, y, decodedFunction, decodedArgument, result⟩ := decoded
    exact ⟨g, y, function.decode decodedFunction, function.size ▸ argument.decode decodedArgument,
      result⟩

theorem carries_map (f : α → β) {r r' : Record α} (carries : Carries first r r' fields fields') :
    Carries first (f <$> r) (f <$> r') fields fields' where
  size := by rw [size_map, size_map, carries.size]
  decode := by
    intro expected expected' z decoded
    rw [decode_map, apply_ok_iff] at decoded ⊢
    obtain ⟨g, y, function, argument, result⟩ := decoded
    exact ⟨g, y, function, carries.decode argument, result⟩

theorem carries_field {name : String} {decode decode' : Decoder α} {default : Option α}
    (gives : ∀ x, Gives decode default (fields.at name first) x →
      Gives decode' default (fields'.at name first) x) :
    Carries first (field name decode default) (field name decode' default) fields fields' where
  size := rfl
  decode := by
    intro expected expected' x decoded
    rw [field_ok_iff] at decoded ⊢
    exact gives x decoded

theorem Carries.node {r r' : Record α} (carries : Carries 0 r r' fields fields')
    (fit : fields.Fit r.size → fields'.Fit r.size) {what what' : String} {x : α}
    (decoded : r.node what fields = .ok x) : r'.node what' fields' = .ok x := by
  rw [node_ok_iff] at decoded ⊢
  exact ⟨carries.decode decoded.1, carries.size ▸ fit decoded.2⟩

end

end Record

/-! ## Lists and null -/

namespace Decoder

theorem mapM_ok_iff {decode : Decoder α} {items : List Json} {xs : List α} :
    items.mapM decode = .ok xs ↔ List.Forall₂ (fun item x => decode item = .ok x) items xs := by
  induction items generalizing xs with
  | nil => simp [pure, Except.pure, eq_comm]
  | cons item items ih =>
    rw [List.mapM_cons, except_bind_ok_iff, List.forall₂_cons_left_iff]
    refine exists_congr fun x => ?_
    rw [except_bind_ok_iff]
    simp [ih, pure, Except.pure, eq_comm]

theorem list_ok_iff {decode : Decoder α} {value : Json} {xs : List α} :
    list decode value = .ok xs ↔
      ∃ items, value = .array items ∧ List.Forall₂ (fun item x => decode item = .ok x) items xs := by
  cases value <;> simp [list, mapM_ok_iff]

theorem nullable_ok_iff {decode : Decoder α} {value : Json} {x : Option α} :
    nullable decode value = .ok x ↔
      (value = .null ∧ x = none) ∨ (value ≠ .null ∧ ∃ y, decode value = .ok y ∧ x = some y) := by
  by_cases isNull : value = .null
  · subst isNull
    simp [nullable, eq_comm]
  · have other : nullable decode value = (decode value).map some := by
      cases value <;> first | contradiction | rfl
    rw [other]
    cases decode value <;> simp [isNull, Except.map, eq_comm]

end Decoder

/-! ## Variants -/

/-- What a tag stands for in a table, by its name or by its number. -/
def lookupTag (tagOf : β → String) (table : List β) : Json → Option β
  | .string tag => table.find? (tagOf · == tag)
  | .number (.integer (.ofNat index)) => table[index]?
  | _ => none

theorem mem_of_lookupTag {tagOf : β → String} {table : List β} {tag : Json} {x : β}
    (found : lookupTag tagOf table tag = some x) : x ∈ table := by
  match tag with
  | .string tag => exact List.mem_of_find?_eq_some found
  | .number (.integer (.ofNat index)) => exact List.mem_of_getElem? found
  | .number (.integer (.negSucc _)) | .number (.floating _) | .null | .bool _ | .array _ | .object _ =>
    cases found

theorem variantTag_ok_iff {variants : List (Variant α)} {tag : Json} {variant : Variant α} :
    variantTag variants tag = .ok variant ↔ lookupTag Variant.tag variants tag = some variant := by
  match tag with
  | .string tag =>
    simp only [variantTag, variantNamed, lookupTag]
    cases variants.find? (·.tag == tag) <;> simp
  | .number (.integer (.ofNat index)) =>
    simp only [variantTag, lookupTag]
    cases variants[index]? <;> simp
  | .number (.integer (.negSucc _)) | .number (.floating _) | .null | .bool _ | .array _ | .object _ =>
    simp [variantTag, lookupTag]

section

variable {γ : Type} {tagOf : β → String} {tagOf' : γ → String} {related : β → γ → Prop}
  {table : List β} {table' : List γ}

theorem find_related
    (tables : List.Forall₂ (fun x y => tagOf x = tagOf' y ∧ related x y) table table') {tag : String}
    {x : β} (found : table.find? (tagOf · == tag) = some x) :
    ∃ y, table'.find? (tagOf' · == tag) = some y ∧ related x y := by
  induction tables with
  | nil => cases found
  | @cons z z' _ _ same _ ih =>
    rw [List.find?_cons] at found ⊢
    rw [← same.1]
    split at found
    next =>
      cases found
      exact ⟨z', rfl, same.2⟩
    next => exact ih found

theorem getElem_related
    (tables : List.Forall₂ (fun x y => tagOf x = tagOf' y ∧ related x y) table table') {index : Nat}
    {x : β} (found : table[index]? = some x) :
    ∃ y, table'[index]? = some y ∧ related x y := by
  induction tables generalizing index with
  | nil => cases found
  | @cons z z' _ _ same _ ih =>
    cases index with
    | zero =>
      cases found
      exact ⟨z', rfl, same.2⟩
    | succ index => exact ih found

/-- Two tables of the same tags say related things about a tag. -/
theorem lookupTag_related
    (tables : List.Forall₂ (fun x y => tagOf x = tagOf' y ∧ related x y) table table') {tag : Json}
    {x : β} (found : lookupTag tagOf table tag = some x) :
    ∃ y, lookupTag tagOf' table' tag = some y ∧ related x y := by
  match tag with
  | .string tag => exact find_related tables found
  | .number (.integer (.ofNat index)) => exact getElem_related tables found
  | .number (.integer (.negSucc _)) | .number (.floating _) | .null | .bool _ | .array _ | .object _ =>
    cases found

end

/-- A value that stands for a node, of the variant that its only tag is judged to mean. -/
inductive TaggedNode (judge : Decoder (Variant α)) : Json → α → Prop where
  | object {entries : List (String × Json)} {tag : Json} {variant : Variant α} {x : α}
      (tags : valuesOf tagKey entries = [tag]) (known : judge tag = .ok variant)
      (fields : variant.record.node variant.what (.named (entries.filter (·.1 != tagKey))) = .ok x) :
      TaggedNode judge (.object entries) x
  | array {tag : Json} {items : List Json} {variant : Variant α} {x : α}
      (known : judge tag = .ok variant)
      (fields : variant.record.node variant.what (.ordered items) = .ok x) :
      TaggedNode judge (.array (tag :: items)) x

theorem tagged_ok_iff {name : String} {variants : List (Variant α)} {value : Json} {x : α} :
    tagged name variants value = .ok x ↔ TaggedNode (variantTag variants) value x := by
  cases value with
  | null | bool _ | number _ | string _ =>
    constructor
    · intro decoded
      cases decoded
    · intro node
      cases node
  | array items =>
    cases items with
    | nil =>
      constructor
      · intro decoded
        cases decoded
      · intro node
        cases node
    | cons tag items =>
      refine Iff.trans except_bind_ok_iff ?_
      constructor
      · rintro ⟨variant, known, fields⟩
        exact .array known fields
      · intro node
        cases node with
        | array known fields => exact ⟨_, known, fields⟩
  | object entries =>
    -- A tag may be missing, stand once or stand more than once.
    match found : entries.filter (·.1 == tagKey) with
    | [] =>
      simp only [tagged, found]
      constructor
      · intro decoded
        cases decoded
      · rintro (⟨tags, -, -⟩ | -)
        simp [valuesOf, found] at tags
    | [(key, tag)] =>
      have tags : valuesOf tagKey entries = [tag] := by rw [valuesOf, found]; rfl
      simp only [tagged, found]
      refine Iff.trans except_bind_ok_iff ?_
      constructor
      · rintro ⟨variant, known, fields⟩
        exact .object tags known fields
      · rintro (⟨tags', known, fields⟩ | -)
        cases tags.symm.trans tags'
        exact ⟨_, known, fields⟩
    | (key, tag) :: second :: others =>
      simp only [tagged, found]
      refine Iff.trans except_bind_ok_iff ?_
      constructor
      · rintro ⟨variant, known, fields⟩
        cases fields
      · rintro (⟨tags, -, -⟩ | -)
        simp [valuesOf, found] at tags

/-! ## A tag beside a value -/

theorem throw_eq (fault : Fault) : (throw fault : Except Fault α) = .error fault := rfl

theorem choice_ok_iff (choices : List (Choice α)) (tag value : Json)
    (others : List (String × Json)) (x : α) :
    (do
      let choice ← choiceTag choices tag
      let result ← choice.decode value
      noFurther others
      return result) = .ok x ↔
      others = [] ∧ ∃ choice, choiceTag choices tag = .ok choice ∧ choice.decode value = .ok x := by
  simp only [except_bind_ok_iff]
  cases others <;> simp [noFurther, pure, Except.pure]

/-- Of the entries of a node with a tag and a value, only these two count. -/
theorem tagAndValue_object_ok_iff {name : String} {choices : List (Choice α)}
    {entries : List (String × Json)} {x : α} :
    tagAndValue name choices (.object entries) = .ok x ↔
      ∃ tag value choice, valuesOf tagKey entries = [tag] ∧ valuesOf valueKey entries = [value] ∧
        choiceTag choices tag = .ok choice ∧ choice.decode value = .ok x := by
  have apart : valueKey ≠ tagKey := by decide
  have tags : valuesOf tagKey (entries.filter fun entry => entry.1 == tagKey || entry.1 == valueKey) =
      valuesOf tagKey entries := valuesOf_filter (by simp) entries
  have values : valuesOf valueKey
      (entries.filter fun entry => entry.1 == tagKey || entry.1 == valueKey) =
      valuesOf valueKey entries := valuesOf_filter (by simp) entries
  have keys : ∀ entry ∈ entries.filter fun entry => entry.1 == tagKey || entry.1 == valueKey,
      entry.1 = tagKey ∨ entry.1 = valueKey := by
    intro entry member
    simpa using (List.mem_filter.mp member).2
  rw [← tags, ← values]
  simp only [tagAndValue]
  clear tags values
  -- From here on only the entries with one of the two keys are left.
  generalize entries.filter (fun entry => entry.1 == tagKey || entry.1 == valueKey) = kept at keys ⊢
  match kept with
  | [] => simp
  | [(key, value)] =>
    rcases keys _ List.mem_cons_self with isTag | isValue
    · obtain rfl : key = tagKey := isTag
      simp [valuesOf_cons_of_ne apart.symm, throw_eq, except_bind_ok_iff]
    · obtain rfl : key = valueKey := isValue
      simp [valuesOf_cons_of_ne apart, apart]
  | (key, first) :: (key', second) :: others =>
    have noneLeft : others = [] ↔ valuesOf tagKey others = [] ∧ valuesOf valueKey others = [] := by
      cases others with
      | nil => simp
      | cons third others =>
        obtain ⟨key'', value⟩ := third
        rcases keys (key'', value) (by simp) with rfl | rfl <;> simp
    rcases keys _ List.mem_cons_self with isTag | isValue
    · obtain rfl : key = tagKey := isTag
      rcases keys (key', second) (by simp) with isTag | isValue
      · obtain rfl : key' = tagKey := isTag
        simp [throw_eq, except_bind_ok_iff]
      · obtain rfl : key' = valueKey := isValue
        have read := choice_ok_iff choices first second others x
        rw [noneLeft, and_assoc] at read
        simpa [valuesOf_cons_of_ne apart, valuesOf_cons_of_ne apart.symm, apart] using read
    · obtain rfl : key = valueKey := isValue
      rcases keys (key', second) (by simp) with isTag | isValue
      · obtain rfl : key' = tagKey := isTag
        have read := choice_ok_iff choices second first others x
        rw [noneLeft, and_assoc] at read
        simpa [valuesOf_cons_of_ne apart, valuesOf_cons_of_ne apart.symm, apart, apart.symm] using read
      · obtain rfl : key' = valueKey := isValue
        simp [apart, throw_eq, except_bind_ok_iff]

end IdlTypings.Json

/-! ## Types -/

namespace IdlTypings.Idl

open Json (Decoder Fields TaggedNode Variant)
open Json.Record

/-- Where a decoder gives a type, another one gives it as well. -/
def Finer (inner inner' : Decoder IdlType) (part : Json) : Prop :=
  ∀ type, inner part = .ok type → inner' part = .ok type

variable {inner inner' : Decoder IdlType}

theorem list_finer {value : Json} (finer : ∀ part, part.depth < value.depth → Finer inner inner' part)
    {types : List IdlType} (decoded : Decoder.list inner value = .ok types) :
    Decoder.list inner' value = .ok types := by
  rw [Json.Decoder.list_ok_iff] at decoded ⊢
  obtain ⟨items, rfl, row⟩ := decoded
  have inside : ∀ item ∈ items, item.depth < (Json.array items).depth := fun item member =>
    Nat.lt_succ_of_le (Json.depthItems_le_iff.mp (Nat.le_refl _) item member)
  exact ⟨items, rfl, ((List.forall₂_and_left items types).mpr ⟨inside, row⟩).imp
    fun item type both => finer item both.1 type both.2⟩

/-- The variants of a type read the same, given decoders that agree on all types inside it. -/
theorem typeVariants_finer {fields : Fields} {depth : Nat}
    (finer : ∀ part, part.depth < depth → Finer inner inner' part)
    (inside : ∀ name index, ∀ part ∈ fields.at name index, part.depth ≤ depth) :
    List.Forall₂
      (fun variant variant' => variant.tag = variant'.tag ∧
        Carries 0 variant.record variant'.record fields fields)
      (typeVariants inner) (typeVariants inner') := by
  have text (first : Nat) (name : String) :
      Carries first (required name .string) (required name .string) fields fields :=
    carries_field fun _ => id
  have types (first : Nat) (name : String) :
      Carries first (required name (.list inner)) (required name (.list inner')) fields fields :=
    carries_field fun _ gives => gives.imp fun value member =>
      list_finer fun part shallow =>
        finer part (Nat.lt_of_lt_of_le shallow (inside name first value member))
  -- In the order of the table: named, generic, union and unrecognized types.
  exact .cons ⟨rfl, carries_map _ (text _ _)⟩ <|
    .cons ⟨rfl, carries_seq (carries_map _ (text _ _)) (types _ _)⟩ <|
    .cons ⟨rfl, carries_map _ (types _ _)⟩ <|
    .cons ⟨rfl, carries_map _ (text _ _)⟩ .nil

theorem taggedNode_finer {value : Json}
    (finer : ∀ part, part.depth < value.depth → Finer inner inner' part) {type : IdlType}
    (node : TaggedNode (Json.variantTag (typeVariants inner)) value type) :
    TaggedNode (Json.variantTag (typeVariants inner')) value type := by
  cases node with
  | @object entries tag variant _ tags known decoded =>
    have inside : ∀ name index, ∀ part ∈ (Fields.named (entries.filter (·.1 != Json.tagKey))).at name
        index, part.depth ≤ (Json.object entries).depth := by
      intro name index part member
      have entry := List.mem_of_mem_filter (Json.mem_valuesOf.mp member)
      exact Nat.le_succ_of_le (Json.depthEntries_le_iff.mp (Nat.le_refl _) _ entry)
    obtain ⟨variant', known', carries⟩ :=
      Json.lookupTag_related (typeVariants_finer finer inside) (Json.variantTag_ok_iff.mp known)
    exact .object tags (Json.variantTag_ok_iff.mpr known') (carries.node id decoded)
  | @array tag items variant _ known decoded =>
    have inside : ∀ name index, ∀ part ∈ (Fields.ordered items).at name index,
        part.depth ≤ (Json.array (tag :: items)).depth := by
      intro name index part member
      have item : part ∈ tag :: items := by
        simp only [Fields.at, Option.mem_toList] at member
        exact List.mem_cons_of_mem _ (List.mem_of_getElem? member)
      exact Nat.le_succ_of_le (Json.depthItems_le_iff.mp (Nat.le_refl _) _ item)
    obtain ⟨variant', known', carries⟩ :=
      Json.lookupTag_related (typeVariants_finer finer inside) (Json.variantTag_ok_iff.mp known)
    exact .array (Json.variantTag_ok_iff.mpr known') (carries.node id decoded)

/-- A type that is decoded within some number of levels is decoded within its own depth. -/
theorem typeWithin_deep {levels levels' : Nat} {value : Json} (deep : value.depth < levels') :
    Finer (typeWithin levels) (typeWithin levels') value := by
  induction levels generalizing levels' value with
  | zero =>
    intro type decoded
    cases decoded
  | succ levels ih =>
    intro type decoded
    -- The types inside lie less deep, so the levels that are left are enough for them.
    obtain ⟨levels', rfl⟩ := Nat.exists_eq_succ_of_ne_zero (Nat.ne_zero_of_lt deep)
    rw [typeWithin, Json.tagged_ok_iff] at decoded ⊢
    exact taggedNode_finer (fun part shallow => ih (by omega)) decoded

/-- A type is a node whose inner types are types. -/
theorem ofJson_ok_iff {value : Json} {type : IdlType} :
    IdlType.ofJson value = .ok type ↔
      TaggedNode (Json.variantTag (typeVariants IdlType.ofJson)) value type := by
  rw [IdlType.ofJson, typeWithin, Json.tagged_ok_iff]
  constructor
  · refine taggedNode_finer fun part _ inner decoded => ?_
    rw [IdlType.ofJson]
    exact typeWithin_deep (Nat.lt_succ_self _) inner decoded
  · refine taggedNode_finer fun part shallow inner decoded => ?_
    rw [IdlType.ofJson] at decoded
    exact typeWithin_deep shallow inner decoded

end IdlTypings.Idl
