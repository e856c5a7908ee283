import Mathlib
import IdlTypings.Proofs.JsonGrammar
import IdlTypings.Proofs.NodeFields

/-! # The text of a tree

The readers of nodes judge a tag as soon as it is met and read the rest before they decode it.  This
module shows that nothing of that order is left in the result: a tree is read from a text exactly if
the text holds an array, and each item of the array stands for a definition, `readTree_ok_iff`.
-/

namespace IdlTypings.Json

variable {α : Type} {s t : List Char}

/-- A variant by its tag, which must be a name. -/
def textTag (variants : List (Variant α)) : Decoder (Variant α)
  | .string tag => variantNamed variants tag
  | other => .error (.wrongType other.found "variant identifier")

theorem variantTag_of_textTag {variants : List (Variant α)} {tag : Json} {variant : Variant α}
    (known : textTag variants tag = .ok variant) : variantTag variants tag = .ok variant := by
  cases tag with
  | string tag => exact known
  | null | bool _ | number _ | array _ | object _ => cases known

/-! ## Rows of judged parts -/

section

variable {β : Type} {part : List Char → α → List Char → Prop} {judge : α → β → Prop}
  {opening close : Char}

theorem parts_judged_iff {ys : List β} :
    Parts (fun s y t => ∃ x, part s x t ∧ judge x y) close s ys t ↔
      ∃ xs, Parts part close s xs t ∧ List.Forall₂ judge xs ys := by
  constructor
  · intro parts
    induction parts with
    | last reads ends =>
      obtain ⟨x, stands, judged⟩ := reads
      exact ⟨[x], .last stands ends, .cons judged .nil⟩
    | more reads comma _ ih =>
      obtain ⟨x, stands, judged⟩ := reads
      obtain ⟨xs, others, row⟩ := ih
      exact ⟨x :: xs, .more stands comma others, .cons judged row⟩
  · rintro ⟨xs, parts, row⟩
    induction parts generalizing ys with
    | last stands ends =>
      cases row with
      | cons judged none =>
        cases none
        exact .last ⟨_, stands, judged⟩ ends
    | more stands comma _ ih =>
      cases row with
      | cons judged row => exact .more ⟨_, stands, judged⟩ comma (ih row)

theorem enclosed_judged_iff {ys : List β} :
    Enclosed (fun s y t => ∃ x, part s x t ∧ judge x y) opening close s ys t ↔
      ∃ xs, Enclosed part opening close s xs t ∧ List.Forall₂ judge xs ys := by
  constructor
  · intro enclosed
    cases enclosed with
    | none ends => exact ⟨[], .none ends, .nil⟩
    | some parts =>
      obtain ⟨xs, parts, row⟩ := parts_judged_iff.mp parts
      exact ⟨xs, .some parts, row⟩
  · rintro ⟨xs, enclosed, row⟩
    cases enclosed with
    | none ends =>
      cases row
      exact .none ends
    | some parts => exact .some (parts_judged_iff.mpr ⟨xs, parts, row⟩)

end

namespace Reader

/-! ## Tags -/

theorem ofExcept_ok_iff {result : Except Fault α} {x : α} :
    ofExcept result s = .ok (x, t) ↔ result = .ok x ∧ s = t := by
  cases result <;> simp [ofExcept, Except.map]

theorem tag_ok_iff {variants : List (Variant α)} (levels : Nat) {variant : Variant α} :
    Reader.tag variants s = .ok (variant, t) ↔
      ∃ value, ValueAt levels s value t ∧ textTag variants value = .ok variant := by
  rw [Reader.tag, peek_ok_iff rfl rfl (fun c notArray notObject => by split <;> [contradiction; contradiction; rfl])]
  constructor
  · rintro (⟨-, found⟩ | ⟨-, found⟩ | ⟨-, -, found⟩)
    · exact absurd found throw_not_ok
    · exact absurd found throw_not_ok
    · obtain ⟨value, u, stands, found⟩ := bind_ok_iff.mp found
      rw [scalar_ok_iff] at stands
      cases value with
      | string tag =>
        obtain ⟨known, rfl⟩ := ofExcept_ok_iff.mp found
        exact ⟨.string tag, stands.valueAt levels, known⟩
      | null | bool _ | number _ | array _ | object _ => exact absurd found throw_not_ok
  -- Only a string can be the name of a variant, and a string stands at every level.
  · rintro ⟨value, stands, known⟩
    cases value with
    | string tag =>
      have scalarAt : ScalarAt s (.string tag) t := by cases levels <;> exact stands
      cases scalarAt with
      | string reads =>
        obtain ⟨body, rfl⟩ := stringText_head reads
        refine .inr (.inr ⟨by simp, by simp, bind_ok_iff.mpr ⟨_, t, scalar_ok_iff.mpr (.string reads), ?_⟩⟩)
        exact ofExcept_ok_iff.mpr ⟨known, rfl⟩
    | null | bool _ | number _ | array _ | object _ => cases known

theorem finish_ok_iff {φ : Type} {p : Progress α φ} {fields : List φ → Fields} {x : α} :
    finish p fields s = .ok (x, t) ↔
      ∃ variant, p.variant = some variant ∧
        variant.record.node variant.what (fields p.fields.reverse) = .ok x ∧ s = t := by
  rw [finish]
  cases p.variant with
  | none => simp [throw_not_ok]
  | some variant => simp [ofExcept_ok_iff]

/-! ## Nodes that are objects -/

/-- What the next entry makes of what has been read of a node. -/
def withEntry (variants : List (Variant α)) (p : Progress α (String × Json))
    (entry : String × Json) : Except Fault (Progress α (String × Json)) :=
  if entry.1 = tagKey then
    if p.variant.isSome then .error (.duplicateField tagKey)
    else (textTag variants entry.2).map fun variant => { p with variant := some variant }
  else .ok { p with fields := entry :: p.fields }

theorem colonAt_tag_ok_iff {variants : List (Variant α)} (levels : Nat) {variant : Variant α} :
    afterColon (Reader.tag variants) s = .ok (variant, t) ↔
      ∃ value, ColonAt (ValueAt levels) s value t ∧ textTag variants value = .ok variant := by
  rw [afterColon_ok_iff]
  constructor
  · rintro ⟨u, colon, found⟩
    obtain ⟨value, stands, known⟩ := (tag_ok_iff levels).mp found
    exact ⟨value, ⟨u, colon, stands⟩, known⟩
  · rintro ⟨value, ⟨u, colon, stands⟩, known⟩
    exact ⟨u, colon, (tag_ok_iff levels).mpr ⟨value, stands, known⟩⟩

theorem colonAt_value_ok_iff {levels : Nat} {value : Json} :
    afterColon (Reader.value levels) s = .ok (value, t) ↔ ColonAt (ValueAt levels) s value t := by
  simp only [afterColon_ok_iff, value_ok_iff]

theorem taggedEntry_ok_iff {variants : List (Variant α)} {levels : Nat}
    {p p' : Progress α (String × Json)} {key : String} :
    taggedEntry variants levels p key s = .ok (p', t) ↔
      ∃ value, ColonAt (ValueAt levels) s value t ∧ withEntry variants p (key, value) = .ok p' := by
  by_cases isTag : key = tagKey
  -- A second tag is refused before its value is looked at, which `withEntry` does too.
  · subst isTag
    cases variant : p.variant with
    | some _ =>
      simp only [taggedEntry, withEntry, variant, beq_self_eq_true, Option.isSome_some, if_true]
      constructor
      · intro found
        cases found
      · rintro ⟨value, -, found⟩
        cases found
    | none =>
      simp only [taggedEntry, withEntry, variant, beq_self_eq_true, Option.isSome_none,
        Bool.false_eq_true, if_true, if_false, bind_ok_iff, map_ok_iff, colonAt_tag_ok_iff levels]
      constructor
      · rintro ⟨found, u, ⟨value, stands, known⟩, same⟩
        cases same
        exact ⟨value, stands, found, known, rfl⟩
      · rintro ⟨value, stands, found, known, rfl⟩
        exact ⟨found, t, ⟨value, stands, known⟩, rfl⟩
  · have notTag : (key == tagKey) = false := by simpa using isTag
    simp only [taggedEntry, withEntry, notTag, isTag, Bool.false_eq_true, if_false, bind_ok_iff,
      colonAt_value_ok_iff]
    constructor
    · rintro ⟨value, u, stands, same⟩
      cases same
      exact ⟨value, stands, rfl⟩
    · rintro ⟨value, stands, same⟩
      cases same
      exact ⟨value, t, stands, rfl⟩

/-- The entries of a node are gathered, its only tag apart from the others. -/
theorem foldlM_withEntry {variants : List (Variant α)} {entries : List (String × Json)}
    {p p' : Progress α (String × Json)} :
    entries.foldlM (withEntry variants) p = .ok p' ↔
      p'.fields = (entries.filter (·.1 != tagKey)).reverse ++ p.fields ∧
        ((valuesOf tagKey entries = [] ∧ p'.variant = p.variant) ∨
          ∃ tag variant, p.variant = none ∧ valuesOf tagKey entries = [tag] ∧
            textTag variants tag = .ok variant ∧ p'.variant = some variant) := by
  induction entries generalizing p with
  | nil =>
    obtain ⟨variant, fields⟩ := p
    obtain ⟨variant', fields'⟩ := p'
    simp [pure, Except.pure, eq_comm, and_comm]
  | cons entry entries ih =>
    obtain ⟨key, value⟩ := entry
    rw [foldlM_cons_ok_iff]
    -- A tag is taken only while there is none, and none may come after it.
    by_cases isTag : key = tagKey
    · subst isTag
      cases variant : p.variant with
      | some _ => simp [withEntry, variant]
      | none =>
        simp only [withEntry, variant, map_ok_iff, ih, Option.isSome_none, Bool.false_eq_true, if_true,
          if_false, valuesOf_cons_self]
        constructor
        · rintro ⟨_, ⟨found, known, rfl⟩, fields, ⟨noTag, same⟩ | ⟨_, _, impossible, _⟩⟩
          · exact ⟨by simpa using fields, .inr ⟨value, found, trivial, by rw [noTag], known, same⟩⟩
          · cases impossible
        · rintro ⟨fields, ⟨impossible, _⟩ | ⟨tag, found, -, tags, known, same⟩⟩
          · cases impossible
          · obtain ⟨rfl, noTag⟩ := List.cons.inj tags
            exact ⟨_, ⟨found, known, rfl⟩, by simpa using fields, .inl ⟨noTag, same⟩⟩
    · simp [withEntry, isTag, ih, valuesOf_cons_of_ne isTag]

theorem taggedObject_ok_iff {variants : List (Variant α)} {levels : Nat} {x : α} :
    (do finish (← object (taggedEntry variants levels) {}) .named) s = .ok (x, t) ↔
      ∃ entries, Enclosed (EntryAt (ValueAt levels)) '\x7b' '\x7d' s entries t ∧
        TaggedNode (textTag variants) (.object entries) x := by
  simp only [bind_ok_iff, finish_ok_iff,
    object_ok_iff (ValueAt levels) (withEntry variants) taggedEntry_ok_iff ValueAt.length_le, foldlM_withEntry]
  constructor
  · rintro ⟨p, u, ⟨entries, stands, fields, ⟨-, same⟩ | ⟨tag, found, -, tags, known, same⟩⟩,
      variant, isVariant, decoded, rfl⟩
    -- Without a tag there is no variant to finish with.
    · rw [isVariant] at same
      cases same
    · cases isVariant.symm.trans same
      refine ⟨entries, stands, .object tags known ?_⟩
      simpa [fields] using decoded
  · rintro ⟨entries, stands, node⟩
    cases node with
    | @object _ tag variant _ tags known decoded =>
      exact ⟨⟨some variant, (entries.filter (·.1 != tagKey)).reverse⟩, t,
        ⟨entries, stands, by simp, .inr ⟨tag, variant, trivial, tags, known, rfl⟩⟩,
        variant, rfl, by simpa using decoded, rfl⟩

/-! ## Nodes that are arrays -/

/-- What the next item makes of what has been read of a node. -/
def withItem (variants : List (Variant α)) (p : Progress α Json) (item : Json) :
    Except Fault (Progress α Json) :=
  match p.variant with
  | none => (textTag variants item).map fun variant => { p with variant := some variant }
  | some _ => .ok { p with fields := item :: p.fields }

theorem taggedItem_ok_iff {variants : List (Variant α)} {levels : Nat} {p p' : Progress α Json} :
    taggedItem variants levels p s = .ok (p', t) ↔
      ∃ value, ValueAt levels s value t ∧ withItem variants p value = .ok p' := by
  cases variant : p.variant with
  | none =>
    simp only [taggedItem, withItem, variant, bind_ok_iff, map_ok_iff, tag_ok_iff levels]
    constructor
    · rintro ⟨found, u, ⟨value, stands, known⟩, same⟩
      cases same
      exact ⟨value, stands, found, known, rfl⟩
    · rintro ⟨value, stands, found, known, rfl⟩
      exact ⟨found, t, ⟨value, stands, known⟩, rfl⟩
  | some _ =>
    simp only [taggedItem, withItem, variant, bind_ok_iff, value_ok_iff]
    constructor
    · rintro ⟨value, u, stands, same⟩
      cases same
      exact ⟨value, stands, rfl⟩
    · rintro ⟨value, stands, same⟩
      cases same
      exact ⟨value, t, stands, rfl⟩

theorem foldlM_withItem (variants : List (Variant α)) (variant : Variant α)
    (items gathered : List Json) :
    items.foldlM (withItem variants) { variant := some variant, fields := gathered } =
      .ok { variant := some variant, fields := items.reverse ++ gathered } := by
  induction items generalizing gathered with
  | nil => rfl
  | cons item items ih =>
    refine (ih (item :: gathered)).trans ?_
    simp

theorem taggedArray_ok_iff {variants : List (Variant α)} {levels : Nat} {x : α} :
    (do finish (← array (taggedItem variants levels) {}) .ordered) s = .ok (x, t) ↔
      ∃ items, Enclosed (ValueAt levels) '[' ']' s items t ∧
        TaggedNode (textTag variants) (.array items) x := by
  simp only [bind_ok_iff, finish_ok_iff,
    array_ok_iff (ValueAt levels) (withItem variants) taggedItem_ok_iff ValueAt.length_le not_valueAt_close]
  constructor
  · rintro ⟨p, u, ⟨items, stands, folded⟩, variant, isVariant, decoded, rfl⟩
    refine ⟨items, stands, ?_⟩
    cases items with
    | nil =>
      cases folded
      cases isVariant
    -- The first item is the tag, and the fold over the others only gathers them.
    | cons tag items =>
      obtain ⟨_, first, folded⟩ := foldlM_cons_ok_iff.mp folded
      obtain ⟨found, known, rfl⟩ := map_ok_iff.mp first
      cases (foldlM_withItem variants found items []).symm.trans folded
      cases isVariant
      exact .array known (by simpa using decoded)
  · rintro ⟨items, stands, node⟩
    cases node with
    | @array tag items variant _ known decoded =>
      exact ⟨⟨some variant, items.reverse⟩, t,
        ⟨_, stands, foldlM_cons_ok_iff.mpr ⟨⟨some variant, []⟩, map_ok_iff.mpr ⟨variant, known, rfl⟩,
          by simpa using foldlM_withItem variants variant items []⟩⟩,
        variant, rfl, by simpa using decoded, rfl⟩

/-! ## Nodes -/

/-- A node is read from a text exactly if the text holds a value that stands for it. -/
theorem tagged_ok_iff {name : String} {variants : List (Variant α)} {levels : Nat} {x : α} :
    Reader.tagged name variants levels s = .ok (x, t) ↔
      ∃ value, ValueAt (levels + 1) s value t ∧ TaggedNode (textTag variants) value x := by
  rw [Reader.tagged, peek_ok_iff rfl rfl
    (fun c notArray notObject => by split <;> [contradiction; contradiction; rfl])]
  constructor
  · rintro (⟨-, found⟩ | ⟨-, found⟩ | ⟨-, -, found⟩)
    · obtain ⟨items, stands, node⟩ := taggedArray_ok_iff.mp found
      exact ⟨.array items, stands, node⟩
    · obtain ⟨entries, stands, node⟩ := taggedObject_ok_iff.mp found
      exact ⟨.object entries, stands, node⟩
    · obtain ⟨_, _, _, found⟩ := bind_ok_iff.mp found
      exact absurd found throw_not_ok
  · rintro ⟨value, stands, node⟩
    cases value with
    | array items =>
      have opens : s.head? = some '[' := Enclosed.head stands
      exact .inl ⟨opens, taggedArray_ok_iff.mpr ⟨items, stands, node⟩⟩
    | object entries =>
      have opens : s.head? = some '\x7b' := Enclosed.head stands
      exact .inr (.inl ⟨opens, taggedObject_ok_iff.mpr ⟨entries, stands, node⟩⟩)
    | null | bool _ | number _ | string _ => cases node

/-- An array is read item by item. -/
theorem list_ok_iff (part : List Char → α → List Char → Prop) {item : Reader α}
    (reads : ∀ {s t x}, item s = .ok (x, t) ↔ part s x t)
    (shrinks : ∀ {s t x}, part s x t → t.length ≤ s.length)
    (noPart : ∀ {s t x}, ¬ part (']' :: s) x t) {xs : List α} :
    Reader.list item s = .ok (xs, t) ↔ Enclosed part '[' ']' (solid s) xs t := by
  rw [Reader.list, bind_ok (r := blanks) rfl]
  change (peek >>= _) (solid s) = _ ↔ _
  rw [peek_ok_iff rfl rfl
    (fun c notArray notObject => by split <;> [contradiction; contradiction; rfl])]
  constructor
  · rintro (⟨-, found⟩ | ⟨-, found⟩ | ⟨-, -, found⟩)
    · obtain ⟨gathered, u, found, same⟩ := bind_ok_iff.mp found
      cases same
      exact (gather_ok_iff part reads shrinks noPart).mp found
    · exact absurd found throw_not_ok
    · obtain ⟨_, _, _, found⟩ := bind_ok_iff.mp found
      exact absurd found throw_not_ok
  -- The loop puts the items down in reverse.
  · intro stands
    refine .inl ⟨stands.head, bind_ok_iff.mpr ⟨xs.reverse, t, ?_, ?_⟩⟩
    · exact (gather_ok_iff part reads shrinks noPart).mpr (by simpa using stands)
    · rw [List.reverse_reverse]
      rfl

theorem whole_ok_iff {reader : Reader α} {x : α} :
    Reader.whole reader s = .ok x ↔ ∃ rest, reader s = .ok (x, rest) ∧ solid rest = [] := by
  rw [Reader.whole, except_bind_ok_iff]
  constructor
  · rintro ⟨⟨y, rest⟩, reads, ends⟩
    dsimp only at ends
    split_ifs at ends with blank
    cases ends
    exact ⟨rest, reads, List.isEmpty_iff.mp blank⟩
  · rintro ⟨rest, reads, blank⟩
    exact ⟨(x, rest), reads, if_pos (List.isEmpty_iff.mpr blank)⟩

end Reader

end IdlTypings.Json

namespace IdlTypings.Idl

open Json (Enclosed Holds Reader TaggedNode ValueAt enclosed_judged_iff textTag)

theorem definitionReader_ok_iff {s t : List Char} {definition : Definition} :
    definitionReader s = .ok (definition, t) ↔
      ∃ value, ValueAt (Reader.maxDepth - 1) s value t ∧
        TaggedNode (textTag definitionVariants) value definition :=
  Reader.tagged_ok_iff

/-- A tree is read from a text exactly if the text holds an array of values that stand for its
    definitions. -/
theorem readTree_ok_iff {text : List Char} {definitions : List Definition} :
    readTree text = .ok definitions ↔
      ∃ items, Holds text (.array items) ∧
        List.Forall₂ (TaggedNode (textTag definitionVariants)) items definitions := by
  have row {t : List Char} : Reader.list definitionReader text = .ok (definitions, t) ↔
      ∃ items, Enclosed (ValueAt (Reader.maxDepth - 1)) '[' ']' (Json.solid text) items t ∧
        List.Forall₂ (TaggedNode (textTag definitionVariants)) items definitions := by
    rw [Reader.list_ok_iff _ definitionReader_ok_iff ?_ ?_, enclosed_judged_iff]
    · rintro s t definition ⟨value, stands, -⟩
      exact stands.length_le
    · rintro s t definition ⟨value, stands, -⟩
      exact Reader.not_valueAt_close stands
  rw [readTree, Reader.whole_ok_iff]
  constructor
  · rintro ⟨rest, reads, blank⟩
    obtain ⟨items, stands, nodes⟩ := row.mp reads
    exact ⟨items, ⟨rest, stands, blank⟩, nodes⟩
  · rintro ⟨items, ⟨rest, stands, blank⟩, nodes⟩
    exact ⟨rest, row.mpr ⟨items, stands, nodes⟩, blank⟩

end IdlTypings.Idl
