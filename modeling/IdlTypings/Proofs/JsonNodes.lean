import Mathlib
import IdlTypings.Json.Decode
import IdlTypings.Proofs.JsonText

/-! # Decoding nodes

Laws of `Record`, `Variant` and the readers of tagged nodes:

* the fields of a record are decoded from its entries one by one, `decode_seq`, `node_named`;
* `tagged_cons` decodes an object whose first entry is its tag, `tagged_twice` one that has a second
  tag;
* `tagged_write` does the same for the text of such an object, and `tagged_write_twice` meets the
  second tag before anything after it.
-/

namespace IdlTypings.Json

variable {α β : Type}

/-! ## Lists -/

theorem mapM_map_ok {encode : α → Json} {decode : Decoder α} {items : List α}
    (reads : ∀ item ∈ items, decode (encode item) = .ok item) :
    (items.map encode).mapM decode = .ok items := by
  induction items with
  | nil => rfl
  | cons item items ih =>
    rw [List.map_cons, List.mapM_cons, reads item List.mem_cons_self,
      ih fun item' member => reads item' (List.mem_cons_of_mem _ member)]
    rfl

/-- Of items that are each accepted or refused for one reason, all are accepted or that reason is
    given. -/
theorem mapM_accepted {γ : Type} {judge : α → Except Fault γ} (result : α → γ) {accepts : α → Prop}
    [DecidablePred accepts] {fault : Fault} {items : List α}
    (judged : ∀ item ∈ items, judge item = if accepts item then .ok (result item) else .error fault) :
    items.mapM judge =
      if ∀ item ∈ items, accepts item then .ok (items.map result) else .error fault := by
  induction items with
  | nil => simp; rfl
  | cons item items ih =>
    rw [List.mapM_cons, judged item List.mem_cons_self,
      ih fun item' member => judged item' (List.mem_cons_of_mem _ member)]
    by_cases first : accepts item
    · by_cases others : ∀ item' ∈ items, accepts item'
      · rw [if_pos first, if_pos others, if_pos (by simpa [first] using others)]
        rfl
      · rw [if_pos first, if_neg others, if_neg (by simpa [first] using others)]
        rfl
    · have refused : ¬ ∀ item' ∈ item :: items, accepts item' :=
        fun all => first (all item List.mem_cons_self)
      rw [if_neg first, if_neg refused]
      rfl

/-- Gathering what the parts give, in reverse, is judging the parts in order. -/
theorem foldlM_gather {γ : Type} (judge : α → Except Fault γ) (parts : List α)
    (gathered : List γ) :
    parts.foldlM (fun gathered part => (judge part).map (· :: gathered)) gathered =
      (parts.mapM judge).map (fun found => found.reverse ++ gathered) := by
  induction parts generalizing gathered with
  | nil => rfl
  | cons part parts ih =>
    rw [List.foldlM_cons, List.mapM_cons]
    cases judge part with
    | error fault => rfl
    | ok found =>
      refine (ih (found :: gathered)).trans ?_
      cases parts.mapM judge with
      | error fault => rfl
      | ok others => simp [Except.map, bind, Except.bind, pure, Except.pure]

/-! ## Records -/

namespace Record

@[simp] theorem size_seq (f : Record (α → β)) (x : Record α) : (f <*> x).size = f.size + x.size :=
  rfl

@[simp] theorem size_map (f : α → β) (x : Record α) : (f <$> x).size = x.size :=
  Nat.zero_add x.size

@[simp] theorem decode_seq (f : Record (α → β)) (x : Record α) (expected : String) (first : Nat)
    (fields : Fields) :
    (f <*> x).decode expected first fields =
      Placed.apply (f.decode expected first fields) (x.decode expected (first + f.size) fields) :=
  rfl

@[simp] theorem decode_map (f : α → β) (x : Record α) (expected : String) (first : Nat)
    (fields : Fields) :
    (f <$> x).decode expected first fields =
      Placed.apply (.ok f) (x.decode expected first fields) :=
  rfl

@[simp] theorem apply_ok_ok (f : α → β) (x : α) : Placed.apply (.ok f) (.ok x) = .ok (f x) := rfl

@[simp] theorem apply_ok_error (f : α → β) (e : Nat × Fault) :
    Placed.apply (.ok f) (.error e : Placed α) = .error e := rfl

@[simp] theorem apply_error_ok (e : Nat × Fault) (x : α) :
    Placed.apply (.error e : Placed (α → β)) (.ok x) = .error e := rfl

@[simp] theorem placed_ok (place : Nat) (value : α) : placed place (.ok value) = .ok value := rfl

@[simp] theorem placed_error (place : Nat) (fault : Fault) :
    placed place (.error fault : Except Fault α) = .error (place, fault) := rfl

@[simp] theorem size_required (name : String) (decode : Decoder α) :
    (required name decode).size = 1 := rfl

@[simp] theorem size_optional (name : String) (decode : Decoder α) (default : α) :
    (optional name decode default).size = 1 := rfl

@[simp] theorem size_nullable (name : String) (decode : Decoder α) :
    (nullable name decode).size = 1 := rfl

/-- What a field gives where its name occurs as listed; `otherwise` is for a name that does not. -/
def fieldAt (name : String) (decode : Decoder α) (otherwise : Placed α) :
    List (Nat × Json) → Placed α
  | [] => otherwise
  | (place, value) :: others =>
    match placed place (decode value), others with
    | .ok value, [] => .ok value
    | .ok _, (second, _) :: _ => .error (second, .duplicateField name)
    | .error e, _ => .error e

@[simp] theorem fieldAt_nil (name : String) (decode : Decoder α) (otherwise : Placed α) :
    fieldAt name decode otherwise [] = otherwise := rfl

@[simp] theorem fieldAt_one (name : String) (decode : Decoder α) (otherwise : Placed α)
    (place : Nat) (value : Json) :
    fieldAt name decode otherwise [(place, value)] = placed place (decode value) := by
  simp only [fieldAt]
  cases placed place (decode value) <;> rfl

@[simp] theorem decode_required (name : String) (decode : Decoder α) (expected : String)
    (first : Nat) (entries : List (String × Json)) :
    (required name decode).decode expected first (.named entries) =
      fieldAt name decode (.error (entries.length + first, .missingField name))
        (occurrences name entries) := by
  simp only [required, field]
  cases occurrences name entries <;> rfl

@[simp] theorem decode_optional (name : String) (decode : Decoder α) (default : α)
    (expected : String) (first : Nat) (entries : List (String × Json)) :
    (optional name decode default).decode expected first (.named entries) =
      fieldAt name decode (.ok default) (occurrences name entries) := by
  simp only [optional, field]
  cases occurrences name entries <;> rfl

@[simp] theorem decode_nullable (name : String) (decode : Decoder α) (expected : String)
    (first : Nat) (entries : List (String × Json)) :
    (nullable name decode).decode expected first (.named entries) =
      fieldAt name decode.nullable (.ok none) (occurrences name entries) :=
  decode_optional name decode.nullable none expected first entries

@[simp] theorem mapError_ok (f : Nat × Fault → Fault) (value : α) :
    Except.mapError f (.ok value) = .ok value := rfl

@[simp] theorem mapError_error (f : Nat × Fault → Fault) (e : Nat × Fault) :
    Except.mapError f (.error e : Placed α) = .error (f e) := rfl

theorem node_named (what : String) (r : Record α) (entries : List (String × Json)) :
    r.node what (.named entries) =
      (r.decode (what ++ " with " ++ elements r.size) 0 (.named entries)).mapError Prod.snd := by
  rw [node]
  cases r.decode (what ++ " with " ++ elements r.size) 0 (.named entries) <;> rfl

end Record

/-! ## Tagged nodes -/

/-- No entry has the key of the tag. -/
def Untagged (entries : List (String × Json)) : Prop :=
  ∀ entry ∈ entries, entry.1 ≠ tagKey

theorem filter_tag_of_untagged {entries : List (String × Json)} (untagged : Untagged entries) :
    entries.filter (·.1 == tagKey) = [] := by
  rw [List.filter_eq_nil_iff]
  intro entry member
  simpa using untagged entry member

theorem filter_fields_of_untagged {entries : List (String × Json)} (untagged : Untagged entries) :
    entries.filter (·.1 != tagKey) = entries := by
  rw [List.filter_eq_self]
  intro entry member
  simpa using untagged entry member

/-- An object that begins with its only tag is a node of the variant that the tag names. -/
theorem tagged_cons (name : String) (variants : List (Variant α)) (tag : String)
    {entries : List (String × Json)} (untagged : Untagged entries) :
    tagged name variants (.object ((tagKey, .string tag) :: entries)) =
      (variantNamed variants tag).bind fun variant =>
        variant.record.node variant.what (.named entries) := by
  have tags : ((tagKey, Json.string tag) :: entries).filter (·.1 == tagKey) =
      [(tagKey, .string tag)] := by
    rw [List.filter_cons_of_pos (by simp), filter_tag_of_untagged untagged]
  have fields : ((tagKey, Json.string tag) :: entries).filter (·.1 != tagKey) = entries := by
    rw [List.filter_cons_of_neg (by simp), filter_fields_of_untagged untagged]
  simp only [tagged, tags, fields]
  rfl

/-- An object with a second tag is refused, once the first one names a variant. -/
theorem tagged_twice (name : String) (variants : List (Variant α)) (tag : String) (second : Json)
    (entries : List (String × Json)) :
    tagged name variants (.object ((tagKey, .string tag) :: (tagKey, second) :: entries)) =
      (variantNamed variants tag).bind fun _ => .error (.duplicateField tagKey) := by
  have tags : ((tagKey, Json.string tag) :: (tagKey, second) :: entries).filter (·.1 == tagKey) =
      (tagKey, .string tag) :: (tagKey, second) :: entries.filter (·.1 == tagKey) := by
    rw [List.filter_cons_of_pos (by simp), List.filter_cons_of_pos (by simp)]
  simp only [tagged, tags]
  rfl

namespace Reader

/-! ### From text -/

theorem tag_quote (variants : List (Variant α)) (tag : String) (rest : List Char) :
    Reader.tag variants ((quote tag).toList ++ rest) = (variantNamed variants tag).map (·, rest) := by
  have read := scalar_string tag rest
  obtain ⟨body, text⟩ := quote_cons tag
  rw [text, List.cons_append] at read ⊢
  rw [Reader.tag, bind_ok (r := peek) rfl]
  exact bind_ok read _

/-- What the next entry makes of what has been read of a node. -/
def progress (variants : List (Variant α)) (levels : Nat) (p : Progress α (String × Json))
    (entry : String × Json) : Except Fault (Progress α (String × Json)) :=
  if entry.1 = tagKey then
    if p.variant.isSome then .error (.duplicateField tagKey)
    else (variantTag variants entry.2).map fun variant => { p with variant := some variant }
  else (within levels entry.2).map fun item => { p with fields := (entry.1, item) :: p.fields }

/-- A tag is a string wherever it stands among the entries. -/
def StringTags (entries : List (String × Json)) : Prop :=
  ∀ entry ∈ entries, entry.1 = tagKey → ∃ tag, entry.2 = .string tag

theorem stringTags_of_untagged {entries : List (String × Json)} (untagged : Untagged entries) :
    StringTags entries :=
  fun entry member isTag => absurd isTag (untagged entry member)

theorem StringTags.cons {entries : List (String × Json)} (tags : StringTags entries)
    (tag : String) : StringTags ((tagKey, .string tag) :: entries) := by
  intro entry member isTag
  rcases List.mem_cons.mp member with rfl | member
  · exact ⟨tag, rfl⟩
  · exact tags entry member isTag

theorem taggedEntry_write (variants : List (Variant α)) (levels level : Nat)
    (p : Progress α (String × Json)) {entry : String × Json} (plain : entry.2.NumberFree)
    (text : entry.1 = tagKey → ∃ tag, entry.2 = .string tag) (rest : List Char) :
    taggedEntry variants levels p entry.1 (':' :: ' ' :: ((write level entry.2).toList ++ rest)) =
      (progress variants levels p entry).map (·, rest) := by
  obtain ⟨key, value⟩ := entry
  by_cases isTag : key = tagKey
  · obtain ⟨tag, rfl⟩ := text isTag
    simp only [taggedEntry, progress, isTag, beq_self_eq_true, if_true]
    cases p.variant with
    | some variant => rfl
    | none =>
      have read := (afterColon_value (Reader.tag variants)
        (show NumberFree (.string tag) from trivial) level rest).trans (tag_quote variants tag rest)
      refine (bind_outcome read _).trans ?_
      simp only [variantTag]
      cases variantNamed variants tag <;> rfl
  · have notTag : (key == tagKey) = false := by simpa using isTag
    have read := (afterColon_value (Reader.value levels) plain level rest).trans
      (value_write plain levels level rest)
    simp only [taggedEntry, progress, notTag, isTag, if_false, Bool.false_eq_true]
    refine (bind_outcome read _).trans ?_
    cases within levels value <;> rfl

/-- Entries without a tag are gathered while they nest no deeper than the limit. -/
theorem foldlM_progress_untagged (variants : List (Variant α)) (levels : Nat)
    {entries : List (String × Json)} (untagged : Untagged entries)
    (p : Progress α (String × Json)) :
    entries.foldlM (progress variants levels) p =
      if depthEntries entries ≤ levels then
        .ok { p with fields := entries.reverse ++ p.fields }
      else .error .malformed := by
  induction entries generalizing p with
  | nil => rfl
  | cons entry entries ih =>
    obtain ⟨key, value⟩ := entry
    have notTag : key ≠ tagKey := untagged (key, value) List.mem_cons_self
    rw [List.foldlM_cons, progress, if_neg notTag, within]
    by_cases fits : value.depth ≤ levels
    · simp only [depthEntries, Nat.max_le, fits, true_and, if_true]
      refine (ih (fun entry member => untagged entry (List.mem_cons_of_mem _ member)) _).trans ?_
      simp
    · simp only [depthEntries, Nat.max_le, fits, false_and, if_false]
      rfl

/-- The text of an object is read entry by entry before its fields are decoded. -/
theorem tagged_object_write (name : String) (variants : List (Variant α)) (levels level : Nat)
    {entries : List (String × Json)} (plain : NumberFreeEntries entries)
    (tags : StringTags entries) (rest : List Char) :
    Reader.tagged name variants levels ((write level (.object entries)).toList ++ rest) =
      (entries.foldlM (progress variants levels) {}).bind fun p => finish p .named rest := by
  have read := object_write (taggedEntry variants levels) (progress variants levels) level entries
    (fun state entry member rest => taggedEntry_write variants levels (level + 1) state
      (numberFreeEntries_iff.mp plain entry member) (tags entry member) rest) {} rest
  obtain ⟨body, text⟩ := write_object_cons level entries
  rw [text, List.cons_append] at read ⊢
  rw [Reader.tagged, bind_ok (r := peek) rfl]
  exact bind_outcome read _

theorem progress_tag (variants : List (Variant α)) (levels : Nat) (tag : String) :
    progress variants levels {} (tagKey, .string tag) =
      (variantNamed variants tag).map fun variant => { variant := some variant } := by
  simp [progress, variantTag]

/-- The text of an object that begins with its only tag is a node of the variant that the tag names,
    where it may nest so deep. -/
theorem tagged_write (name : String) (variants : List (Variant α)) (tag : String)
    (levels level : Nat) {entries : List (String × Json)} (plain : NumberFreeEntries entries)
    (untagged : Untagged entries) (rest : List Char) :
    Reader.tagged name variants levels
        ((write level (.object ((tagKey, .string tag) :: entries))).toList ++ rest) =
      ((variantNamed variants tag).bind fun variant =>
        if depthEntries entries ≤ levels then variant.record.node variant.what (.named entries)
        else .error .malformed).map (·, rest) := by
  have tags := (stringTags_of_untagged untagged).cons tag
  have plainAll : NumberFreeEntries ((tagKey, .string tag) :: entries) := ⟨trivial, plain⟩
  rw [tagged_object_write name variants levels level plainAll tags, List.foldlM_cons, progress_tag]
  cases variantNamed variants tag with
  | error fault => rfl
  | ok variant =>
    have others := foldlM_progress_untagged variants levels untagged { variant := some variant }
    simp only [Except.map, bind, Except.bind, others, List.append_nil]
    split_ifs
    · simp only [finish, List.reverse_reverse]
      rfl
    · rfl

/-- In a text that begins with two tags the second one is refused, whatever comes after it. -/
theorem tagged_write_twice (name : String) (variants : List (Variant α)) (tag second : String)
    (levels level : Nat) {entries : List (String × Json)} (plain : NumberFreeEntries entries)
    (untagged : Untagged entries) (rest : List Char) :
    Reader.tagged name variants levels ((write level (.object
        ((tagKey, .string tag) :: (tagKey, .string second) :: entries))).toList ++ rest) =
      (variantNamed variants tag).bind fun _ => .error (.duplicateField tagKey) := by
  have tags := ((stringTags_of_untagged untagged).cons second).cons tag
  have plainAll : NumberFreeEntries ((tagKey, .string tag) :: (tagKey, .string second) :: entries) :=
    ⟨trivial, trivial, plain⟩
  rw [tagged_object_write name variants levels level plainAll tags, List.foldlM_cons, progress_tag]
  cases variantNamed variants tag <;> rfl

/-! ### Lists from text -/

theorem list_bracket (item : Reader α) (body : List Char) :
    Reader.list item ('[' :: body) =
      (array (fun found => return (← item) :: found) [] ('[' :: body)).map
        fun found => (found.1.reverse, found.2) := by
  rw [Reader.list, bind_ok (blanks_solid (by decide) body), bind_ok (r := peek) rfl]
  exact bind_apply _ _ _

/-- The text of an array is read by reading its items, one after the other. -/
theorem list_write {item : Reader β} {encode : α → Json} {judge : α → Except Fault β} (level : Nat)
    {items : List α} (plain : NumberFreeItems (items.map encode))
    (reads : ∀ x rest, item ((write (level + 1) (encode x)).toList ++ rest) =
      (judge x).map (·, rest)) (rest : List Char) :
    Reader.list item ((write level (.array (items.map encode))).toList ++ rest) =
      (items.mapM judge).map (·, rest) := by
  -- `array_write` wants the outcome of an item as a function of its JSON value.
  let outcome (json : Json) : Except Fault β := (item (write (level + 1) json).toList).map Prod.fst
  have judged : ∀ x, outcome (encode x) = judge x := by
    intro x
    have alone := reads x []
    rw [List.append_nil] at alone
    simp only [outcome, alone]
    cases judge x <;> rfl
  have read := array_write (fun found => return (← item) :: found)
    (fun found json => (outcome json).map (· :: found)) level plain
    (by
      intro found json member rest
      obtain ⟨x, -, rfl⟩ := List.mem_map.mp member
      rw [bind_apply, reads, judged]
      cases judge x <;> rfl) [] rest
  simp only [List.foldlM_map, judged, foldlM_gather, List.append_nil] at read
  obtain ⟨body, text⟩ := write_array_cons level (items.map encode)
  rw [text, List.cons_append] at read ⊢
  rw [list_bracket, read]
  cases items.mapM judge <;> simp [Except.map]

end Reader

end IdlTypings.Json
