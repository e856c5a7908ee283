import Mathlib
import IdlTypings.Proofs.StatementLayouts

/-! # Parents from statements of implementation

In a document for Emscripten's binder that has every interface and every statement on lines of its own,
no layout gets in the way.  It is read as its interfaces, each with the parent that a statement gives
it, wherever the statements stand: `readDocument_document`.

`give_settled` is the step.  The document with the parents that have been given so far becomes the
document with one more, because the interfaces have different names.
-/

namespace IdlTypings.Dialect.Emscripten

open IdlTypings.Text

/-! ## Documents of lines -/

/-- A part of a document of lines. -/
inductive Item where
  | block (block : Block)
  | statement (statement : Statement)

def Item.text : Item → String
  | .block b => b.write none
  | .statement s => s.text

/-- The text of a document: every item on lines of its own. -/
def documentText (items : List Item) : List Char :=
  items.flatMap fun item => (item.text ++ "\n").toList

def blocks (items : List Item) : List Block :=
  items.filterMap fun
    | .block b => some b
    | .statement _ => none

def statements (items : List Item) : List Statement :=
  items.filterMap fun
    | .block _ => none
    | .statement s => some s

/-- The parent that some statements give to an interface. -/
def parentFrom (given : List Statement) (name : Name) : Option Name :=
  (given.find? (·.child.text == name.text)).map Statement.parent

/-- An interface with the parent that some statements give to it. -/
def Block.inheriting (given : List Statement) (block : Block) : Idl.Definition :=
  .interface { block.meaning with parent := (parentFrom given block.name).map Name.text }

/-- A document that ends in an interface, whose interfaces have different names and whose statements
    are about different interfaces. -/
structure WellFormed (items : List Item) : Prop where
  ends : ∃ before last, items = before ++ [.block last]
  distinct : ((blocks items).map (·.name.text)).Nodup
  once : ((statements items).map (·.child.text)).Nodup

/-- The parts of an item when some statements have given their parents. -/
def Item.settled (given : List Statement) : Item → List Part
  | .block b => [.interface b (parentFrom given b.name), .gap newLine]
  | .statement s => [.statement s, .gap newLine]

/-- The parts of a document when some statements have given their parents. -/
def settled (given : List Statement) (items : List Item) : List Part :=
  items.flatMap (Item.settled given)

theorem documentText_eq (items : List Item) : documentText items = write "" (settled [] items) := by
  rw [documentText, write, settled, List.flatMap_assoc]
  refine List.flatMap_congr fun item _ => ?_
  cases item <;> simp [Item.text, Item.settled, Part.write, parentFrom, newLine]

/-! ## Giving the parents -/

theorem parentFrom_append (given : List Statement) (statement : Statement) (name : Name) :
    parentFrom (given ++ [statement]) name =
      (parentFrom given name).or
        (if statement.child.text = name.text then some statement.parent else none) := by
  rw [parentFrom, parentFrom, List.find?_append, Option.map_or]
  congr 1
  by_cases same : statement.child.text = name.text <;> simp [same]

/-- A statement makes no difference to interfaces with other names. -/
theorem settled_append_of_other {given : List Statement} {statement : Statement} {items : List Item}
    (other : statement.child.text ∉ (blocks items).map (·.name.text)) :
    settled (given ++ [statement]) items = settled given items := by
  refine List.flatMap_congr fun item member => ?_
  cases item with
  | block b =>
    have different : statement.child.text ≠ b.name.text := by
      intro same
      have isBlock : b ∈ blocks items := List.mem_filterMap.mpr ⟨.block b, member, rfl⟩
      exact other (List.mem_map.mpr ⟨b, isBlock, same.symm⟩)
    rw [Item.settled, Item.settled, parentFrom_append, if_neg different, Option.or_none]
  | statement s => rfl

/-- One statement gives its parent to its child, and changes nothing else. -/
theorem give_settled {given : List Statement} {items : List Item} {statement : Statement}
    (distinct : ((blocks items).map (·.name.text)).Nodup) :
    give (settled given items) statement = settled (given ++ [statement]) items := by
  induction items with
  | nil => rfl
  | cons item items ih =>
    cases item with
    | block b =>
      have split (given : List Statement) : settled given (.block b :: items) =
          .interface b (parentFrom given b.name) :: .gap newLine :: settled given items := rfl
      have names : (blocks (.block b :: items)).map (·.name.text) =
          b.name.text :: (blocks items).map (·.name.text) := rfl
      rw [names, List.nodup_cons] at distinct
      rw [split, split, parentFrom_append, give]
      -- The interface waits for the statement if it has no parent yet and the right name.
      cases parent : parentFrom given b.name with
      | some p => simp [Part.awaits, give, ih distinct.2]
      | none =>
        by_cases same : statement.child.text = b.name.text
        · rw [settled_append_of_other (same ▸ distinct.1)]
          simp [Part.awaits, Part.inherit, same]
        · simp [Part.awaits, give, same, Ne.symm same, ih distinct.2]
    | statement s =>
      have split (given : List Statement) : settled given (.statement s :: items) =
          .statement s :: .gap newLine :: settled given items := rfl
      rw [split, split, ← ih distinct]
      rfl

/-- All statements together give all parents. -/
theorem inherited_settled {items : List Item} (distinct : ((blocks items).map (·.name.text)).Nodup) :
    inherited (settled [] items) = settled (statements items) items := by
  have found : (settled [] items).filterMap Part.statement? = statements items := by
    clear distinct
    induction items with
    | nil => rfl
    | cons item items ih =>
      rw [settled, List.flatMap_cons, ← settled, List.filterMap_append, ih]
      cases item <;> rfl
  -- The statements are followed one by one, so the induction is over what was given before.
  have all (given more : List Statement) :
      more.foldl give (settled given items) = settled (given ++ more) items := by
    induction more generalizing given with
    | nil => rw [List.append_nil]; rfl
    | cons statement more ih =>
      rw [List.foldl_cons, give_settled distinct, ih, List.append_assoc, List.singleton_append]
  rw [inherited, found, all, List.nil_append]

/-! ## Reading -/

/-- Every item ends its line, so no comment is open behind it. -/
theorem Item.settled_lines (given : List Statement) (item : Item) :
    tidy false (item.settled given) = true ∧
      (item.settled given).foldl Part.comments false = false := by
  have closes : (Part.gap newLine).isLine = false := by decide
  cases item <;> simp [Item.settled, tidy, Part.comments, Part.isGap, closes]

theorem settled_lines (given : List Statement) (items : List Item) :
    tidy false (settled given items) = true ∧
      (settled given items).foldl Part.comments false = false ∧
      (kept false (settled given items)).filterMap Part.definition? =
        (blocks items).map (Block.inheriting given) := by
  induction items with
  | nil => exact ⟨rfl, rfl, rfl⟩
  | cons item items ih =>
    obtain ⟨lined, closed, definitions⟩ := ih
    obtain ⟨linedItem, closedItem⟩ := item.settled_lines given
    have split : settled given (item :: items) = item.settled given ++ settled given items :=
      List.flatMap_cons
    rw [split]
    refine ⟨by rw [tidy_append, linedItem, closedItem, lined, Bool.and_self],
      by rw [List.foldl_append, closedItem, closed], ?_⟩
    rw [kept_append, closedItem, List.filterMap_append, definitions]
    cases item <;> rfl

theorem endsInComment_settled {given : List Statement} {items : List Item}
    (ends : ∃ before last, items = before ++ [.block last]) :
    endsInComment (settled given items) = false := by
  obtain ⟨before, last, rfl⟩ := ends
  have split : settled given (before ++ [.block last]) = settled given before ++
      .interface last (parentFrom given last.name) :: [.gap newLine] := by
    rw [settled, List.flatMap_append, ← settled]
    rfl
  rw [split, endsInComment_eq rfl (by simp [Part.isGap]), (settled_lines given before).2.1]
  rfl

theorem readDocument_wellFormed (options : Options) {items : List Item}
    (wellFormed : WellFormed items) :
    readDocument { options with emscripten := true, gecko := false } (documentText items) =
      .ok ((blocks items).map (Block.inheriting (statements items))) := by
  rw [documentText_eq, (readDocument_parts options (settled_lines [] items).1).1
    (endsInComment_settled wellFormed.ends), inherited_settled wellFormed.distinct,
    (settled_lines _ items).2.2]

/-! ## The order of the statements -/

/-- A parent is given by a statement, and there is only one about each interface. -/
theorem parentFrom_eq_some_iff {given : List Statement} (once : (given.map (·.child.text)).Nodup)
    {name parent : Name} :
    parentFrom given name = some parent ↔
      ∃ statement ∈ given, statement.child.text = name.text ∧ statement.parent = parent := by
  rw [parentFrom, Option.map_eq_some_iff]
  constructor
  · rintro ⟨statement, found, same⟩
    exact ⟨statement, List.mem_of_find?_eq_some found, by simpa using List.find?_some found, same⟩
  · rintro ⟨statement, member, sameChild, same⟩
    cases found : given.find? (·.child.text == name.text) with
    | none =>
      have absent := List.find?_eq_none.mp found statement member
      simp [sameChild] at absent
    | some other =>
      have sameName : other.child.text = name.text := by simpa using List.find?_some found
      obtain rfl := List.inj_on_of_nodup_map once (List.mem_of_find?_eq_some found) member
        (sameName.trans sameChild.symm)
      exact ⟨other, rfl, same⟩

theorem parentFrom_perm {given others : List Statement}
    (once : (given.map (·.child.text)).Nodup) (perm : others.Perm given) (name : Name) :
    parentFrom others name = parentFrom given name := by
  have once' : (others.map (·.child.text)).Nodup := (perm.map _).nodup_iff.mpr once
  refine Option.ext fun parent => ?_
  rw [parentFrom_eq_some_iff once, parentFrom_eq_some_iff once']
  simp only [perm.mem_iff]

theorem WellFormed.rearranged {items others : List Item} (wellFormed : WellFormed items)
    (ends : ∃ before last, others = before ++ [.block last]) (same : blocks others = blocks items)
    (perm : (statements others).Perm (statements items)) : WellFormed others where
  ends := ends
  distinct := same ▸ wellFormed.distinct
  once := (perm.map _).nodup_iff.mpr wellFormed.once

/-- A document is read as its interfaces, each with the parent that a statement gives it.  So neither
    the places nor the order of the statements make a difference. -/
theorem readDocument_document (options : Options) {items : List Item}
    (wellFormed : WellFormed items) :
    readDocument { options with emscripten := true, gecko := false } (documentText items) =
        .ok ((blocks items).map (Block.inheriting (statements items))) ∧
      ∀ others, (∃ before last, others = before ++ [.block last]) → blocks others = blocks items →
        (statements others).Perm (statements items) →
        readDocument { options with emscripten := true, gecko := false } (documentText others) =
          readDocument { options with emscripten := true, gecko := false } (documentText items) := by
  refine ⟨readDocument_wellFormed options wellFormed, fun others ends same perm => ?_⟩
  rw [readDocument_wellFormed options wellFormed,
    readDocument_wellFormed options (wellFormed.rearranged ends same perm), same]
  congr 2
  funext block
  rw [Block.inheriting, Block.inheriting, parentFrom_perm wellFormed.once perm]

/-- A statement before the two interfaces that it is about. -/
def boxDocument : List Item :=
  [.statement ⟨box.name, shape.name⟩, .block box, .block shape]

theorem wellFormed_boxDocument : WellFormed boxDocument where
  ends := ⟨[.statement ⟨box.name, shape.name⟩, .block box], shape, rfl⟩
  distinct := show ["Box", "Shape"].Nodup by decide
  once := show ["Box"].Nodup by decide

theorem readDocument_document_box :
    WellFormed boxDocument ∧
      readDocument { emscripten := true } (documentText boxDocument) =
        .ok [.interface ⟨"Box", some "Shape", [], []⟩,
          .interface ⟨"Shape", none, [.attribute "sides" (.named "long") false], []⟩] ∧
      readDocument { emscripten := true }
          (documentText [.block box, .statement ⟨box.name, shape.name⟩, .block shape]) =
        readDocument { emscripten := true } (documentText boxDocument) :=
  ⟨wellFormed_boxDocument, (readDocument_document {} wellFormed_boxDocument).1,
    (readDocument_document {} wellFormed_boxDocument).2 _
      ⟨[.block box, .statement ⟨box.name, shape.name⟩], shape, rfl⟩ rfl (List.Perm.refl _)⟩

end IdlTypings.Dialect.Emscripten
