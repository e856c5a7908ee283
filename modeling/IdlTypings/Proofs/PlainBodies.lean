import Mathlib
import IdlTypings.Proofs.DeclarationLines

/-! # Definitions with plain bodies

A body without brackets, strings, comments and number signs cannot hide what follows it: no edit runs
past its end, so each line stays a line of its own.

`Spelled` is a line with any body of such characters, and `SpelledLines` a text of such lines.  An
edit that keeps lines and stays inside a body (`StaysInside`) takes one text of lines to another,
`SpelledLines.edit`, and the edits of the component dialect all do: `spelledLines_edited`.
-/

namespace IdlTypings.Dialect.Gecko

open IdlTypings.Parser IdlTypings.Text

/-! ## Lines of a kind -/

/-- A text of a line.  Its body may be any text of characters of a kind. -/
inductive Spelled (kind : Char → Bool) (spell : Name → List Char) : Line → List Char → Prop where
  | blank : Spelled kind spell .blank []
  | forward (name : Name) : Spelled kind spell (.forward name) (spell name)
  | definition {name parent : Name} {body : Body} {inner : List Char}
      (all : ∀ c ∈ inner, kind c = true) :
      Spelled kind spell (.definition name parent body)
        (openingText name parent ++ (inner ++ "\x7d;".toList))

/-- A text of some lines, one after the other. -/
inductive SpelledLines (kind : Char → Bool) (spell : Name → List Char) :
    List Line → List Char → Prop where
  | nil : SpelledLines kind spell [] []
  | last {line : Line} {s : List Char} (spelled : Spelled kind spell line s) :
      SpelledLines kind spell [line] s
  | more {line : Line} {lines : List Line} {s t : List Char} (spelled : Spelled kind spell line s)
      (rest : SpelledLines kind spell lines t) :
      SpelledLines kind spell (line :: lines) (s ++ '\n' :: t)

/-- An edit, from any place on, that stays inside a body. -/
def StaysInside (kind : Char → Bool) (edits : List Char → List Char → Prop) : Prop :=
  ∀ {u s t}, (∀ c ∈ u, kind c = true) → edits (u ++ '\x7d' :: s) t →
    ∃ u' t', t = u' ++ '\x7d' :: t' ∧ (∀ c ∈ u', kind c = true) ∧ edits s t'

section

variable {kind kind' : Char → Bool} {edits : List Char → List Char → Prop}
  {spell spell' : Name → List Char} {line : Line} {lines : List Line} {s t : List Char}

theorem Spelled.mono (wider : ∀ c, kind c = true → kind' c = true)
    (spelled : Spelled kind spell line s) : Spelled kind' spell line s := by
  cases spelled with
  | blank => exact .blank
  | forward name => exact .forward name
  | definition all => exact .definition fun c member => wider c (all c member)

theorem SpelledLines.mono (wider : ∀ c, kind c = true → kind' c = true)
    (spelled : SpelledLines kind spell lines s) : SpelledLines kind' spell lines s := by
  induction spelled with
  | nil => exact .nil
  | last spelled => exact .last (spelled.mono wider)
  | more spelled _ ih => exact .more (spelled.mono wider) ih

theorem Spelled.edit (keeps : KeepsLines edits spell spell') (inside : StaysInside kind edits)
    (spelled : Spelled kind spell line s) {rest : List Char} (made : edits (s ++ rest) t) :
    ∃ s' t', t = s' ++ t' ∧ Spelled kind spell' line s' ∧ edits rest t' := by
  cases spelled with
  | blank => exact ⟨[], t, rfl, .blank, made⟩
  | forward name =>
    obtain ⟨t', rfl, made'⟩ := keeps.forward name made
    exact ⟨spell' name, t', rfl, .forward name, made'⟩
  | @definition name parent body inner all =>
    rw [List.append_assoc, List.append_assoc] at made
    obtain ⟨_, rfl, madeInner⟩ := keeps.opening name parent made
    obtain ⟨inner', _, rfl, all', madeEnd⟩ := inside all madeInner
    obtain ⟨t', rfl, madeRest⟩ := keeps.semicolon madeEnd
    exact ⟨openingText name parent ++ (inner' ++ "\x7d;".toList), t', by simp, .definition all',
      madeRest⟩

theorem SpelledLines.edit (keeps : KeepsLines edits spell spell') (inside : StaysInside kind edits)
    (spelled : SpelledLines kind spell lines s) (made : edits s t) :
    SpelledLines kind spell' lines t := by
  induction spelled generalizing t with
  | nil =>
    rw [keeps.nil made]
    exact .nil
  | @last line s spelled =>
    have whole : edits (s ++ []) t := by rwa [List.append_nil]
    obtain ⟨s', t', rfl, spelled', madeNil⟩ := spelled.edit keeps inside whole
    rw [keeps.nil madeNil, List.append_nil]
    exact .last spelled'
  | more spelled _ ih =>
    obtain ⟨s', _, rfl, spelled', madeLines⟩ := spelled.edit keeps inside made
    obtain ⟨t', rfl, madeRest⟩ := keeps.newLine madeLines
    exact .more spelled' (ih madeRest)

end

/-! ## Plain bodies -/

/-- A character of a body that neither opens nor closes anything and begins no preprocessor line. -/
def isQuiet (c : Char) : Bool :=
  isInner c && c != '#'

/-- A line whose body, if it has one, has no brackets, strings, comments and number signs in it. -/
def Line.isPlain : Line → Bool
  | .blank | .forward _ => true
  | .definition _ _ body => body.text.all isQuiet

theorem spelledLines_documentText {lines : List Line}
    (plain : ∀ line ∈ lines, line.isPlain = true) :
    SpelledLines isQuiet forwardText lines (documentText lines) := by
  have spelled {line : Line} (plain : line.isPlain = true) :
      Spelled isQuiet forwardText line line.text := by
    cases line with
    | blank => exact .blank
    | forward name => exact .forward name
    | definition name parent body =>
      rw [Line.text, List.append_assoc]
      exact .definition (List.all_eq_true.mp plain)
  induction lines using documentText.induct with
  | case1 => exact .nil
  | case2 line => exact .last (spelled (plain line (by simp)))
  | case3 line others nonempty ih =>
    rw [List.forall_mem_cons] at plain
    rw [documentText]
    · exact .more (spelled plain.1) (ih plain.2)
    · exact nonempty

section

variable {find : Option Char → Parser (List Char)}

theorem staysInside_of_turns {kind : Char → Bool}
    (turns : ∀ u, (∀ c ∈ u, kind c = true) → Turns find (u ++ ['\x7d']) (u ++ ['\x7d'])) :
    StaysInside kind (Becomes find) := by
  rintro u s _ all ⟨before, rfl⟩
  have split : u ++ '\x7d' :: s = (u ++ ['\x7d']) ++ s := by simp
  refine ⟨u, editFrom find ((u ++ ['\x7d']).getLast?.or before) s, ?_, all, _, rfl⟩
  rw [split, (turns u all).editFrom]
  simp

theorem Tame.staysInside (tame : Tame find) : StaysInside isInner (Becomes find) := by
  rintro u s _ all ⟨before, rfl⟩
  obtain ⟨u', all', same⟩ := editFrom_inside (fun before _ _ _ => (tame.reads before).split)
    (fun _ _ _ _ => tame.writes) tame.stops (by decide) all before s
  exact ⟨u', _, same, all', _, rfl⟩

end

theorem staysInside_directive : StaysInside isQuiet (Becomes fun _ => directive) := by
  refine staysInside_of_turns fun u all => spares_directive.turns ?_
  rw [List.all_append, Bool.and_eq_true, List.all_eq_true]
  refine ⟨fun c member => ?_, by decide⟩
  have quiet := all c member
  rw [isQuiet, Bool.and_eq_true] at quiet
  rw [bne_comm, quiet.2]

/-- A block of code begins with a bracket. -/
theorem codeBlock_reaches {s x rest : List Char} (found : codeBlock s = some (x, rest)) :
    ∃ u v, s = u ++ '\x7b' :: v ∧ ∀ c ∈ u, (c == '%') = true := by
  simp only [codeBlock, bind_apply, Option.bind_eq_some_iff] at found
  obtain ⟨⟨_, t⟩, mark, -⟩ := found
  rw [eq_append_of_exactly mark]
  exact ⟨['%'], "C++\n".toList ++ t, by simp, by simp⟩

theorem staysInside_codeBlock : StaysInside isQuiet (Becomes fun _ => codeBlock) := by
  refine staysInside_of_turns fun u all => turns_of_stops codeBlock_reaches ?_ ?_
  · have missing : '\x7b' ∉ u := fun member => absurd (all _ member) (by decide)
    simp [missing]
  · simp

theorem SpelledLines.replaceAll {kind : Char → Bool} {spell spell' : Name → List Char}
    {lines : List Line} {s : List Char} {find : Option Char → Parser (List Char)}
    (spelled : SpelledLines kind spell lines s) (keeps : KeepsLines (Becomes find) spell spell')
    (inside : StaysInside kind (Becomes find)) :
    SpelledLines kind spell' lines (replaceAll find s) :=
  spelled.edit keeps inside ⟨none, rfl⟩

/-- Mending keeps plain lines whole, each with another body at most. -/
theorem spelledLines_edited {options : Options} (plainText : options.emscripten = false)
    {lines : List Line} (plain : ∀ line ∈ lines, line.isPlain = true) :
    SpelledLines isInner aliasText lines (edited options (documentText lines)) := by
  -- Number signs matter for the first edit only; the others never write one of the refused signs.
  have dropped := ((spelledLines_documentText plain).replaceAll keepsLines_directive
    staysInside_directive).replaceAll keepsLines_codeBlock staysInside_codeBlock
  have quiet : ∀ c, isQuiet c = true → isInner c = true := fun c quiet => by
    rw [isQuiet, Bool.and_eq_true] at quiet
    exact quiet.1
  have named := (dropped.mono quiet).replaceAll keepsLines_forwardDeclaration
    tame_forwardDeclaration.staysInside
  have directed := (named.replaceAll keepsLines_uuidAttribute
    tame_uuidAttribute.staysInside).replaceAll keepsLines_direction tame_direction.staysInside
  have bare := ((directed.replaceAll keepsLines_optionalAttribute
    tame_optionalAttribute.staysInside).replaceAll keepsLines_leadingAttributes
      tame_leadingAttributes.staysInside).replaceAll keepsLines_bareAttribute
        tame_bareAttribute.staysInside
  rw [edited, plainText]
  exact bare.replaceAll keepsLines_array tame_array.staysInside

end IdlTypings.Dialect.Gecko
