import Mathlib
import IdlTypings.Proofs.RunFrame

/-! # Declaration files beside their input

A run that is given no output path writes beside its input, under the name of the input with the
extension `d.ts`.  Neither the input nor the settings file beside it is touched.

* `nameWithExtension_ne`: an extension that has a point in it never gives a name back, since what
  follows the last point of a name has none.
* `pieces_of_file`: the path of a file ends in a name of its own.  A piece `..` at the end would
  lead to a directory, since every location above one that was reached is a directory, `Rooted`.
* `locate_join` and `locate_outputBeside` say where the settings file and the output are.
* `generate_beside` puts this together with what a run does to a tree.
-/

namespace IdlTypings

/-! ## Pieces of paths -/

namespace Path

theorem splitSlashes_plain {name : Name} (plain : '/' ∉ name) : splitSlashes name = [name] :=
  (splitSlashes_name plain []).2

/-- A directory's pieces, then the name.  A slash at the end of the directory makes no piece of its
    own any more. -/
theorem pieces_join {directory : Path} (nonempty : directory.chars ≠ []) {name : String}
    (plain : '/' ∉ name.toList) :
    (directory.join name).pieces = directory.pieces ++ [name.toList] ∨
      ∃ front, directory.pieces = front ++ [[]] ∧
        (directory.join name).pieces = front ++ [name.toList] := by
  have some_chars : directory.chars.isEmpty = false := by simpa using nonempty
  cases ends : directory.endsInSlash with
  | false =>
    left
    rw [join, some_chars, ends, pieces, pieces]
    change splitSlashes (directory.chars ++ '/' :: name.toList) = _
    rw [splitSlashes_append_slash, splitSlashes_plain plain]
  | true =>
    right
    have last : directory.chars.getLast? = some '/' := by simpa [endsInSlash] using ends
    obtain ⟨front, chars⟩ := List.getLast?_eq_some_iff.1 last
    refine ⟨splitSlashes front, ?_, ?_⟩
    · rw [pieces, chars, splitSlashes_append_slash]
      rfl
    · rw [join, some_chars, ends, pieces]
      change splitSlashes (directory.chars ++ name.toList) = _
      rw [chars, List.append_assoc, List.singleton_append, splitSlashes_append_slash,
        splitSlashes_plain plain]

/-! ## Names with another extension -/

theorem stem?_eq_some {name stem : Name} (found : stem? name = some stem) :
    stem ≠ [] ∧ ∃ tail, name = stem ++ '.' :: tail ∧ '.' ∉ tail := by
  rw [stem?] at found
  split at found
  case h_1 => cases found
  case h_2 nonempty =>
    cases found
    refine ⟨nonempty, (name.reverse.takeWhile (· != '.')).reverse, ?_, ?_⟩
    · cases dropped : name.reverse.dropWhile (· != '.') with
      | nil => simp [dropped] at nonempty
      | cons c front =>
        -- What is left of a name without its characters after the last point ends in that point.
        obtain rfl : c = '.' := by
          have head := List.head?_dropWhile_not (· != '.') name.reverse
          rw [dropped] at head
          simpa using head
        have parts := List.takeWhile_append_dropWhile (p := (· != '.')) (l := name.reverse)
        rw [dropped] at parts
        have forward := congrArg List.reverse parts
        simpa using forward.symm
    · intro point
      simpa using List.mem_takeWhile_imp (List.mem_reverse.1 point)

/-- A name keeps its stem, or all of it where it has none; two points alone are never extended. -/
theorem nameWithExtension_cases (atEnd : Bool) {name : Name} (nonempty : name ≠ [])
    (extension : String) :
    nameWithExtension atEnd name extension = ['.', '.'] ∨
      ∃ stem, stem ≠ [] ∧
        nameWithExtension atEnd name extension = stem ++ '.' :: extension.toList ∧
        (name = stem ∨ ∃ tail, name = stem ++ '.' :: tail ∧ '.' ∉ tail) := by
  rw [nameWithExtension]
  cases found : stem? name with
  | none => exact .inr ⟨name, nonempty, rfl, .inl rfl⟩
  | some stem =>
    obtain ⟨some_stem, tail, parts, plain⟩ := stem?_eq_some found
    by_cases point : atEnd = true ∧ stem = ['.']
    · left
      simp [point]
    · right
      exact ⟨stem, some_stem, by simp [point], .inr ⟨tail, parts, plain⟩⟩

/-- What follows the last point of a name has no point in it, so an extension that has one is new. -/
theorem nameWithExtension_ne (atEnd : Bool) {name : Name} (ordinary : Ordinary name)
    {extension : String} (dotted : '.' ∈ extension.toList) :
    nameWithExtension atEnd name extension ≠ name := by
  rcases nameWithExtension_cases atEnd ordinary.1 extension with
    points | ⟨stem, -, extended, whole | cut⟩
  · rw [points]
    exact ordinary.2.2.symm
  · rw [extended, whole]
    simp
  · obtain ⟨tail, parts, plain⟩ := cut
    rw [extended, parts]
    intro same
    simp only [List.append_cancel_left_eq, List.cons.injEq, true_and] at same
    exact plain (same ▸ dotted)

theorem slash_not_mem_nameWithExtension (atEnd : Bool) {name : Name} (plain : '/' ∉ name)
    (nonempty : name ≠ []) {extension : String} (plain' : '/' ∉ extension.toList) :
    '/' ∉ nameWithExtension atEnd name extension := by
  rcases nameWithExtension_cases atEnd nonempty extension with points | ⟨stem, -, extended, cut⟩
  · rw [points]
    decide
  · have stem_plain : '/' ∉ stem := by
      rcases cut with rfl | ⟨tail, rfl, -⟩
      · exact plain
      · exact fun slash => plain (List.mem_append_left _ slash)
    rw [extended]
    simp [stem_plain, plain']

/-- A path that ends in a name keeps the pieces before it. -/
theorem pieces_withExtension {p : Path} {front : List Name} {name : Name}
    (pieces : p.pieces = front ++ [name]) (ordinary : Ordinary name) {extension : String}
    (plain : '/' ∉ extension.toList) :
    (p.withExtension extension).pieces = front ++ [nameWithExtension true name extension] := by
  have slashes : ∀ piece ∈ front ++ [name], '/' ∉ piece := pieces ▸ slash_not_mem_pieces p.chars
  have reversed : dropIdle p.pieces.reverse = name :: front.reverse := by
    rw [pieces, List.reverse_concat, dropIdle_ordinary ordinary]
  have atEnd : (p.pieces.getLast? == some name) = true := by simp [pieces]
  rw [withExtension, reversed]
  simp only [if_pos ordinary, atEnd, List.reverse_reverse]
  apply splitSlashes_joinSlashes (by simp)
  intro piece among
  rcases List.mem_append.1 among with among | last
  · exact slashes piece (List.mem_append_left _ among)
  · rw [List.mem_singleton.1 last]
    exact slash_not_mem_nameWithExtension true (slashes name (by simp)) ordinary.1 plain

example : ((ofString "a.d.ts").withExtension "d.ts").text = "a.d.d.ts" := by decide

example : ((ofString "a.idl/./").withExtension "d.ts").text = "a.d.ts" := by decide

end Path

/-! ## The path of a file -/

namespace FileTree

variable {tree after : FileTree} {path : Path} {l : Location}

/-- Where a piece leads: it stays, it goes up, or it enters a name. -/
theorem follow_cases {l' : Location} {piece : Path.Name} (follows : tree.follow l piece = .ok l') :
    tree.get? l = some .directory ∧
      (l' = l ∨ l' = l.dropLast ∨ Path.Ordinary piece ∧ l' = l ++ [piece]) := by
  obtain ⟨directory, rfl⟩ := follow_eq_ok_iff.1 follows
  refine ⟨directory, ?_⟩
  by_cases idle : Path.Idle piece
  · exact .inl (enter_idle idle l)
  by_cases up : piece = ['.', '.']
  · rw [up]
    exact .inr (.inl (enter_up l))
  · rw [Path.Idle, not_or] at idle
    have ordinary : Path.Ordinary piece := ⟨idle.1, idle.2, up⟩
    exact .inr (.inr ⟨ordinary, enter_ordinary ordinary l⟩)

/-- Everything above a location is a directory. -/
def Rooted (tree : FileTree) (l : Location) : Prop :=
  ∀ above, above <+: l → above ≠ l → tree.get? above = some .directory

theorem rooted_root (tree : FileTree) : Rooted tree [] := by
  intro above before other
  exact absurd (List.prefix_nil.1 before) other

theorem Rooted.up (rooted : Rooted tree l) : Rooted tree l.dropLast := by
  intro above before other
  apply rooted above (before.trans (List.dropLast_prefix l))
  rintro rfl
  exact other (before.eq_of_length_le (by simp))

theorem Rooted.enter (rooted : Rooted tree l) (directory : tree.get? l = some .directory)
    (name : Path.Name) : Rooted tree (l ++ [name]) := by
  intro above before other
  rcases List.prefix_concat_iff.1 before with same | before
  · exact absurd same other
  · by_cases here : above = l
    · rw [here, directory]
    · exact rooted above before here

theorem Rooted.get?_up (rooted : Rooted tree l) (directory : tree.get? l = some .directory) :
    tree.get? l.dropLast = some .directory := by
  by_cases same : l.dropLast = l
  · rw [same, directory]
  · exact rooted l.dropLast (List.dropLast_prefix l) same

theorem Rooted.follow {l' : Location} {piece : Path.Name} (rooted : Rooted tree l)
    (follows : tree.follow l piece = .ok l') : Rooted tree l' := by
  obtain ⟨directory, rfl | rfl | ⟨-, rfl⟩⟩ := follow_cases follows
  · exact rooted
  · exact rooted.up
  · exact rooted.enter directory piece

theorem Rooted.followAll {l' : Location} {pieces : List Path.Name} (rooted : Rooted tree l)
    (follows : pieces.foldlM tree.follow l = .ok l') : Rooted tree l' := by
  induction pieces generalizing l with
  | nil =>
    cases follows
    exact rooted
  | cons piece pieces ih =>
    rw [List.foldlM_cons] at follows
    obtain ⟨next, step, rest⟩ := bind_eq_ok follows
    exact ih (rooted.follow step) rest

/-- A path to a file passes through directories and ends in a name. -/
theorem pieces_of_file {bytes : ByteArray} (located : tree.locate path = .ok l)
    (file : tree.get? l = some (.file bytes)) :
    ∃ front name directory, path.pieces = front ++ [name] ∧ Path.Ordinary name ∧
      front.head? ≠ some [] ∧ front.foldlM tree.follow [] = .ok directory ∧
      Rooted tree directory ∧ tree.get? directory = some .directory ∧ l = directory ++ [name] := by
  obtain ⟨-, follows⟩ := locate_eq_ok_iff_pieces.1 located
  obtain ⟨front, name, pieces⟩ : ∃ front name, path.pieces = front ++ [name] := by
    rcases List.eq_nil_or_concat path.pieces with empty | ⟨front, name, pieces⟩
    · exact absurd empty (Path.splitSlashes_ne_nil path.chars)
    · exact ⟨front, name, by simpa using pieces⟩
  rw [pieces, List.foldlM_append] at follows
  obtain ⟨directory, before, last⟩ := bind_eq_ok follows
  have step : tree.follow directory name = .ok l := by simpa using last
  have rooted : Rooted tree directory := (rooted_root tree).followAll before
  -- A last piece that stays or goes up leads to a directory, and no file stands there.
  obtain ⟨here, rfl | rfl | ⟨ordinary, rfl⟩⟩ := follow_cases step
  · rw [here] at file
    cases file
  · rw [rooted.get?_up here] at file
    cases file
  · obtain ⟨first, -⟩ := (locate_last pieces ordinary.1).1 located
    exact ⟨front, name, directory, pieces, ordinary, first, before, rooted, here, rfl⟩

/-! ## Files in the directory of another -/

/-- A name in a directory, however the path of the directory ends. -/
theorem locate_join {directory : Path} (nonempty : directory.chars ≠ [])
    (located : tree.locate directory = .ok l) (stands : tree.get? l = some .directory)
    {name : String} (plain : '/' ∉ name.toList) (ordinary : Path.Ordinary name.toList) :
    tree.locate (directory.join name) = .ok (l ++ [name.toList]) := by
  have step : tree.follow l name.toList = .ok (l ++ [name.toList]) := by
    rw [follow_of_directory stands, enter_ordinary ordinary]
  obtain ⟨relative, follows⟩ := locate_eq_ok_iff_pieces.1 located
  rcases Path.pieces_join nonempty plain with pieces | ⟨front, split, pieces⟩
  · exact (locate_last pieces ordinary.1).2 ⟨relative, l, follows, step⟩
  -- The empty piece behind the last slash leads nowhere else.
  · rw [split, List.foldlM_append] at follows
    obtain ⟨middle, before, idle⟩ := bind_eq_ok follows
    have stays : tree.follow middle [] = .ok l := by simpa using idle
    obtain rfl : l = middle := by rw [(follow_eq_ok_iff.1 stays).2, enter_idle (.inl rfl)]
    refine (locate_last pieces ordinary.1).2 ⟨?_, l, before, step⟩
    rw [split] at relative
    cases front with
    | nil => exact absurd rfl relative
    | cons first others => simpa using relative

theorem locate_name {name : String} (plain : '/' ∉ name.toList)
    (ordinary : Path.Ordinary name.toList) :
    tree.locate (Path.join ⟨[]⟩ name) = .ok [name.toList] := by
  have pieces : (Path.join ⟨[]⟩ name).pieces = [] ++ [name.toList] := Path.splitSlashes_plain plain
  refine (locate_last pieces ordinary.1).2 ⟨by simp, [], rfl, ?_⟩
  rw [follow_of_directory rfl, enter_ordinary ordinary, List.nil_append]

/-- A file written at one location leaves the file at another. -/
theorem readBytes_set_other {l' : Location} {bytes : ByteArray}
    (free : tree.get? l' ≠ some .directory) (located : tree.locate path = .ok l) (other : l ≠ l') :
    (tree.set l' (.file bytes)).readBytes path = tree.readBytes path :=
  readBytes_congr located ((keepsDirectories_set_file free).locate located) (get?_set_other other)

end FileTree

/-! ## Runs without an output path -/

open FileTree

variable {tree : FileTree} {input : Path} {l : Location} {bytes : ByteArray}

/-- No directory is made on the way to a path that can be followed. -/
theorem makeRoomFor_of_locate {path : Path} (located : tree.locate path = .ok l) :
    onTree (makeRoomFor path) tree = (.ok (), tree) := by
  rcases makeRoomFor_cases path tree with room | ⟨directory, parent, nonempty, made⟩
  · exact room
  · have stands := ensureDirectory_of_isDirectory (isDirectory_parent parent nonempty located)
    -- The directory itself is tried first, so its parents are never looked at.
    obtain ⟨parents, paths⟩ : ∃ parents, directory.ancestors = directory :: parents := by
      have some_chars : directory.chars.isEmpty = false := by simpa using nonempty
      rw [Path.ancestors, Path.ancestorsUpTo, some_chars]
      cases directory.parent? with
      | none => exact ⟨[], rfl⟩
      | some next => exact ⟨_, rfl⟩
    have kept : tree.makeDirectories directory = (.ok (), tree) := by
      rw [makeDirectories, paths, makeAll, stands]
    rw [made, kept]
    rfl

/-- Writing to a path that can be followed changes the file there or nothing. -/
theorem writeOutput_of_locate {path : Path} (located : tree.locate path = .ok l)
    (content : ByteArray) :
    (onTree (writeOutput path content) tree).2 = tree ∨
      tree.get? l ≠ some .directory ∧
        (onTree (writeOutput path content) tree).2 = tree.set l (.file content) := by
  have written := onTree_writeBytes path content tree
  rw [writeOutput, onTree_bind_ok (makeRoomFor_of_locate located)]
  cases writes : tree.writeBytes path content with
  | error cause =>
    rw [writes] at written
    exact .inl (by rw [onTree_bind_error written])
  | ok after =>
    rw [writes] at written
    obtain ⟨l', located', free, rfl⟩ := writeBytes_ok writes
    obtain rfl : l' = l := by simpa [located'] using located
    exact .inr ⟨free, by rw [onTree_bind_ok written]; rfl⟩

theorem readBytes_of_finds {job : Job} {fromTree : Bool} {options : Options}
    {definitions : List Idl.Definition} (finds : job.Finds fromTree tree options definitions) :
    ∃ bytes, tree.readBytes job.input = .ok bytes := by
  cases read : tree.readBytes job.input with
  | ok bytes => exact ⟨bytes, rfl⟩
  | error cause =>
    have stops := onTree_readText (.inputUnreadable job.input) job.input tree
    rw [read] at stops
    have reads := finds.2
    rw [readDefinitions, onTree_bind_error stops] at reads
    cases reads

/-- The settings file that belongs to a file has a location of its name. -/
theorem locate_configBeside (located : tree.locate input = .ok l) :
    ∃ directory, tree.locate (configBeside input) = .ok (directory ++ [configName.toList]) := by
  have plain : '/' ∉ configName.toList := by decide
  have ordinary : Path.Ordinary configName.toList := by decide
  rw [configBeside]
  -- Without a directory the settings are looked for in the working directory.
  by_cases empty : (input.parent?.getD ⟨[]⟩).chars = []
  · have working : input.parent?.getD ⟨[]⟩ = ⟨[]⟩ := congrArg Path.mk empty
    rw [working]
    exact ⟨[], locate_name plain ordinary⟩
  · cases parent : input.parent? with
    | none => simp [parent] at empty
    | some directory =>
      rw [parent] at empty
      obtain ⟨l', located', stands⟩ := isDirectory_iff.1 (isDirectory_parent parent empty located)
      exact ⟨l', locate_join empty located' stands plain ordinary⟩

/-- The output that belongs to a file is a directory, or has a location of its own in the directory
    of the file. -/
theorem locate_outputBeside (located : tree.locate input = .ok l)
    (file : tree.get? l = some (.file bytes)) :
    ∃ l', tree.locate (outputBeside input) = .ok l' ∧ l' ≠ l ∧
      (tree.get? l' = some .directory ∨ ∃ directory name, l' = directory ++ [name] ∧
        ".d.ts".toList <:+ name) := by
  obtain ⟨front, name, directory, pieces, ordinary, relative, before, rooted, stands, rfl⟩ :=
    pieces_of_file located file
  have pieces' := Path.pieces_withExtension pieces ordinary (by decide : '/' ∉ "d.ts".toList)
  have other := Path.nameWithExtension_ne true ordinary (by decide : '.' ∈ "d.ts".toList)
  rcases Path.nameWithExtension_cases true ordinary.1 "d.ts" with
    points | ⟨stem, some_stem, extended, -⟩
  · -- Two points and an extension: what is left of the name leads out of the directory.
    rw [points] at pieces'
    refine ⟨directory.dropLast, (locate_last pieces' (by simp)).2 ⟨relative, directory, before,
      follow_of_directory stands _⟩, ?_, .inl (rooted.get?_up stands)⟩
    intro same
    have lengths := congrArg List.length same
    simp at lengths
  · have ordinary' : Path.Ordinary (Path.nameWithExtension true name "d.ts") := by
      rw [extended]
      refine ⟨by simp, ?_, ?_⟩ <;>
      · intro short
        simpa using congrArg List.length short
    refine ⟨directory ++ [Path.nameWithExtension true name "d.ts"], (locate_last pieces' ordinary'.1).2
      ⟨relative, directory, before, ?_⟩, by simpa using other, .inr ⟨directory, _, rfl, ?_⟩⟩
    · rw [follow_of_directory stands, enter_ordinary ordinary']
    · rw [extended]
      exact List.suffix_append _ _

/-- A run that is given no output path changes nothing, or writes a file where the output of a
    readable input belongs. -/
theorem generate_beside_cases (job : Job) (fromTree : Bool) (before : FileTree) :
    (onTree (job.generate none fromTree) before).2 = before ∨
      ∃ bytes l' content, before.readBytes job.input = .ok bytes ∧
        before.locate (outputBeside job.input) = .ok l' ∧ before.get? l' ≠ some .directory ∧
        (onTree (job.generate none fromTree) before).2 = before.set l' (.file content) := by
  rcases job.finds_or_stops fromTree before with ⟨options, definitions, finds⟩ | ⟨e, stops⟩
  · obtain ⟨bytes, read⟩ := readBytes_of_finds finds
    obtain ⟨l, located, file⟩ := readBytes_eq_ok_iff.1 read
    obtain ⟨l', output, -⟩ := locate_outputBeside located file
    rw [onTree_generate finds]
    rcases writeOutput_of_locate output (fileBytes options definitions) with same | ⟨free, wrote⟩
    · exact .inl same
    · exact .inr ⟨bytes, l', _, read, output, free, wrote⟩
  · rw [onTree_generate_of_stopsReading stops]
    exact .inl rfl

/-- A run that is given no output path leaves its input and the settings file beside it as they
    were, whether it succeeds or fails; the output is never the input. -/
theorem generate_beside (job : Job) (fromTree : Bool) (before : FileTree) :
    (onTree (job.generate none fromTree) before).2.readBytes job.input =
        before.readBytes job.input ∧
      (onTree (job.generate none fromTree) before).2.readBytes (configBeside job.input) =
        before.readBytes (configBeside job.input) ∧
      ∀ bytes, before.readBytes job.input = .ok bytes →
        before.locate (outputBeside job.input) ≠ before.locate job.input := by
  have apart : ∀ bytes, before.readBytes job.input = .ok bytes →
      before.locate (outputBeside job.input) ≠ before.locate job.input := by
    intro bytes read
    obtain ⟨l, located, file⟩ := readBytes_eq_ok_iff.1 read
    obtain ⟨l', output, other, -⟩ := locate_outputBeside located file
    rw [located, output]
    simpa using other
  rcases generate_beside_cases job fromTree before with
    same | ⟨bytes, l', content, read, output, free, wrote⟩
  · rw [same]
    exact ⟨rfl, rfl, apart⟩
  · obtain ⟨l, located, file⟩ := readBytes_eq_ok_iff.1 read
    obtain ⟨m, output', other, shape⟩ := locate_outputBeside located file
    obtain rfl : m = l' := by simpa [output'] using output
    obtain ⟨directory, settings⟩ := locate_configBeside located
    have other' : directory ++ [configName.toList] ≠ m := by
      obtain ⟨directory', name, rfl, declared⟩ := shape.resolve_left free
      -- The two names end in different ways.
      intro same
      obtain ⟨-, rfl⟩ : directory = directory' ∧ configName.toList = name := by simpa using same
      exact absurd declared (by decide)
    rw [wrote]
    exact ⟨readBytes_set_other free located other.symm, readBytes_set_other free settings other',
      apart⟩

end IdlTypings
