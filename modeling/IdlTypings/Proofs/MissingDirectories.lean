import Mathlib
import IdlTypings.Proofs.RunFrame

/-! # Directories that are missing

A run makes the directories that are missing above its output, and writes its file unless something
is in the way.

* `destination` is where pieces lead when every directory on the way is there, and `Clear` says that
  no file stands on the way.  On a clear way only a missing directory stops a path,
  `followAll_of_clear`.
* `makeDirectories_ok`: a directory with a clear way can be made, whatever is missing above it.
* `HasRoom` is what a file needs to be written, and `generate_ok` says that a run that finds its
  settings and its input then succeeds.
-/

namespace IdlTypings

/-! ## Paths that end in a piece that leads somewhere -/

namespace Path

theorem busyPieces_of_ordinary {p : Path} {front : List Name} {name : Name}
    (pieces : p.pieces = front ++ [name]) (ordinary : Ordinary name) : p.busyPieces = p.pieces := by
  rw [busyPieces, pieces, List.reverse_concat, dropIdle_ordinary ordinary, List.reverse_cons,
    List.reverse_reverse]

theorem endsInSlash_of_busyPieces {p : Path} (busy : p.busyPieces = p.pieces) :
    p.endsInSlash = false := by
  cases ends : p.endsInSlash with
  | false => rfl
  | true =>
    have last : p.chars.getLast? = some '/' := by simpa [endsInSlash] using ends
    obtain ⟨front, chars⟩ := List.getLast?_eq_some_iff.1 last
    have pieces : p.pieces = splitSlashes front ++ [[]] := by
      rw [Path.pieces, chars, splitSlashes_append_slash]
      rfl
    -- The empty piece behind the slash is dropped, since there is another one before it.
    have dropped : p.busyPieces = (dropIdle (splitSlashes front).reverse).reverse := by
      rw [busyPieces, pieces, List.reverse_concat]
      cases names : (splitSlashes front).reverse with
      | nil => exact absurd (List.reverse_eq_nil_iff.1 names) (splitSlashes_ne_nil front)
      | cons name names => simp [dropIdle]
    obtain ⟨idle, -, parts⟩ := dropIdle_suffix (splitSlashes front).reverse
    have lengths := congrArg List.length parts
    have lengths' := congrArg List.length (busy.symm.trans dropped)
    simp only [pieces, List.length_append, List.length_reverse, List.length_singleton] at lengths lengths'
    omega

theorem length_pieces_le (p : Path) : p.pieces.length ≤ p.chars.length + 1 := by
  rw [pieces]
  induction p.chars with
  | nil => simp [splitSlashes]
  | cons c s ih =>
    by_cases slash : c = '/'
    · subst slash
      rw [splitSlashes_slash]
      simpa using ih
    · obtain ⟨name, names, rest, split⟩ := splitSlashes_cons slash s
      rw [split]
      rw [rest] at ih
      simp only [List.length_cons] at ih ⊢
      omega

theorem ancestorsUpTo_succ {p q : Path} (relative : p.pieces.head? ≠ some [])
    (parent : p.parent? = some q) (n : Nat) :
    ancestorsUpTo (n + 1) p = p :: ancestorsUpTo n q := by
  have nonempty : p.chars.isEmpty = false := by simpa using (relative_iff.2 relative).1
  rw [ancestorsUpTo, nonempty, parent]
  rfl

end Path

/-! ## Where pieces lead -/

namespace FileTree

variable {tree before after : FileTree} {pieces : List Path.Name} {p q : Path}

/-- Where pieces lead from the working directory when every directory on the way is there. -/
def destination (pieces : List Path.Name) : Location :=
  pieces.foldl enter []

theorem destination_concat (pieces : List Path.Name) (piece : Path.Name) :
    destination (pieces ++ [piece]) = enter (destination pieces) piece := by
  rw [destination, List.foldl_concat]
  rfl

theorem followAll_eq_destination {l : Location} (follows : pieces.foldlM tree.follow [] = .ok l) :
    l = destination pieces := by
  induction pieces using List.reverseRecOn generalizing l with
  | nil =>
    cases follows
    rfl
  | append_singleton pieces piece ih =>
    rw [List.foldlM_append] at follows
    obtain ⟨middle, front, last⟩ := bind_eq_ok follows
    have step : tree.follow middle piece = .ok l := by simpa using last
    rw [(follow_eq_ok_iff.1 step).2, ih front, destination_concat]

/-- No file stands on the way that pieces lead, nor at its end. -/
def Clear (tree : FileTree) (pieces : List Path.Name) : Prop :=
  ∀ front, front <+: pieces → ∀ bytes, tree.get? (destination front) ≠ some (.file bytes)

theorem Clear.front {front : List Path.Name} (clear : tree.Clear pieces) (before : front <+: pieces) :
    tree.Clear front :=
  fun front' before' => clear front' (before'.trans before)

theorem Clear.of_sameFiles (clear : before.Clear pieces) (same : SameFiles before after) :
    after.Clear pieces :=
  fun front within bytes file => clear front within bytes ((same _ bytes).1 file)

/-- On a clear way only a missing directory stops a path. -/
theorem followAll_of_clear (clear : tree.Clear pieces) :
    pieces.foldlM tree.follow [] = .ok (destination pieces) ∨
      pieces.foldlM tree.follow [] = .error .notFound := by
  induction pieces using List.reverseRecOn with
  | nil => exact .inl rfl
  | append_singleton pieces piece ih =>
    have within : pieces <+: pieces ++ [piece] := List.prefix_append _ _
    rw [List.foldlM_append]
    rcases ih (clear.front within) with follows | missing
    · rw [follows, destination_concat]
      change [piece].foldlM tree.follow (destination pieces) = _ ∨ [piece].foldlM tree.follow _ = _
      rw [List.foldlM_cons]
      cases stands : tree.get? (destination pieces) with
      | none =>
        right
        rw [follow, stands]
        rfl
      | some node =>
        cases node with
        | file bytes => exact absurd stands (clear pieces within bytes)
        | directory =>
          left
          rw [follow_of_directory stands]
          rfl
    · rw [missing]
      exact .inr rfl

theorem locate_of_relative (relative : p.pieces.head? ≠ some []) :
    tree.locate p = p.pieces.foldlM tree.follow [] := by
  obtain ⟨nonempty, below⟩ := Path.relative_iff.2 relative
  have some_chars : p.chars.isEmpty = false := by simpa using nonempty
  rw [locate, some_chars, below]
  rfl

theorem locate_of_clear (relative : p.pieces.head? ≠ some []) (clear : tree.Clear p.pieces) :
    tree.locate p = .ok (destination p.pieces) ∨ tree.locate p = .error .notFound := by
  rw [locate_of_relative relative]
  exact followAll_of_clear clear

/-- A single piece is followed from the working directory, which is always there. -/
theorem locate_single (relative : p.pieces.head? ≠ some []) {name : Path.Name}
    (single : p.pieces = [name]) : tree.locate p = .ok (destination p.pieces) := by
  rw [locate_of_relative relative, single, List.foldlM_cons, follow_of_directory rfl]
  rfl

/-- A piece below a directory that is there can be followed, with idle pieces before it. -/
theorem locate_below (relative : p.pieces.head? ≠ some []) {between : List Path.Name}
    {name : Path.Name} (parts : p.pieces = q.pieces ++ between ++ [name])
    (idle : ∀ piece ∈ between, Path.Idle piece) (stands : tree.isDirectory q = true) :
    tree.locate p = .ok (destination p.pieces) := by
  obtain ⟨l, located, directory⟩ := isDirectory_iff.1 stands
  have follows : p.pieces.foldlM tree.follow [] = .ok (enter l name) := by
    rw [parts, List.foldlM_append, List.foldlM_append, (locate_eq_ok_iff_pieces.1 located).2]
    change (between.foldlM tree.follow l >>= fun l => [name].foldlM tree.follow l) = _
    rw [followAll_idle directory idle]
    change [name].foldlM tree.follow l = _
    rw [List.foldlM_cons, follow_of_directory directory]
    rfl
  rw [locate_of_relative relative, follows, followAll_eq_destination follows]

/-! ## Making what is missing -/

theorem ensureDirectory_of_locate (solid : p.endsInSlash = false) {l : Location}
    (located : tree.locate p = .ok l) (free : ∀ bytes, tree.get? l ≠ some (.file bytes)) :
    ∃ after, tree.ensureDirectory p = .ok after ∧ after.isDirectory p = true := by
  cases stands : tree.get? l with
  | none =>
    have made : tree.makeDirectory p = .ok (tree.set l .directory) := by
      rw [makeDirectory, Path.trimSlashes_of_not_endsInSlash solid, located]
      simp only [bind, Except.bind, stands]
      rfl
    have ensures : tree.ensureDirectory p = .ok (tree.set l .directory) := by
      rw [ensureDirectory, made]
    have inside : l ≠ [] := location_ne_nil (by rw [stands]; simp)
    have located' := (ensureDirectory_grows ensures).keepsDirectories.locate located
    exact ⟨_, ensures, isDirectory_iff.2 ⟨l, located', get?_set_same inside⟩⟩
  | some node =>
    cases node with
    | file bytes => exact absurd stands (free bytes)
    | directory =>
      have present : tree.isDirectory p = true := isDirectory_iff.2 ⟨l, located, stands⟩
      exact ⟨tree, ensureDirectory_of_isDirectory present, present⟩

theorem ensureDirectory_of_missing (solid : p.endsInSlash = false)
    (missing : tree.locate p = .error .notFound) : tree.ensureDirectory p = .error .notFound := by
  have fails : tree.makeDirectory p = .error .notFound := by
    rw [makeDirectory, Path.trimSlashes_of_not_endsInSlash solid, missing]
    rfl
  have absent : ¬ tree.isDirectory p = true := by
    rw [isDirectory_iff, missing]
    rintro ⟨l, located, -⟩
    cases located
  rw [ensureDirectory, fails]
  exact if_neg absent

theorem makeAll_of_locate (busy : p.busyPieces = p.pieces) (clear : tree.Clear p.pieces)
    (located : tree.locate p = .ok (destination p.pieces)) (parents : List Path) :
    ∃ after, tree.makeAll (p :: parents) = (.ok (), after) ∧ after.isDirectory p = true := by
  obtain ⟨after, made, stands⟩ := ensureDirectory_of_locate (Path.endsInSlash_of_busyPieces busy)
    located (clear p.pieces List.prefix_rfl)
  exact ⟨after, by rw [makeAll, made], stands⟩

/-- A path that is missing can be made once its parents are. -/
theorem makeAll_of_missing {middle : FileTree} (busy : p.busyPieces = p.pieces)
    (clear : tree.Clear p.pieces) (missing : tree.locate p = .error .notFound) {parents : List Path}
    (made : tree.makeAll parents = (.ok (), middle))
    (located : middle.locate p = .ok (destination p.pieces)) :
    ∃ after, tree.makeAll (p :: parents) = (.ok (), after) ∧ after.isDirectory p = true := by
  have solid := Path.endsInSlash_of_busyPieces busy
  have grows := makeAll_grows tree parents
  rw [made] at grows
  -- Only directories were made, so the way is as clear as it was.
  have clear' := clear.of_sameFiles grows.sameFiles
  obtain ⟨after, made', stands⟩ :=
    ensureDirectory_of_locate solid located (clear' p.pieces List.prefix_rfl)
  refine ⟨after, ?_, stands⟩
  rw [makeAll, ensureDirectory_of_missing solid missing, made]
  simp only [made']

/-- A path with a clear way can be made together with its parents. -/
theorem makeAll_ok {n : Nat} (short : p.pieces.length ≤ n) (busy : p.busyPieces = p.pieces)
    (relative : p.pieces.head? ≠ some []) (clear : tree.Clear p.pieces) :
    ∃ after, tree.makeAll (p.ancestorsUpTo n) = (.ok (), after) ∧ after.isDirectory p = true := by
  -- The induction is over the length of the list: a parent has fewer pieces than the path.
  induction n generalizing p with
  | zero =>
    have none : p.pieces = [] := List.length_eq_zero_iff.1 (Nat.le_zero.1 short)
    exact absurd none (Path.splitSlashes_ne_nil p.chars)
  | succ n ih =>
    rcases Path.parent?_cases relative with
      ⟨parent, name, single⟩ | ⟨q, between, name, parent, -, busyParent, idle, parts⟩
    · rw [Path.ancestorsUpTo_succ relative parent]
      rw [busy] at single
      exact makeAll_of_locate busy clear (locate_single relative single) _
    · rw [Path.ancestorsUpTo_succ relative parent]
      rw [busy] at parts
      have within : q.pieces <+: p.pieces := by
        rw [parts, List.append_assoc]
        exact List.prefix_append _ _
      have shorter : q.pieces.length ≤ n := by
        have lengths := congrArg List.length parts
        simp only [List.length_append, List.length_singleton] at lengths
        omega
      rcases locate_of_clear relative clear with located | missing
      · exact makeAll_of_locate busy clear located _
      · obtain ⟨middle, made, stands⟩ := ih shorter busyParent
          (by rwa [Path.head?_of_prefix within]) (clear.front within)
        exact makeAll_of_missing busy clear missing made (locate_below relative parts idle stands)

/-- A directory can be made where nothing but directories, present or missing, is on the way to it. -/
theorem makeDirectories_ok (busy : p.busyPieces = p.pieces) (relative : p.pieces.head? ≠ some [])
    (clear : tree.Clear p.pieces) :
    ∃ after, tree.makeDirectories p = (.ok (), after) ∧ after.isDirectory p = true :=
  makeAll_ok p.length_pieces_le busy relative clear

example : (({} : FileTree).makeDirectories (.ofString "a/../b/./c")).2.isDirectory
    (.ofString "b/c/") = true := by
  decide +kernel

theorem writeBytes_of_locate (solid : p.endsInSlash = false) {l : Location}
    (located : tree.locate p = .ok l) (free : tree.get? l ≠ some .directory) (bytes : ByteArray) :
    tree.writeBytes p bytes = .ok (tree.set l (.file bytes)) := by
  rw [writeBytes, Path.trimSlashes_of_not_endsInSlash solid, located, solid]
  cases stands : tree.get? l with
  | none =>
    simp only [bind, Except.bind, stands]
    rfl
  | some node =>
    cases node with
    | file content =>
      simp only [bind, Except.bind, stands]
      rfl
    | directory => exact absurd stands free

end FileTree

/-! ## Room for a file -/

open FileTree

variable {tree : FileTree} {path : Path}

/-- Nothing is in the way of a file: it has a name of its own, there is no file where a directory has
    to be, and no directory where the file has to be. -/
structure HasRoom (tree : FileTree) (path : Path) (front : List Path.Name) (name : Path.Name) :
    Prop where
  pieces : path.pieces = front ++ [name]
  ordinary : Path.Ordinary name
  relative : path.pieces.head? ≠ some []
  clear : tree.Clear front
  free : tree.get? (destination path.pieces) ≠ some .directory
  /-- The way does not lead through the place of the file and back, as `a/../a` does. -/
  apart : ∀ way, way <+: front → destination way ≠ destination path.pieces

namespace HasRoom

variable {front : List Path.Name} {name : Path.Name}

theorem busy (room : HasRoom tree path front name) : path.busyPieces = path.pieces :=
  Path.busyPieces_of_ordinary room.pieces room.ordinary

theorem relative_of_prefix (room : HasRoom tree path front name) {q : Path}
    (within : q.pieces <+: front) : q.pieces.head? ≠ some [] := by
  have within' : q.pieces <+: path.pieces := by
    rw [room.pieces]
    exact within.trans (List.prefix_append _ _)
  rw [Path.head?_of_prefix within']
  exact room.relative

/-- The parent of the file has the pieces before its name, up to idle ones. -/
theorem parent_cases (room : HasRoom tree path front name) :
    path.parent? = some ⟨[]⟩ ∧ front = [] ∨
      ∃ q between, path.parent? = some q ∧ q.chars ≠ [] ∧ q.busyPieces = q.pieces ∧
        (∀ piece ∈ between, Path.Idle piece) ∧ front = q.pieces ++ between := by
  rcases Path.parent?_cases room.relative with
    ⟨parent, last, single⟩ | ⟨q, between, last, parent, nonempty, busy, idle, parts⟩
  · rw [room.busy, room.pieces] at single
    exact .inl ⟨parent, by simpa using congrArg List.length single⟩
  · rw [room.busy, room.pieces] at parts
    exact .inr ⟨q, between, parent, nonempty, busy, idle, (List.append_inj' parts rfl).1⟩

theorem makeRoomFor_ok (room : HasRoom tree path front name) :
    ∃ after, onTree (makeRoomFor path) tree = (.ok (), after) ∧
      after.locate path = .ok (destination path.pieces) := by
  rcases room.parent_cases with ⟨parent, none⟩ | ⟨q, between, parent, nonempty, busy, idle, parts⟩
  · have single : path.pieces = [name] := by rw [room.pieces, none, List.nil_append]
    exact ⟨tree, onTree_makeRoomFor_single parent tree, locate_single room.relative single⟩
  · have whole : path.pieces = q.pieces ++ between ++ [name] := by rw [room.pieces, parts]
    have within : q.pieces <+: front := ⟨between, parts.symm⟩
    obtain ⟨after, made, stands⟩ :=
      makeDirectories_ok busy (room.relative_of_prefix within) (room.clear.front within)
    refine ⟨after, ?_, locate_below room.relative whole idle stands⟩
    rw [onTree_makeRoomFor parent nonempty, made]
    rfl

theorem prefix_of_above (room : HasRoom tree path front name) {q : Path} (above : q.Above path) :
    q.pieces <+: front := by
  induction above with
  | parent parent nonempty =>
    rcases room.parent_cases with ⟨empty, -⟩ | ⟨q', between, parent', -, -, -, parts⟩
    · rw [parent] at empty
      cases empty
      exact absurd rfl nonempty
    · rw [parent] at parent'
      cases parent'
      exact ⟨between, parts.symm⟩
  | @further _ q r parent nonempty _ ih =>
    have within := ih room
    obtain ⟨piece, others, parts⟩ :=
      Path.pieces_parent parent nonempty (room.relative_of_prefix within)
    exact List.IsPrefix.trans ⟨_, parts.symm⟩ within

theorem writeOutput_ok (room : HasRoom tree path front name) (bytes : ByteArray) :
    ∃ after, onTree (writeOutput path bytes) tree = (.ok path, after) ∧
      after.readBytes path = .ok bytes := by
  obtain ⟨middle, made, located⟩ := room.makeRoomFor_ok
  have grows := makeRoomFor_grows path tree
  rw [made] at grows
  have free : middle.get? (destination path.pieces) ≠ some .directory := by
    rcases grows (destination path.pieces) with same | ⟨-, -, q, above, here⟩
    · rw [same]
      exact room.free
    -- A directory that was made stands on the way, and the file does not.
    · have ends := followAll_eq_destination (locate_eq_ok_iff_pieces.1 here).2
      exact absurd ends.symm (room.apart q.pieces (room.prefix_of_above above))
  have solid := Path.endsInSlash_of_busyPieces room.busy
  have written := onTree_writeBytes path bytes middle
  rw [writeBytes_of_locate solid located free] at written
  refine ⟨_, by rw [writeOutput, onTree_bind_ok made, onTree_bind_ok written]; rfl, ?_⟩
  exact readBytes_eq_ok_iff.2
    ⟨_, (keepsDirectories_set_file free).locate located, get?_set_same (location_ne_nil free)⟩

end HasRoom

/-- A run that finds its settings and its input writes its file wherever there is room for it, with
    whatever directories are missing above. -/
theorem generate_ok {job : Job} {fromTree : Bool} {options : Options}
    {definitions : List Idl.Definition} (finds : job.Finds fromTree tree options definitions)
    {output : Option Path} {front : List Path.Name} {name : Path.Name}
    (room : HasRoom tree (output.getD (outputBeside job.input)) front name) :
    ∃ after, onTree (job.generate output fromTree) tree =
        (.ok (output.getD (outputBeside job.input)), after) ∧
      after.readBytes (output.getD (outputBeside job.input)) = .ok (fileBytes options definitions) := by
  rw [onTree_generate finds]
  exact room.writeOutput_ok _

end IdlTypings
