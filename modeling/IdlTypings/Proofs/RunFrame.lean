import Mathlib
import IdlTypings.Proofs.FileTrees
import IdlTypings.Typings.Run

/-! # What a run does to a file tree

A run that writes a declaration file looks at its settings and its input, makes room for the file,
and writes it.

* `ReadsOnly` holds of the first two steps: they leave every tree as it was.
* `writeOutput_cases` says how the other two end.
* `generate_frame` puts them together.  A run that succeeds has written its file and made the
  missing directories above it; a run that fails has touched no file, and has made directories only
  if its settings and its input were in order.
-/

namespace IdlTypings

open FileTree

variable {α β : Type}

/-! ## Runs on a tree -/

/-- The outcome of a run that starts with a tree, and the tree that it leaves. -/
def onTree (run : ExceptT RunError (StateM FileTree) α) (tree : FileTree) :
    Except RunError α × FileTree :=
  run.run tree

section

variable {run : ExceptT RunError (StateM FileTree) α}
  {next : α → ExceptT RunError (StateM FileTree) β} {tree after : FileTree}

theorem onTree_bind_ok {x : α} (first : onTree run tree = (.ok x, after)) :
    onTree (run >>= next) tree = onTree (next x) after := by
  change ExceptT.bindCont next (onTree run tree).1 (onTree run tree).2 = _
  rw [first]
  rfl

theorem onTree_bind_error {e : RunError} (first : onTree run tree = (.error e, after)) :
    onTree (run >>= next) tree = (.error e, after) := by
  change ExceptT.bindCont next (onTree run tree).1 (onTree run tree).2 = _
  rw [first]
  rfl

end

/-- A run that leaves every tree as it was. -/
def ReadsOnly (run : ExceptT RunError (StateM FileTree) α) : Prop :=
  ∀ tree, (onTree run tree).2 = tree

theorem ReadsOnly.onTree_eq {run : ExceptT RunError (StateM FileTree) α} (reads : ReadsOnly run)
    (tree : FileTree) : onTree run tree = ((onTree run tree).1, tree) :=
  Prod.ext rfl (reads tree)

theorem ReadsOnly.bind {run : ExceptT RunError (StateM FileTree) α}
    {next : α → ExceptT RunError (StateM FileTree) β} (first : ReadsOnly run)
    (rest : ∀ x, ReadsOnly (next x)) : ReadsOnly (run >>= next) := by
  intro tree
  have reads := first.onTree_eq tree
  cases outcome : (onTree run tree).1 with
  | error e =>
    rw [outcome] at reads
    rw [onTree_bind_error reads]
  | ok x =>
    rw [outcome] at reads
    rw [onTree_bind_ok reads, rest x tree]

theorem readsOnly_pure (x : α) : ReadsOnly (pure x) :=
  fun _ => rfl

theorem readsOnly_throw (e : RunError) :
    ReadsOnly (throw e : ExceptT RunError (StateM FileTree) α) :=
  fun _ => rfl

theorem readText_apply (path : Path) (tree : FileTree) :
    (FileAccess.readText path : StateM FileTree (Except FileError String)) tree =
      ((tree.readBytes path).bind fun bytes =>
        (String.fromUTF8? bytes).elim (.error .invalidData) .ok, tree) := by
  have bytes_apply : (FileAccess.readBytes path : StateM FileTree (Except FileError ByteArray)) tree =
      (tree.readBytes path, tree) := rfl
  simp only [FileAccess.readText, bind, StateT.bind, bytes_apply]
  cases tree.readBytes path with
  | error e => rfl
  | ok bytes =>
    simp only [Except.bind]
    cases String.fromUTF8? bytes <;> rfl

theorem onTree_orStop (stop : FileError → RunError) (step : StateM FileTree (Except FileError α))
    (tree : FileTree) : onTree (orStop stop step) tree = ((step tree).1.mapError stop, (step tree).2) :=
  rfl

theorem onTree_readText (stop : FileError → RunError) (path : Path) (tree : FileTree) :
    onTree (orStop stop (FileAccess.readText path)) tree =
      (((tree.readBytes path).bind fun bytes =>
        (String.fromUTF8? bytes).elim (.error .invalidData) .ok).mapError stop, tree) := by
  rw [onTree_orStop, readText_apply]

theorem readsOnly_readText (stop : FileError → RunError) (path : Path) :
    ReadsOnly (orStop stop (FileAccess.readText path)) := by
  intro tree
  rw [onTree_readText]

theorem readsOnly_readConfig (path : Path) :
    ReadsOnly (readConfig path : ExceptT RunError (StateM FileTree) Config) := by
  apply (readsOnly_readText _ path).bind
  intro text
  cases Config.ofToml? text.toList with
  | none => exact readsOnly_throw _
  | some config => exact readsOnly_pure config

theorem readsOnly_options (job : Job) :
    ReadsOnly (job.options : ExceptT RunError (StateM FileTree) Options) := by
  have file : ReadsOnly (job.fileConfig : ExceptT RunError (StateM FileTree) Config) := by
    rw [Job.fileConfig]
    cases job.config with
    | some path => exact readsOnly_readConfig path
    | none =>
      apply ReadsOnly.bind (fun _ => rfl)
      intro present
      cases present with
      | false => exact readsOnly_pure _
      | true => exact readsOnly_readConfig _
  exact file.bind fun _ => readsOnly_pure _

theorem readsOnly_readDefinitions (options : Options) (path : Path) (fromTree : Bool) :
    ReadsOnly (readDefinitions options path fromTree :
      ExceptT RunError (StateM FileTree) (List Idl.Definition)) := by
  apply (readsOnly_readText _ path).bind
  intro text
  exact fun _ => rfl

/-! ## The tree afterwards -/

/-- A location that is named on the way to a path. -/
def OnTheWay (tree : FileTree) (path : Path) (l : Location) : Prop :=
  ∃ q, q.Above path ∧ tree.locate q = .ok l

/-- A file was written, the directories above it are there, and all else stays as it was. -/
structure Wrote (before after : FileTree) (path : Path) (bytes : ByteArray) : Prop where
  /-- The file stands where its path leads, and no directory stood there. -/
  file : ∃ l, after.locate path = .ok l ∧ after.get? l = some (.file bytes) ∧
    before.get? l ≠ some .directory ∧
    ∀ l', l' ≠ l → after.get? l' = before.get? l' ∨
      before.get? l' = none ∧ after.get? l' = some .directory ∧ OnTheWay after path l'
  above : ∀ q : Path, q.Above path → after.isDirectory q = true

/-! ## Making room and writing -/

theorem onTree_makeRoomFor {path directory : Path} (parent : path.parent? = some directory)
    (nonempty : directory.chars ≠ []) (tree : FileTree) :
    onTree (makeRoomFor path) tree =
      ((tree.makeDirectories directory).1.mapError (.directoryNotMade directory),
        (tree.makeDirectories directory).2) := by
  have some_chars : directory.chars.isEmpty = false := by simpa using nonempty
  simp only [makeRoomFor, parent, some_chars]
  rfl

theorem onTree_makeRoomFor_single {path : Path} (parent : path.parent? = some ⟨[]⟩)
    (tree : FileTree) : onTree (makeRoomFor path) tree = (.ok (), tree) := by
  simp only [makeRoomFor, parent]
  rfl

theorem makeRoomFor_cases (path : Path) (tree : FileTree) :
    onTree (makeRoomFor path) tree = (.ok (), tree) ∨
      ∃ directory, path.parent? = some directory ∧ directory.chars ≠ [] ∧
        onTree (makeRoomFor path) tree =
          ((tree.makeDirectories directory).1.mapError (.directoryNotMade directory),
            (tree.makeDirectories directory).2) := by
  cases parent : path.parent? with
  | none =>
    left
    simp only [makeRoomFor, parent]
    rfl
  | some directory =>
    by_cases empty : directory.chars = []
    · obtain rfl : directory = ⟨[]⟩ := congrArg Path.mk empty
      exact .inl (onTree_makeRoomFor_single parent tree)
    · exact .inr ⟨directory, rfl, empty, onTree_makeRoomFor parent empty tree⟩

/-- What is made are directories on the way to the path, whether or not there is room in the end. -/
theorem makeRoomFor_grows (path : Path) (tree : FileTree) :
    Grows (OnTheWay (onTree (makeRoomFor path) tree).2 path) tree
      (onTree (makeRoomFor path) tree).2 := by
  rcases makeRoomFor_cases path tree with none | ⟨directory, parent, nonempty, made⟩
  · rw [none]
    exact Grows.refl _ tree
  · rw [made]
    apply (makeAll_grows tree directory.ancestors).mono
    rintro l ⟨q, among, located⟩
    exact ⟨q, Path.above_of_mem_ancestorsUpTo (.parent parent nonempty) among, located⟩

theorem onTree_writeBytes (path : Path) (bytes : ByteArray) (tree : FileTree) :
    onTree (orStop .outputNotWritten (FileAccess.writeBytes path bytes)) tree =
      match tree.writeBytes path bytes with
      | .ok after => (.ok (), after)
      | .error cause => (.error (.outputNotWritten cause), tree) := by
  change ((match tree.writeBytes path bytes with
    | .ok after => (.ok (), after)
    | .error cause => (.error cause, tree) : Except FileError Unit × FileTree).1.mapError
      RunError.outputNotWritten, _) = _
  cases tree.writeBytes path bytes <;> rfl

theorem wrote_of_writeBytes {path : Path} {bytes : ByteArray} {before middle after : FileTree}
    (grows : Grows (OnTheWay middle path) before middle)
    (writes : middle.writeBytes path bytes = .ok after) : Wrote before after path bytes := by
  obtain ⟨l, located, free, rfl⟩ := writeBytes_ok writes
  -- The new file may cover another one but no directory, so paths still lead where they led.
  have keeps : KeepsDirectories middle (middle.set l (.file bytes)) := keepsDirectories_set_file free
  have located' := keeps.locate located
  refine ⟨⟨l, located', get?_set_same (location_ne_nil free), ?_, ?_⟩, fun q above =>
    isDirectory_above located' above⟩
  · exact fun directory => free (grows.keepsDirectories l directory)
  · intro l' other
    rw [get?_set_other other]
    rcases grows l' with same | ⟨free', directory, q, above, located⟩
    · exact .inl same
    · exact .inr ⟨free', directory, q, above, keeps.locate located⟩

/-! ## Whole runs -/

/-- The settings and the definitions that a job finds in a tree. -/
def Job.Finds (job : Job) (fromTree : Bool) (tree : FileTree) (options : Options)
    (definitions : List Idl.Definition) : Prop :=
  onTree job.options tree = (.ok options, tree) ∧
    onTree (readDefinitions options job.input fromTree) tree = (.ok definitions, tree)

/-- A job stops at its settings or at its input. -/
def Job.StopsReading (job : Job) (fromTree : Bool) (tree : FileTree) (e : RunError) : Prop :=
  onTree job.options tree = (.error e, tree) ∨
    ∃ options, onTree job.options tree = (.ok options, tree) ∧
      onTree (readDefinitions options job.input fromTree) tree = (.error e, tree)

/-- A file cannot be written: a directory above it cannot be made, or it cannot itself. -/
def StopsWriting (before after : FileTree) (path : Path) (bytes : ByteArray) (e : RunError) : Prop :=
  (∃ directory cause, path.parent? = some directory ∧ e = .directoryNotMade directory cause ∧
      before.makeDirectories directory = (.error cause, after)) ∨
    ∃ cause, e = .outputNotWritten cause ∧ after.writeBytes path bytes = .error cause

/-- The bytes of the declaration file of some definitions. -/
def fileBytes (options : Options) (definitions : List Idl.Definition) : ByteArray :=
  (render options (declare options definitions).value).toUTF8

/-- Makes room for a file and writes it. -/
def writeOutput (path : Path) (bytes : ByteArray) : ExceptT RunError (StateM FileTree) Path := do
  makeRoomFor path
  orStop .outputNotWritten (FileAccess.writeBytes path bytes)
  return path

theorem onTree_generate {job : Job} {fromTree : Bool} {tree : FileTree} {options : Options}
    {definitions : List Idl.Definition} (finds : job.Finds fromTree tree options definitions)
    (output : Option Path) :
    onTree (job.generate output fromTree) tree =
      onTree (writeOutput (output.getD (outputBeside job.input)) (fileBytes options definitions))
        tree := by
  rw [Job.generate, onTree_bind_ok finds.1, onTree_bind_ok finds.2]
  rfl

theorem onTree_generate_of_stopsReading {job : Job} {fromTree : Bool} {tree : FileTree}
    {e : RunError} (stops : job.StopsReading fromTree tree e) (output : Option Path) :
    onTree (job.generate output fromTree) tree = (.error e, tree) := by
  rw [Job.generate]
  rcases stops with settings | ⟨options, settings, input⟩
  · rw [onTree_bind_error settings]
  · rw [onTree_bind_ok settings, onTree_bind_error input]

/-- A job finds all it needs in a tree, or stops without it. -/
theorem Job.finds_or_stops (job : Job) (fromTree : Bool) (tree : FileTree) :
    (∃ options definitions, job.Finds fromTree tree options definitions) ∨
      ∃ e, job.StopsReading fromTree tree e := by
  have settings := (readsOnly_options job).onTree_eq tree
  cases found : (onTree job.options tree).1 with
  | error e =>
    rw [found] at settings
    exact .inr ⟨e, .inl settings⟩
  | ok options =>
    rw [found] at settings
    have input := (readsOnly_readDefinitions options job.input fromTree).onTree_eq tree
    cases read : (onTree (readDefinitions options job.input fromTree) tree).1 with
    | error e =>
      rw [read] at input
      exact .inr ⟨e, .inr ⟨options, settings, input⟩⟩
    | ok definitions =>
      rw [read] at input
      exact .inl ⟨options, definitions, settings, input⟩

theorem stopsWriting_of_makeRoomFor {path : Path} {before after : FileTree} {e : RunError}
    (fails : onTree (makeRoomFor path) before = (.error e, after)) (bytes : ByteArray) :
    StopsWriting before after path bytes e := by
  rcases makeRoomFor_cases path before with room | ⟨directory, parent, -, made⟩
  · rw [room] at fails
    cases fails
  · rw [made] at fails
    cases outcome : before.makeDirectories directory with
    | mk result left =>
      rw [outcome] at fails
      cases result with
      | ok _ => cases fails
      | error cause =>
        cases fails
        exact .inl ⟨directory, cause, parent, rfl, outcome⟩

/-- Making room and writing ends in one of two ways. -/
theorem writeOutput_cases (path : Path) (bytes : ByteArray) (before : FileTree) :
    (∃ after, onTree (writeOutput path bytes) before = (.ok path, after) ∧
        Wrote before after path bytes) ∨
      ∃ e after, onTree (writeOutput path bytes) before = (.error e, after) ∧
        StopsWriting before after path bytes e ∧ Grows (OnTheWay after path) before after := by
  have grows := makeRoomFor_grows path before
  cases room : onTree (makeRoomFor path) before with
  | mk outcome middle =>
    rw [room] at grows
    cases outcome with
    | error e =>
      right
      exact ⟨e, middle, onTree_bind_error room, stopsWriting_of_makeRoomFor room bytes, grows⟩
    | ok _ =>
      have written := onTree_writeBytes path bytes middle
      cases writes : middle.writeBytes path bytes with
      | error cause =>
        rw [writes] at written
        right
        refine ⟨_, middle, ?_, .inr ⟨cause, rfl, writes⟩, grows⟩
        rw [writeOutput, onTree_bind_ok room, onTree_bind_error written]
      | ok after =>
        rw [writes] at written
        left
        refine ⟨after, ?_, wrote_of_writeBytes grows writes⟩
        rw [writeOutput, onTree_bind_ok room, onTree_bind_ok written]
        rfl

/-- A run that gives a path has written there the declarations of what it found, made the missing
    directories above, and changed nothing else.  A run that stops has changed no file; it has made
    directories only where its settings and its input were in order, and those lie on the way to the
    file. -/
theorem generate_frame (job : Job) (output : Option Path) (fromTree : Bool) (before : FileTree) :
    match onTree (job.generate output fromTree) before with
    | (.ok path, after) =>
      path = output.getD (outputBeside job.input) ∧
        ∃ options definitions, job.Finds fromTree before options definitions ∧
          Wrote before after path (fileBytes options definitions)
    | (.error e, after) =>
      SameFiles before after ∧
        (job.StopsReading fromTree before e → after = before) ∧
        (¬ job.StopsReading fromTree before e →
          ∃ options definitions, job.Finds fromTree before options definitions ∧
            StopsWriting before after (output.getD (outputBeside job.input))
              (fileBytes options definitions) e ∧
            Grows (OnTheWay after (output.getD (outputBeside job.input))) before after) := by
  rcases job.finds_or_stops fromTree before with ⟨options, definitions, finds⟩ | ⟨e, stops⟩
  · have runs := onTree_generate finds output
    rcases writeOutput_cases (output.getD (outputBeside job.input)) (fileBytes options definitions)
      before with ⟨after, ends, wrote⟩ | ⟨e, after, ends, stops, grows⟩
    · rw [runs, ends]
      exact ⟨rfl, options, definitions, finds, wrote⟩
    · rw [runs, ends]
      refine ⟨grows.sameFiles, ?_, fun _ => ⟨options, definitions, finds, stops, grows⟩⟩
      -- A run has one outcome, so one that got as far as writing did not stop at reading.
      intro reading
      rw [onTree_generate_of_stopsReading reading output, ends] at runs
      exact (congrArg Prod.snd runs).symm
  · rw [onTree_generate_of_stopsReading stops output]
    exact ⟨fun _ _ => Iff.rfl, fun _ => rfl, fun reading => absurd stops reading⟩

end IdlTypings
