import IdlTypings.Files.Basic
import IdlTypings.Idl.OfJson
import IdlTypings.Idl.ToJson
import IdlTypings.Settings.Toml
import IdlTypings.Text.Space
import IdlTypings.Typings.Basic

/-!
# Runs

A run finds its settings, reads its input, and writes a declaration file or gives the JSON form of
the tree.  It stops at the first thing that fails, and `RunError` says what that was.
-/

namespace IdlTypings

/-! ## Errors -/

/-- Why a run stopped. -/
inductive RunError where
  | configUnreadable (path : Path) (cause : FileError)
  | configInvalid (path : Path)
  | inputUnreadable (path : Path) (cause : FileError)
  /-- The input is not a document. -/
  | notADocument (path : Path) (cause : Grammar.ParseError)
  /-- The input is not the JSON form of a tree. -/
  | notATree (path : Path) (cause : Json.Fault)
  | directoryNotMade (path : Path) (cause : FileError)
  | outputNotWritten (cause : FileError)

namespace RunError

/-- What a failing run was about, where that is said. -/
def context? : RunError → Option String
  | .configUnreadable path _ => some ("Failed to read config file from " ++ path.text)
  | .configInvalid path => some ("Failed to parse config file " ++ path.text)
  | .notADocument path _ => some ("Failed to parse " ++ path.text)
  | .notATree path _ => some ("Failed to load " ++ path.text)
  | .outputNotWritten _ => some "Failed to write output file"
  | .inputUnreadable _ _ | .directoryNotMade _ _ => none

/-- What went wrong, where that is known. -/
def cause? : RunError → Option String
  | .configUnreadable _ cause | .inputUnreadable _ cause | .directoryNotMade _ cause
  | .outputNotWritten cause => some cause.name
  | .configInvalid _ => none
  | .notADocument _ cause => some cause.message
  | .notATree _ cause => some (Idl.treeFaultMessage cause)

/-- The message of an error: its context and its cause. -/
def message (e : RunError) : String :=
  ": ".intercalate (e.context?.toList ++ e.cause?.toList)

/-- What became of a file that could not be read: it was not opened, or not read to its end. -/
def readFailure (path : Path) : FileError → String
  | .isADirectory | .invalidData => "failed to read from file `" ++ path.text ++ "`"
  | _ => "failed to open file `" ++ path.text ++ "`"

/-- What a report begins with. -/
def summary : RunError → String
  | .inputUnreadable path cause => readFailure path cause
  | .directoryNotMade path _ => "failed to create directory `" ++ path.text ++ "`"
  | e => e.context?.getD ""

/-- The first line of a report. -/
def headline (e : RunError) : String :=
  String.ofList (Text.firstLine e.summary.toList)

end RunError

/-! ## Steps -/

variable {m : Type → Type} [Monad m] [FileAccess m]

/-- A step whose failure stops the run. -/
def orStop {α : Type} (stop : FileError → RunError) (step : m (Except FileError α)) :
    ExceptT RunError m α :=
  ExceptT.mk do
    return (← step).mapError stop

/-- What a run works on. -/
structure Job where
  /-- The document. -/
  input : Path
  /-- The settings file, if one is named. -/
  config : Option Path := none
  /-- Settings that come before those of the file. -/
  settings : Config := {}
  deriving Repr, DecidableEq, Inhabited

/-- The name of a settings file that is looked for beside the input. -/
def configName : String := "webidl2ts.toml"

/-- The path of the settings file that belongs to an input. -/
def configBeside (input : Path) : Path :=
  (input.parent?.getD ⟨[]⟩).join configName

def readConfig (path : Path) : ExceptT RunError m Config := do
  let text ← orStop (.configUnreadable path) (FileAccess.readText path)
  match Config.ofToml? text.toList with
  | some config => return config
  | none => throw (.configInvalid path)

/-- The settings of the file that a job names, which must be there, or else of the one beside the
    input, if it is there. -/
def Job.fileConfig (job : Job) : ExceptT RunError m Config := do
  match job.config with
  | some path => readConfig path
  | none =>
    let path := configBeside job.input
    if ← ExceptT.lift (FileAccess.isPresent path) then readConfig path else return {}

def Job.options (job : Job) : ExceptT RunError m Options := do
  return (job.settings.merge (← job.fileConfig)).toOptions

/-- The definitions in a text that was read from a path: a document or the JSON form of a tree. -/
def definitionsOf (options : Options) (path : Path) (fromTree : Bool) (text : String) :
    Except RunError (List Idl.Definition) :=
  if fromTree then (Idl.readTree text.toList).mapError (.notATree path)
  else (readDocument options text.toList).mapError (.notADocument path)

def readDefinitions (options : Options) (path : Path) (fromTree : Bool) :
    ExceptT RunError m (List Idl.Definition) := do
  let text ← orStop (.inputUnreadable path) (FileAccess.readText path)
  ExceptT.mk (return definitionsOf options path fromTree text)

/-- Makes the directory of a file. -/
def makeRoomFor (path : Path) : ExceptT RunError m Unit := do
  match path.parent? with
  | none => return
  | some directory =>
    if directory.chars.isEmpty then return
    orStop (.directoryNotMade directory) (FileAccess.makeDirectories directory)

/-! ## Whole runs -/

/-- The path of the declaration file that belongs to an input. -/
def outputBeside (input : Path) : Path :=
  input.withExtension "d.ts"

/-- Writes the declaration file of an input and gives its path. -/
def Job.generate (job : Job) (output : Option Path) (fromTree : Bool) :
    ExceptT RunError m Path := do
  let options ← job.options
  let definitions ← readDefinitions options job.input fromTree
  let file := declarationFile options definitions
  let path := output.getD (outputBeside job.input)
  makeRoomFor path
  orStop .outputNotWritten (FileAccess.writeBytes path file.value.toUTF8)
  return path

/-- The pretty JSON text of the tree of an input. -/
def Job.treeText (job : Job) : ExceptT RunError m String := do
  let options ← job.options
  let definitions ← readDefinitions options job.input false
  return Idl.treeText definitions

end IdlTypings
