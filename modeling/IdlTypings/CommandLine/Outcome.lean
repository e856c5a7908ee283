import IdlTypings.CommandLine.Basic

/-!
# Outcomes

What a call of the program prints, and the status that it ends with: 0 when all went well, 1 when
the run failed, and 2 when the arguments were not understood.
-/

namespace IdlTypings.CommandLine

/-- What a call prints, and how it ends. -/
structure Outcome where
  status : Nat
  output : String := ""
  /-- The first line of the report of a failure. -/
  headline : String := ""
  deriving Repr, DecidableEq, Inhabited

def programName : String := "webidl2ts"

def programVersion : String := "0.3.0"

def versionLine (verb : Option Verb) : String :=
  programName ++ (verb.map fun v => "-" ++ v.name).getD "" ++ " " ++ programVersion ++ "\n"

def usageLine : String :=
  "usage: " ++ programName ++ " generate|ast [options] <input>"

/-- The outcome of arguments that were not read to their end. -/
def Stop.outcome : Stop → Outcome
  | .usage => { status := 2, headline := usageLine }
  | .version verb => { status := 0, output := versionLine verb }

variable {m : Type → Type} [Monad m] [FileAccess m]

/-- What a command prints. -/
def Command.run : Command → ExceptT RunError m String
  | .generate job output fromTree => do
    let _ ← job.generate output fromTree
    return ""
  | .ast job => do
    let text ← job.treeText
    return text ++ "\n"

/-- Calls the program with some arguments. -/
def call (args : List String) : m Outcome := do
  match parse args with
  | .error stop => return stop.outcome
  | .ok command =>
    match ← command.run.run with
    | .ok output => return { status := 0, output := output }
    | .error e => return { status := 1, headline := e.headline }

end IdlTypings.CommandLine
