import IdlTypings.Typings.Run

/-!
# The command line

Two commands, `generate` and `ast`, with flags, settings that take a value, and one input.

* `scan` goes through the arguments of a command from left to right.  It stops at an argument that
  cannot be understood and at a question for the version.
* `Command.ofItems?` puts the items together: a setting without its value, an item given twice and
  a missing input are no command.
* `parse` does both, after the name of the command.
-/

namespace IdlTypings.CommandLine

/-- The commands. -/
inductive Verb where
  | generate
  | ast
  deriving Repr, BEq, DecidableEq, Inhabited

def Verb.name : Verb → String
  | .generate => "generate"
  | .ast => "ast"

def Verb.ofName? (name : String) : Option Verb :=
  [Verb.generate, Verb.ast].find? (·.name == name)

/-- What is either given or not. -/
inductive Flag where
  | emscripten
  | gecko
  | defaultExport
  | fromTree
  deriving Repr, BEq, DecidableEq, Inhabited

/-- What takes a value. -/
inductive Setting where
  | config
  | outFile
  | moduleName
  deriving Repr, BEq, DecidableEq, Inhabited

/-- What an option asks for. -/
inductive Meaning where
  | flag (flag : Flag)
  | setting (setting : Setting)
  | version
  deriving Repr, BEq, DecidableEq, Inhabited

/-- An option: its long name, its short name if it has one, and its meaning. -/
structure Spelling where
  long : String
  short : Option Char
  meaning : Meaning
  deriving Repr, BEq, DecidableEq, Inhabited

def commonOptions : List Spelling :=
  [⟨"emscripten", some 'e', .flag .emscripten⟩,
    ⟨"gecko", some 'g', .flag .gecko⟩,
    ⟨"config", some 'c', .setting .config⟩,
    ⟨"version", some 'V', .version⟩]

def Verb.options : Verb → List Spelling
  | .ast => commonOptions
  | .generate =>
    commonOptions ++
      [⟨"out-file", some 'o', .setting .outFile⟩,
        ⟨"module", some 'm', .setting .moduleName⟩,
        ⟨"default-export", some 'd', .flag .defaultExport⟩,
        ⟨"from-ast", none, .flag .fromTree⟩]

def Verb.long? (verb : Verb) (name : String) : Option Meaning :=
  (verb.options.find? (·.long == name)).map (·.meaning)

def Verb.short? (verb : Verb) (letter : Char) : Option Meaning :=
  (verb.options.find? (·.short == some letter)).map (·.meaning)

/-! ## Arguments -/

/-- What an argument looks like. -/
inductive Shape where
  /-- Two hyphens alone: only inputs follow. -/
  | separator
  /-- Two hyphens and a name, perhaps with a value after an equals sign. -/
  | long (name : String) (value : Option String)
  /-- A hyphen and letters. -/
  | short (letters : List Char)
  /-- Anything else, a hyphen alone included. -/
  | plain
  deriving Repr, BEq, DecidableEq, Inhabited

/-- The name and the value of a long option, without its hyphens. -/
def splitValue (s : List Char) : String × Option String :=
  let name := String.ofList (s.takeWhile (· != '='))
  match s.dropWhile (· != '=') with
  | [] => (name, none)
  | _ :: value => (name, some (String.ofList value))

/-- What an argument looks like. -/
def shape (arg : String) : Shape :=
  match arg.toList with
  | ['-', '-'] => .separator
  | '-' :: '-' :: rest => .long (splitValue rest).1 (splitValue rest).2
  | ['-'] => .plain
  | '-' :: letters => .short letters
  | _ => .plain

/-- What the arguments of a command say. -/
inductive Item where
  | flag (flag : Flag)
  /-- A setting with its value, or without one where it is missing. -/
  | setting (setting : Setting) (value : Option String)
  | input (path : String)
  deriving Repr, BEq, DecidableEq, Inhabited

/-- Why arguments are not read to their end. -/
inductive Stop where
  /-- They cannot be understood. -/
  | usage
  /-- The version is asked for: of one command, or of the program. -/
  | version (verb : Option Verb)
  deriving Repr, BEq, DecidableEq, Inhabited

/-- Items, and a setting that still waits for its value. -/
abbrev Partial : Type :=
  List Item × Option Setting

def longItems (verb : Verb) (name : String) (value : Option String) : Except Stop Partial :=
  match verb.long? name, value with
  | some (.flag flag), none => .ok ([.flag flag], none)
  | some (.setting setting), none => .ok ([], some setting)
  | some (.setting setting), some value => .ok ([.setting setting (some value)], none)
  | some .version, none => .error (.version (some verb))
  | _, _ => .error .usage

/-- The value that follows a short name in the same argument. -/
def attached : List Char → Option String
  | [] => none
  | '=' :: value => some (String.ofList value)
  | value => some (String.ofList value)

/-- Short options in one argument.  What follows a setting is its value. -/
def shortItems (verb : Verb) : List Char → Except Stop Partial
  | [] => .ok ([], none)
  | letter :: rest =>
    match verb.short? letter with
    | none => .error .usage
    | some .version => .error (.version (some verb))
    | some (.flag flag) => do
      let (items, pending) ← shortItems verb rest
      return (.flag flag :: items, pending)
    | some (.setting setting) =>
      match attached rest with
      | none => .ok ([], some setting)
      | some value => .ok ([.setting setting (some value)], none)

/-- The item of a setting that got no value. -/
def unfilled : Option Setting → List Item
  | none => []
  | some setting => [.setting setting none]

/-- Arguments of which none is an option.  There may be one input in all. -/
def inputs (seen : Bool) : List String → Except Stop (List Item)
  | [] => .ok []
  | arg :: rest =>
    if seen || !rest.isEmpty then .error .usage else .ok [.input arg]

/-- Goes through the arguments of a command.  `pending` is a setting that waits for its value, and
    `seen` says whether there has been an input. -/
def scan (verb : Verb) : (pending : Option Setting) → (seen : Bool) → List String →
    Except Stop (List Item)
  | pending, _, [] => .ok (unfilled pending)
  | pending, seen, arg :: rest =>
    match shape arg with
    | .separator => do
      let items ← inputs seen rest
      return unfilled pending ++ items
    | .long name value => do
      let (items, next) ← longItems verb name value
      let others ← scan verb next seen rest
      return unfilled pending ++ items ++ others
    | .short letters => do
      let (items, next) ← shortItems verb letters
      let others ← scan verb next seen rest
      return unfilled pending ++ items ++ others
    | .plain =>
      match pending with
      | some setting => do
        let others ← scan verb none seen rest
        return .setting setting (some arg) :: others
      | none => do
        if seen then throw .usage
        let others ← scan verb none true rest
        return .input arg :: others

/-! ## Commands -/

/-- What the program is to do. -/
inductive Command where
  | generate (job : Job) (output : Option Path) (fromTree : Bool)
  | ast (job : Job)
  deriving Repr, DecidableEq, Inhabited

/-- Whether a flag is given; nothing if it is given twice. -/
def flagOf? (items : List Item) (flag : Flag) : Option Bool :=
  match items.filter (· == .flag flag) with
  | [] => some false
  | [_] => some true
  | _ => none

/-- The values of a setting, one for each time that it is given. -/
def valuesOf (items : List Item) (setting : Setting) : List (Option String) :=
  items.filterMap fun
    | .setting s value => if s == setting then some value else none
    | _ => none

/-- The value of a setting, if it is given; nothing if it is given twice or without a value. -/
def settingOf? (items : List Item) (setting : Setting) : Option (Option String) :=
  match valuesOf items setting with
  | [] => some none
  | [some value] => some (some value)
  | _ => none

/-- The input; nothing if there is none. -/
def inputOf? (items : List Item) : Option String :=
  items.findSome? fun
    | .input path => some path
    | _ => none

/-- A flag that is not given leaves its setting open. -/
def orOpen (given : Bool) : Option Bool :=
  if given then some true else none

def Command.ofItems? (verb : Verb) (items : List Item) : Option Command := do
  let emscripten ← flagOf? items .emscripten
  let gecko ← flagOf? items .gecko
  let defaultExport ← flagOf? items .defaultExport
  let fromTree ← flagOf? items .fromTree
  let config ← settingOf? items .config
  let outFile ← settingOf? items .outFile
  let moduleName ← settingOf? items .moduleName
  let input ← inputOf? items
  let job : Job :=
    { input := .ofString input
      config := config.map .ofString
      settings :=
        { emscripten := orOpen emscripten
          gecko := orOpen gecko
          moduleName := moduleName
          defaultExport := orOpen defaultExport } }
  match verb with
  | .generate => return .generate job (outFile.map .ofString) fromTree
  | .ast => return .ast job

def parse : List String → Except Stop Command
  | [] => .error .usage
  | arg :: rest =>
    match Verb.ofName? arg with
    | some verb => do
      let items ← scan verb none false rest
      match Command.ofItems? verb items with
      | some command => return command
      | none => throw .usage
    | none =>
      if arg == "--version" || (shape arg matches .short ('V' :: _)) then .error (.version none)
      else .error .usage

end IdlTypings.CommandLine
