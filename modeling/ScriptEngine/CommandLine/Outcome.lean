import ScriptEngine.CommandLine.Command
import ScriptEngine.CommandLine.Folder
import ScriptEngine.Engine.Basic
import ScriptEngine.Toml.Options
import ScriptEngine.Tree.Outline

/-!
# Outcomes of commands

What a command writes, and the number it ends with, for given files.
-/

namespace ScriptEngine

/-- What a command leaves behind. -/
structure Outcome where
  exit : Nat
  stdout : String
  stderr : String
deriving Repr, DecidableEq

/-- Why a command fails. -/
inductive CommandError
  | script (error : ScriptError)
  /-- A run ends in an error. -/
  | ended (error : ScriptError)
  /-- A path has no name for a module. -/
  | unnamed (path : String)
  /-- A file to be shown cannot be read. -/
  | unshown (path reason : String)
  /-- A file of options cannot be read. -/
  | noOptions (path reason : String)
  | options (path : String) (error : OptionsError)

namespace CommandError

/-- The wordings of an error and of its causes, each one the cause of the one before. -/
def chain : CommandError → List String
  | .script (.load (.source error)) => [error.message, error.fault]
  | .script (.unreadable path reason) => [(ScriptError.unreadable path reason).message, reason]
  | .script error => [error.message]
  | .ended error => [error.code ++ " [" ++ error.message ++ "]"]
  | .unnamed path => ["cannot name a module after " ++ path]
  | .unshown path reason => ["reading " ++ path, reason]
  | .noOptions path reason =>
    ["loading " ++ path, "failed to read config " ++ path ++ ": " ++ reason, reason]
  | .options path error => ["loading " ++ path, error.message]

/-- The line that a failing command writes. -/
def line (e : CommandError) : String := "error: " ++ ": ".intercalate e.chain ++ "\n"

end CommandError

namespace Command

/-- An engine with the options of a file. -/
def engineOf (files : Files) : Option String → Except CommandError Engine
  | none => .ok (.start .standard)
  | some path =>
    match files.read path with
    | .error reason => .error (.noOptions path reason)
    | .ok text =>
      match Options.ofText text with
      | .ok options => .ok (.start options)
      | .error error => .error (.options path error)

/-- The name of the module in a file. -/
def nameOf (path : String) : Except CommandError String :=
  match moduleName? path with
  | some name => .ok name
  | none => .error (.unnamed path)

/-- Loads the module of a file. -/
def loadFile (files : Files) (b : ScriptBuilder) (path : String) :
    Except CommandError ScriptBuilder := do
  let name ← nameOf path
  match files.read path with
  | .error reason => .error (.script (.unreadable path reason))
  | .ok source =>
    match b.load name source with
    | .ok b => .ok b
    | .error error => .error (.script error)

/-- The texts as lines. -/
def lines (texts : List String) : String := String.join (texts.map (· ++ "\n"))

/-- What scripts printed. -/
def printed (e : Engine) : List String :=
  e.events.filterMap fun
    | .printed text => some text
    | .logged _ _ => none

/-- Runs an environment, or one module of it. -/
def runEntry (e : Engine) (env : EnvId) (args : List Value) :
    Option String → Except ScriptError Value × Engine
  | some name => e.runModule env name args
  | none => e.run env args

/-- What is written by a run, and the error it ends in. -/
def runOf (files : Files) (paths : List String) (entry config : Option String)
    (args : List String) : Except CommandError (List String × Option CommandError) := do
  let e ← engineOf files config
  let builder ← paths.foldlM (loadFile files) (ScriptBuilder.start e)
  match builder.newEnvironment e with
  | (.error error, _, _) => .error (.script error)
  | (.ok env, _, e) =>
    let (result, e) := runEntry e env (args.map .string) entry
    match result with
    | .ok .unit => return (printed e, none)
    | .ok value => return (printed e ++ [e.store.display value], none)
    | .error error => return (printed e, some (.ended error))

/-- What is written by a check. -/
def checkOf (files : Files) (paths : List String) (config : Option String) :
    Except CommandError (List String) := do
  let e ← engineOf files config
  let builder ← paths.foldlM (loadFile files) (ScriptBuilder.start e)
  match builder.link with
  | (.error error, _) => .error (.script error)
  | (.ok forest, _) =>
    let warnings := forest.warnings.map fun (name, warning) =>
      "warning: " ++ name ++ ":" ++ warning.position.text ++ ": " ++ warning.warning.message
    return warnings ++ ["ok: " ++ Decimal.natText forest.modules.length ++ " module(s)"]

/-- The tree of the module in a file. -/
def treeOf (files : Files) (path : String) : Except CommandError String := do
  match files.read path with
  | .error reason => .error (.unshown path reason)
  | .ok source =>
    let name ← nameOf path
    match Module.ofSource name source with
    | .ok m => .ok m.outline
    | .error error => .error (.script (.load (.source error)))

/-- What a command that succeeds or fails leaves behind. -/
def outcomeOf : Except CommandError String → Outcome
  | .ok stdout => ⟨0, stdout, ""⟩
  | .error error => ⟨1, "", error.line⟩

/-- How to use the command line. -/
def usage : String :=
  lines ["Usage: [-v] <COMMAND>", "", "Commands:",
    "  run <FILES>... [--entry <ENTRY>] [--config <CONFIG>] [-- <ARGS>...]",
    "  check <FILES>... [--config <CONFIG>]",
    "  ast <FILE>"]

/-- What a command leaves behind. -/
def perform (files : Files) : Command → Outcome
  | run paths entry config args =>
    match runOf files paths entry config args with
    | .ok (written, none) => ⟨0, lines written, ""⟩
    | .ok (written, some error) => ⟨1, lines written, error.line⟩
    | .error error => ⟨1, "", error.line⟩
  | check paths config => outcomeOf ((checkOf files paths config).map lines)
  | ast path => outcomeOf (treeOf files path)
  | help => ⟨0, usage, ""⟩

end Command

/-- What the arguments of a command line leave behind. -/
def Outcome.ofArguments (files : Files) (args : List String) : Outcome :=
  match Command.ofArguments args with
  | .ok command => command.perform files
  | .error error => ⟨2, "", "error: " ++ error.message ++ "\n\n" ++ Command.usage⟩

end ScriptEngine
