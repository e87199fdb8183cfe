/-!
# Commands

What the arguments of the command line ask for. Options may stand before, between and after the
files; everything behind `--` belongs to the script, or is a file if the command takes no script
arguments.
-/

namespace ScriptEngine

/-- Something the command line can do. -/
inductive Command
  /-- Links modules and runs one of them, which is the last unless it is named. -/
  | run (files : List String) (entry config : Option String) (args : List String)
  /-- Links modules without running any. -/
  | check (files : List String) (config : Option String)
  /-- Shows the tree of a module. -/
  | ast (file : String)
  | help
deriving Repr, DecidableEq

/-- Why arguments are no command. -/
inductive UsageError
  | noCommand
  | unknownCommand (name : String)
  | unexpectedArgument (argument : String)
  | missingValue (option : String)
  | repeatedOption (option : String)
  | missingFiles
deriving Repr, DecidableEq

/-- The wording of an error. -/
def UsageError.message : UsageError → String
  | .noCommand => "a command is required: run, check or ast"
  | .unknownCommand name => "unrecognized subcommand '" ++ name ++ "'"
  | .unexpectedArgument argument => "unexpected argument '" ++ argument ++ "' found"
  | .missingValue option => "a value is required for '" ++ option ++ "' but none was supplied"
  | .repeatedOption option => "the argument '" ++ option ++ "' cannot be used multiple times"
  | .missingFiles => "the following required arguments were not provided: <FILES>..."

/-- The files and options of a command. -/
structure Arguments where
  files : List String
  entry : Option String
  config : Option String
  /-- What stands behind `--`. -/
  behind : List String
  help : Bool
deriving Repr, DecidableEq

namespace Arguments

/-- No arguments. -/
def none : Arguments := ⟨[], .none, .none, [], false⟩

/-- Whether an argument stands for itself and is no option. -/
def isPlain (argument : String) : Bool :=
  argument == "-" || !"-".isPrefixOf argument

/-- Whether an argument asks for more output, which changes no answer. -/
def isVerbosity (argument : String) : Bool :=
  argument == "--verbose" ||
    match argument.toList with
    | '-' :: 'v' :: more => more.all (· == 'v')
    | _ => false

/-- Whether an argument asks for help. -/
def isHelp (argument : String) : Bool := argument == "-h" || argument == "--help"

/-- What stands behind the name of an option and an equals sign in the same argument. -/
def attached? (option argument : String) : Option String :=
  let start := option.toList ++ ['=']
  if start.isPrefixOf argument.toList then
    some (String.ofList (argument.toList.drop start.length))
  else .none

/-- The arguments with a module to run. -/
def setEntry (a : Arguments) (name : String) : Except UsageError Arguments :=
  if a.entry.isSome then .error (.repeatedOption "--entry <ENTRY>")
  else .ok { a with entry := some name }

/-- The arguments with a file of options. -/
def setConfig (a : Arguments) (path : String) : Except UsageError Arguments :=
  if a.config.isSome then .error (.repeatedOption "--config <CONFIG>")
  else if path.isEmpty then .error (.missingValue "--config <CONFIG>")
  else .ok { a with config := some path }

/-- The arguments with one more file. -/
def addFile (a : Arguments) (path : String) : Except UsageError Arguments :=
  if path.isEmpty then .error (.missingValue "<FILES>...")
  else .ok { a with files := a.files ++ [path] }

/-- Reads files and options. -/
def read (a : Arguments) : List String → Except UsageError Arguments
  | [] => .ok a
  | "--" :: behind => .ok { a with behind }
  | "--entry" :: value :: rest =>
    if isPlain value then do (← a.setEntry value).read rest
    else .error (.missingValue "--entry <ENTRY>")
  | "--config" :: value :: rest =>
    if isPlain value then do (← a.setConfig value).read rest
    else .error (.missingValue "--config <CONFIG>")
  | argument :: rest =>
    match attached? "--entry" argument, attached? "--config" argument with
    | some name, _ => do (← a.setEntry name).read rest
    | .none, some path => do (← a.setConfig path).read rest
    | .none, .none =>
      if isPlain argument then do (← a.addFile argument).read rest
      else if isVerbosity argument then a.read rest
      else if isHelp argument then .ok { a with help := true }
      else if argument == "--entry" then .error (.missingValue "--entry <ENTRY>")
      else if argument == "--config" then .error (.missingValue "--config <CONFIG>")
      else .error (.unexpectedArgument argument)

end Arguments

namespace Command

/-- The command of this name with arguments. -/
def make (name : String) (a : Arguments) : Except UsageError Command :=
  let files := a.files ++ a.behind
  if a.help then .ok .help
  else
    match name with
    | "run" =>
      if a.files.isEmpty then .error .missingFiles
      else .ok (.run a.files a.entry a.config a.behind)
    | "check" =>
      if a.entry.isSome then .error (.unexpectedArgument "--entry")
      else if files.isEmpty then .error .missingFiles
      else .ok (.check files a.config)
    | "ast" =>
      if a.entry.isSome then .error (.unexpectedArgument "--entry")
      else if a.config.isSome then .error (.unexpectedArgument "--config")
      else
        match files with
        | [] => .error .missingFiles
        | [file] => .ok (.ast file)
        | _ :: second :: _ => .error (.unexpectedArgument second)
    | _ => .error (.unknownCommand name)

/-- The command that arguments ask for. -/
def ofArguments : List String → Except UsageError Command
  | [] => .error .noCommand
  | argument :: rest =>
    if Arguments.isVerbosity argument then ofArguments rest
    else if Arguments.isHelp argument || argument == "help" then .ok .help
    else if Arguments.isPlain argument then do make argument (← Arguments.none.read rest)
    else .error (.unexpectedArgument argument)

/-- The files that a command may read, its options first. -/
def paths : Command → List String
  | run files _ config _ | check files config => config.toList ++ files
  | ast file => [file]
  | help => []

end Command

end ScriptEngine
