import ScriptEngine.CommandLine.Outcome

/-!
# The command line

Reads the files that the arguments name, writes what the command leaves behind, and ends with its
number.
-/

open ScriptEngine

/-- Why the system cannot read a file. -/
def reasonOf : IO.Error → String
  | .noFileOrDirectory _ code details | .permissionDenied _ code details
  | .inappropriateType _ code details | .invalidArgument _ code details =>
    details ++ " (os error " ++ toString code ++ ")"
  | .otherError code details => details ++ " (os error " ++ toString code ++ ")"
  | error => toString error

/-- The text of a file, or why there is none. -/
def readText (path : String) : IO (Except String String) := do
  try
    match String.fromUTF8? (← IO.FS.readBinFile path) with
    | some text => return .ok text
    | none => return .error "stream did not contain valid UTF-8"
  catch error => return .error (reasonOf error)

def main (args : List String) : IO UInt32 := do
  let paths := match Command.ofArguments args with
    | .ok command => command.paths
    | .error _ => []
  let files := Files.ofList (← paths.mapM fun path => return (path, ← readText path))
  let outcome := Outcome.ofArguments files args
  (← IO.getStdout).putStr outcome.stdout
  (← IO.getStderr).putStr outcome.stderr
  return outcome.exit.toUInt32
