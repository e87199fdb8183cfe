import ScriptEngine.Options
import ScriptEngine.Toml.Reader

/-!
# Options from a document

The options of an engine are keys at the top of a TOML document. A key that is missing leaves the
standard; other keys do not count.
-/

namespace ScriptEngine

/-- Why a text gives no options. -/
inductive OptionsError
  /-- It is no document, or an option has a value of the wrong type. -/
  | malformed
  /-- An option has a value that it must not have. -/
  | invalid (reason : String)
deriving Repr, DecidableEq, Inhabited

/-- The wording of an error. -/
def OptionsError.message : OptionsError → String
  | .malformed => "invalid config: not a document of options"
  | .invalid reason => "invalid config: " ++ reason

namespace Options

/-- The count that a key stands for. -/
def countOf (t : TomlTable) (key : String) (standard : Nat) : Except OptionsError Nat :=
  match t.get? key with
  | none => .ok standard
  | some (.integer n) => if 0 ≤ n then .ok n.toNat else .error .malformed
  | some _ => .error .malformed

/-- Whether a key says yes. -/
def flagOf (t : TomlTable) (key : String) (standard : Bool) : Except OptionsError Bool :=
  match t.get? key with
  | none => .ok standard
  | some (.boolean b) => .ok b
  | some _ => .error .malformed

/-- The options of a document. -/
def ofTable (t : TomlTable) : Except OptionsError Options := do
  return {
    maxCallDepth := ← countOf t "max_call_depth" standard.maxCallDepth
    workerThreads := ← countOf t "worker_threads" standard.workerThreads
    workerStackSize := ← countOf t "worker_stack_size" standard.workerStackSize
    strictIdentifiers := ← flagOf t "strict_identifiers" standard.strictIdentifiers
    httpTimeout := ← countOf t "http_timeout_ms" standard.httpTimeout }

/-- Options with which an engine can run. -/
def validate (o : Options) : Except OptionsError Options :=
  if o.maxCallDepth = 0 then .error (.invalid "max_call_depth must be positive")
  else if o.workerThreads = 0 then .error (.invalid "worker_threads must be positive")
  else .ok o

/-- The options that a text gives. -/
def ofText (text : String) : Except OptionsError Options :=
  match TomlTable.ofText? text with
  | none => .error .malformed
  | some t => do (← ofTable t).validate

end Options

end ScriptEngine
