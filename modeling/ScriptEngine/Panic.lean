import ScriptEngine.Decimal.Text

/-!
# Panics

A panic ends the evaluation of a script with a code and a message. The codes are stable: a script
can ask for that of a panic it has captured.
-/

namespace ScriptEngine

/-- The number of a kind of panic. -/
structure PanicCode where
  value : Int
deriving Repr, DecidableEq, Inhabited

namespace PanicCode

/-! The codes with a name. -/

/-- A panic that a script asked for. -/
def explicitPanic : PanicCode := ⟨1⟩

/-- A value of the wrong type. -/
def typeMismatch : PanicCode := ⟨101⟩

/-- Null where an ordered value is needed. -/
def nullComparison : PanicCode := ⟨102⟩

/-- A call of what is no function. -/
def notCallable : PanicCode := ⟨103⟩

/-- A member that a value does not have. -/
def memberNotFound : PanicCode := ⟨104⟩

/-- A position outside of a list. -/
def indexOutOfBounds : PanicCode := ⟨105⟩

/-- A name that no variable has. -/
def varNotFound : PanicCode := ⟨106⟩

/-- A base that is no entity of the arena. -/
def entityNotFound : PanicCode := ⟨107⟩

/-- A division by zero. -/
def divideByZero : PanicCode := ⟨108⟩

/-- Arguments that a function does not take. -/
def argumentMismatch : PanicCode := ⟨109⟩

/-- A failure of the host. -/
def externalFailure : PanicCode := ⟨110⟩

/-- Calls nested too deep. -/
def stackOverflow : PanicCode := ⟨111⟩

/-- A task that could not be run. -/
def taskFailed : PanicCode := ⟨112⟩

/-- A failure of a remote call. -/
def remoteFailure : PanicCode := ⟨113⟩

/-- A value that a pattern does not take apart. -/
def patternMismatch : PanicCode := ⟨114⟩

/-- An operation that makes no sense where it stands. -/
def invalidOperation : PanicCode := ⟨115⟩

/-- The codes that have names. -/
def table : List (PanicCode × String) :=
  [(explicitPanic, "EXPLICIT_PANIC"), (typeMismatch, "TYPE_MISMATCH"),
   (nullComparison, "NULL_COMPARISON"), (notCallable, "NOT_CALLABLE"),
   (memberNotFound, "MEMBER_NOT_FOUND"), (indexOutOfBounds, "INDEX_OUT_OF_BOUNDS"),
   (varNotFound, "VAR_NOT_FOUND"), (entityNotFound, "ENTITY_NOT_FOUND"),
   (divideByZero, "DIVIDE_BY_ZERO"), (argumentMismatch, "ARGUMENT_MISMATCH"),
   (externalFailure, "EXTERNAL_FAILURE"), (stackOverflow, "STACK_OVERFLOW"),
   (taskFailed, "TASK_FAILED"), (remoteFailure, "REMOTE_FAILURE"),
   (patternMismatch, "PATTERN_MISMATCH"), (invalidOperation, "INVALID_OPERATION")]

/-- The name of a code. -/
def name? (code : PanicCode) : Option String :=
  table.lookup code

/-- The number of a code and its name, if it has one. -/
def text (code : PanicCode) : String :=
  match code.name? with
  | some name => Decimal.intText code.value ++ ":" ++ name
  | none => Decimal.intText code.value

end PanicCode

/-- The failure of a script. -/
structure Panic where
  code : PanicCode
  message : String
deriving Repr, DecidableEq, Inhabited

namespace Panic

/-- The code and the message of a panic. -/
def text (p : Panic) : String :=
  "panic " ++ p.code.text ++ ": " ++ p.message

/-! Panics by the kind of their cause. -/

/-- A value has the wrong type. -/
def typeMismatch (message : String) : Panic := ⟨.typeMismatch, message⟩

/-- A function does not take the arguments. -/
def argumentMismatch (message : String) : Panic := ⟨.argumentMismatch, message⟩

/-- The host failed. -/
def externalFailure (message : String) : Panic := ⟨.externalFailure, message⟩

/-- A remote call failed. -/
def remoteFailure (message : String) : Panic := ⟨.remoteFailure, message⟩

/-- An operation makes no sense where it stands. -/
def invalidOperation (message : String) : Panic := ⟨.invalidOperation, message⟩

/-- A value of this type has no such member. -/
def memberNotFound (typeName name : String) : Panic :=
  ⟨.memberNotFound, typeName ++ " has no member '" ++ name ++ "'"⟩

/-- No variable has this name. -/
def varNotFound (name : String) : Panic :=
  ⟨.varNotFound, "'" ++ name ++ "' is not defined"⟩

/-- A number is no position in a list of this length. -/
def outOfBounds (index : Float) (length : Nat) : Panic :=
  ⟨.indexOutOfBounds, "index " ++ Decimal.scriptText index ++ " out of bounds for length " ++
    Decimal.natText length⟩

/-- A function is given more arguments than it takes. -/
def tooManyArguments (name : Option String) (arity given : Nat) : Panic :=
  argumentMismatch (name.getD "function" ++ " takes " ++ Decimal.natText arity ++
    " arguments but " ++ Decimal.natText given ++ " were given")

/-- There is no module of this name. -/
def noModule (name : String) : Panic :=
  invalidOperation ("no module named '" ++ name ++ "'")

end Panic

end ScriptEngine
