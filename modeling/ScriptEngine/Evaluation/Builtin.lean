import ScriptEngine.Evaluation.Member
import ScriptEngine.Evaluation.Task
import ScriptEngine.Host.Json
import ScriptEngine.Json.Lenient

/-!
# Functions that every script can call

Writing, panics, time, and conversions of numbers, texts and JSON.
-/

namespace ScriptEngine.Eval

/-- The panic that a script asks for: a code, a message, or both. -/
def requestedPanic (args : List Value) : Eval Panic := do
  match args with
  | [] => return ⟨.explicitPanic, "explicit panic"⟩
  | [.number code] => return ⟨⟨(Decimal.bits code).toInt⟩, "explicit panic"⟩
  | [message] => return ⟨.explicitPanic, ← display message⟩
  | [.number code, message] => return ⟨⟨(Decimal.bits code).toInt⟩, ← display message⟩
  | _ => return .argumentMismatch "panic takes an optional code and message"

/-- Writes values as a line of the log. -/
def log (level : LogLevel) (args : List Value) : Eval Value := do
  emit (.logged level (← ask (·.displayAll args)))
  return .unit

/-- The number of elements of a value. -/
def length (value : Value) : Eval Value := do
  match ← ask (·.length? value) with
  | some n => return .ofNat n
  | none => panic (.typeMismatch ("a " ++ value.typeName ++ " has no length"))

/-- The value of the JSON text that a function is given. -/
def jsonArgument (args : List Value) : Eval Value := do
  match args with
  | .string text :: _ =>
    match Json.ofLenientText text with
    | .ok json => fromHost (.ofJson json)
    | .error e => panic (.externalFailure ("invalid JSON: " ++ e.message))
  | _ => panic (.argumentMismatch "expected a JSON string")

mutual

/-- A value with its maps turned into entities, also those in arrays. The fuel bounds how deep they
are nested. -/
def entityOf (fuel : Nat) (value : Value) : Eval Value :=
  match fuel, value with
  | 0, _ => unfinished
  | fuel + 1, .map id => do
    let entries ← ask fun s => (s.map id).entries
    let entity ← make (·.newEntity (← read) none)
    entityMembers fuel entity entries
    return .entity entity
  | fuel + 1, .array id => do newArray (← entityItems fuel (← ask fun s => (s.array id).toList))
  | _ + 1, value => return value
termination_by (fuel, 0)

/-- Gives an entity members from the entries of a map. -/
def entityMembers (fuel : Nat) (entity : EntityRef) (entries : List (String × Value)) :
    Eval Unit :=
  match entries with
  | [] => pure ()
  | (key, value) :: entries => do
    let value ← entityOf fuel value
    change (·.define entity key value)
    entityMembers fuel entity entries
termination_by (fuel, entries.length + 1)

/-- Turns the maps among some values into entities. -/
def entityItems (fuel : Nat) (items : List Value) : Eval (List Value) :=
  match items with
  | [] => return []
  | item :: items => do
    let first ← entityOf fuel item
    return first :: (← entityItems fuel items)
termination_by (fuel, items.length + 1)

end

/-- A value with its maps turned into entities. Without cycles no cell is entered twice on a way
down. -/
def toEntity (value : Value) : Eval Value := do
  entityOf (← ask fun s => s.arrays.size + s.maps.size + 1) value

/-- Calls a function that every script has, with as many arguments as it takes. -/
def builtin (function : Builtin) (args : List Value) : Eval Value := do
  let first := args.headD .null
  match function with
  | .log => log .info args
  | .warning => log .warn args
  | .error => log .error args
  | .print =>
    emit (.printed (← ask (·.displayAll args)))
    return .unit
  | .panic => panic (← requestedPanic args)
  | .sleep =>
    match first with
    | .number x =>
      if 0.0 ≤ x then
        sleep (Decimal.steps x)
        return .unit
      else panic (.argumentMismatch "sleep takes a non-negative number of milliseconds")
    | _ => panic (.argumentMismatch "sleep takes a non-negative number of milliseconds")
  | .now => return .ofNat (← get).milliseconds
  | .len => length first
  | .toStr => return .string (← display first)
  | .toNum => return .number (← ofExcept first.toNumber)
  | .newMap => return .external (← make (·.newHost (.map .empty)))
  | .newList => return .external (← make (·.newHost (.list #[])))
  | .stringToJson => jsonArgument args
  | .jsonToEntity =>
    match first with
    | .string _ => toEntity (← jsonArgument args)
    | _ => toEntity first

end ScriptEngine.Eval
