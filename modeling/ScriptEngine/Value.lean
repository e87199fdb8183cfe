import ScriptEngine.Host.Binding
import ScriptEngine.Tree.Basic

/-!
# Values of scripts

What a script computes with. Values that can change or be told apart by identity are kept in the
store and known here by their numbers.
-/

namespace ScriptEngine

/-! The numbers of cells in the store, by the kind of the cell. -/

/-- The number of an array. -/
abbrev ArrayId := Nat

/-- The number of a map. -/
abbrev MapId := Nat

/-- The number of a function. -/
abbrev FunctionId := Nat

/-- The number of a promise. -/
abbrev PromiseId := Nat

/-- The number of a safe result. -/
abbrev SafeId := Nat

/-- The number of a frame. -/
abbrev FrameId := Nat

/-- A value of a script. -/
inductive Value
  | null
  | unit
  | bool (value : Bool)
  | number (value : Float)
  | string (value : String)
  | array (cell : ArrayId)
  | tuple (items : List Value)
  | map (cell : MapId)
  | entity (ref : EntityRef)
  | function (cell : FunctionId)
  | external (ref : HostRef)
  | hostClass (ref : ClassRef)
  | promise (cell : PromiseId)
  | safe (cell : SafeId)
  | space (frame : FrameId)
deriving Repr, Inhabited

namespace Value

/-- The name of the kind of a value. -/
def typeName : Value → String
  | .null => "null"
  | .unit => "unit"
  | .bool _ => "bool"
  | .number _ => "number"
  | .string _ => "string"
  | .array _ => "array"
  | .tuple _ => "tuple"
  | .map _ => "map"
  | .entity _ => "object"
  | .function _ => "function"
  | .external _ => "external"
  | .hostClass _ => "class"
  | .promise _ => "promise"
  | .safe _ => "safe"
  | .space _ => "namespace"

/-- Whether a condition holds for a value: all but false, null, unit and zero. -/
def isTruthy : Value → Bool
  | .bool value => value
  | .null | .unit => false
  | .number value => value != 0.0
  | _ => true

/-- Whether a value is null. -/
def isNull : Value → Bool
  | .null => true
  | _ => false

/-- Whether a value is a function. -/
def isFunction : Value → Bool
  | .function _ => true
  | _ => false

/-- The answer to a type test. -/
def satisfies : Value → TypeName → Bool
  | .number _, .number | .string _, .string | .bool _, .bool | .unit, .unit | .null, .null
  | .array _, .array | .tuple _, .tuple | .map _, .map | .entity _, .object
  | .function _, .function | .promise _, .promise | .external _, .external => true
  | _, _ => false

/-- The value of a literal. -/
def ofLiteral : Literal → Value
  | .number value => .number value
  | .string value => .string value
  | .bool value => .bool value
  | .null => .null
  | .unit => .unit

/-- A count as a number. -/
def ofNat (n : Nat) : Value := .number (Float.ofNat n)

end Value

/-- The functions that every script can call, and those of the utility entity. -/
inductive Builtin
  | log | warning | error | print | panic | sleep | now | len | toStr | toNum
  | newMap | newList | stringToJson | jsonToEntity
deriving Repr, DecidableEq, Inhabited

namespace Builtin

/-- The name of a function. -/
def name : Builtin → String
  | .log => "log"
  | .warning => "warning"
  | .error => "error"
  | .print => "print"
  | .panic => "panic"
  | .sleep => "sleep"
  | .now => "now"
  | .len => "len"
  | .toStr => "to_str"
  | .toNum => "to_num"
  | .newMap => "newMap"
  | .newList => "newList"
  | .stringToJson => "stringToJson"
  | .jsonToEntity => "jsonToEntity"

/-- How many arguments a function takes, if that is fixed. -/
def arity? : Builtin → Option Nat
  | .log | .warning | .error | .print | .panic => none
  | .now | .newMap | .newList => some 0
  | .sleep | .len | .toStr | .toNum | .stringToJson | .jsonToEntity => some 1

/-- The functions that are called by a name alone. -/
def globals : List Builtin :=
  [.log, .warning, .error, .print, .panic, .sleep, .now, .len, .toStr, .toNum]

/-- The members of the utility entity. -/
def utilities : List Builtin := [.newMap, .newList, .stringToJson, .jsonToEntity]

/-- The function called by a name alone. -/
def ofName? (name : String) : Option Builtin :=
  globals.find? fun builtin => builtin.name == name

end Builtin

/-- What a function value calls. -/
inductive Callable
  /-- A function of the script, in the frame where it was made. -/
  | closure (definition : FunctionDef) (frame : FrameId)
  /-- A call that waits for more arguments. -/
  | curried (target : Callable) (bound : List Value) (this : Option EntityRef)
  | native (builtin : Builtin)
  /-- A method taken from a value and not called yet. -/
  | method (receiver : Value) (name : String)
  | remote (name : String) (spec : RemoteSpec)

instance : Inhabited Callable := ⟨.native .print⟩

namespace Callable

/-- The name of a function, if it has one. -/
def name? : Callable → Option String
  | .closure definition _ => definition.name
  | .curried target _ _ => target.name?
  | .native builtin => some builtin.name
  | .method _ name => some name
  | .remote name _ => some name

/-- How a function shows. -/
def text (callable : Callable) : String :=
  match callable.name? with
  | some name => "<function " ++ name ++ ">"
  | none => "<function>"

end Callable

end ScriptEngine
