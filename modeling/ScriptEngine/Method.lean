import ScriptEngine.Panic
import ScriptEngine.Value

/-!
# Methods of values

The methods that values have without being given any, by the kind of the value.
-/

namespace ScriptEngine

/-- A method of texts. -/
inductive StringMethod
  | size | trim | upper | lower | split | startsWith | endsWith | contains | replace | indexOf
  | substring | toNum
deriving Repr, DecidableEq, Inhabited

/-- The method of texts with this name. -/
def StringMethod.ofName? : String → Option StringMethod
  | "len" | "size" => some .size
  | "trim" => some .trim
  | "upper" => some .upper
  | "lower" => some .lower
  | "split" => some .split
  | "starts_with" => some .startsWith
  | "ends_with" => some .endsWith
  | "contains" => some .contains
  | "replace" => some .replace
  | "index_of" => some .indexOf
  | "substring" => some .substring
  | "to_num" => some .toNum
  | _ => none

/-- A method of numbers. -/
inductive NumberMethod
  | ceil | floor | round | abs
deriving Repr, DecidableEq, Inhabited

/-- The method of numbers with this name. -/
def NumberMethod.ofName? : String → Option NumberMethod
  | "ceil" => some .ceil
  | "floor" => some .floor
  | "round" => some .round
  | "abs" => some .abs
  | _ => none

/-- The answer of a method; halves are rounded away from zero. -/
def NumberMethod.apply : NumberMethod → Float → Float
  | .ceil, x => x.ceil
  | .floor, x => x.floor
  | .round, x => x.round
  | .abs, x => x.abs

/-- A method of arrays. -/
inductive ArrayMethod
  | push | pop | insert | remove | get | set | size | isEmpty | contains | join
  | forEach | map | filter | reduce | parallel
deriving Repr, DecidableEq, Inhabited

/-- The method of arrays with this name. -/
def ArrayMethod.ofName? : String → Option ArrayMethod
  | "push" => some .push
  | "pop" => some .pop
  | "insert" => some .insert
  | "remove" => some .remove
  | "get" => some .get
  | "set" => some .set
  | "size" | "len" => some .size
  | "isEmpty" => some .isEmpty
  | "contains" => some .contains
  | "join" => some .join
  | "forEach" => some .forEach
  | "map" => some .map
  | "filter" => some .filter
  | "reduce" => some .reduce
  | "parallel" => some .parallel
  | _ => none

/-- A method of maps. -/
inductive MapMethod
  | put | get | remove | containsKey | keys | values | size | isEmpty
deriving Repr, DecidableEq, Inhabited

/-- The method of maps with this name. -/
def MapMethod.ofName? : String → Option MapMethod
  | "put" => some .put
  | "get" => some .get
  | "remove" => some .remove
  | "contains_key" | "containsKey" => some .containsKey
  | "keys" => some .keys
  | "values" => some .values
  | "size" => some .size
  | "isEmpty" => some .isEmpty
  | _ => none

/-- A method of tuples. -/
inductive TupleMethod
  | size | get
deriving Repr, DecidableEq, Inhabited

/-- The method of tuples with this name. -/
def TupleMethod.ofName? : String → Option TupleMethod
  | "size" | "len" => some .size
  | "get" => some .get
  | _ => none

/-- A method of promises. -/
inductive PromiseMethod
  | await | andThen
deriving Repr, DecidableEq, Inhabited

/-- The method of promises with this name. -/
def PromiseMethod.ofName? : String → Option PromiseMethod
  | "await" => some .await
  | "then" => some .andThen
  | _ => none

/-- A method of captured results. -/
inductive SafeMethod
  | panicCode | get | panicMessage
deriving Repr, DecidableEq, Inhabited

/-- The method of captured results with this name. -/
def SafeMethod.ofName? : String → Option SafeMethod
  | "panic_code" => some .panicCode
  | "get" => some .get
  | "panic_message" => some .panicMessage
  | _ => none

/-- A method of entities. -/
inductive EntityMethod
  | keys
deriving Repr, DecidableEq, Inhabited

/-- The method of entities with this name. -/
def EntityMethod.ofName? : String → Option EntityMethod
  | "keys" => some .keys
  | _ => none

namespace Value

/-- The name of the method that every value has: its text. -/
def textMethod : String := "to_str"

/-- Whether a value has a method of this name without being given it. -/
def hasMethod (value : Value) (name : String) : Bool :=
  name == textMethod ||
    match value with
    | .string _ => (StringMethod.ofName? name).isSome
    | .number _ => (NumberMethod.ofName? name).isSome
    | .array _ => (ArrayMethod.ofName? name).isSome
    | .map _ => (MapMethod.ofName? name).isSome
    | .tuple _ => (TupleMethod.ofName? name).isSome
    | .promise _ => (PromiseMethod.ofName? name).isSome
    | .safe _ => (SafeMethod.ofName? name).isSome
    | .entity _ => (EntityMethod.ofName? name).isSome
    | _ => false

/-- The entity that a value is. -/
def entity? : Value → Option EntityRef
  | .entity ref => some ref
  | _ => none

/-- Why a method cannot do with its arguments. -/
def badArguments (receiver : Value) (name : String) : Panic :=
  .argumentMismatch ("bad arguments for " ++ receiver.typeName ++ "." ++ name)

/-- The argument at a position, null if there is none. -/
def argument (args : List Value) (position : Nat) : Value := args.getD position .null

/-- The argument at a position, which must be a text. -/
def textArgument (receiver : Value) (name : String) (args : List Value) (position : Nat) :
    Except Panic String :=
  match args[position]? with
  | some (.string text) => .ok text
  | _ => .error (receiver.badArguments name)

/-- The argument at a position, which must be a number. -/
def numberArgument (receiver : Value) (name : String) (args : List Value) (position : Nat) :
    Except Panic Float :=
  match args[position]? with
  | some (.number x) => .ok x
  | _ => .error (receiver.badArguments name)

/-- The number that a value stands for: that of a text is the one it denotes, blanks around it
aside. -/
def toNumber : Value → Except Panic Float
  | .number x => .ok x
  | .bool true => .ok 1.0
  | .bool false => .ok 0.0
  | .string text =>
    match Decimal.read? (Text.trimBlanks text).toList with
    | some x => .ok x
    | none => .error (.typeMismatch ("'" ++ text ++ "' is not a number"))
  | value => .error (.typeMismatch ("a " ++ value.typeName ++ " is not a number"))

end Value

end ScriptEngine
