import ScriptEngine.Evaluation.Builtin
import ScriptEngine.Store.Equality
import ScriptEngine.Text.Casing
import ScriptEngine.Text.Search

/-!
# Methods of values

What the methods do that values have without being given any.
-/

namespace ScriptEngine

/-- Why a value has no such method. -/
def Value.noMethod (receiver : Value) (name : String) : Panic :=
  .memberNotFound receiver.typeName name

/-- The characters of a text between two numbers. The numbers must be in order and within the text;
their fractions are cut off. What is left of them may be neither in order nor within the text: then there
is nothing between them. -/
def Text.between? (text : List Char) (start stop : Float) : Except Unit (Option (List Char)) :=
  if start < 0.0 || stop < start || stop > Float.ofNat text.length then .error ()
  else if Decimal.steps stop < Decimal.steps start || text.length < Decimal.steps stop then .ok none
  else .ok (some (Text.slice (Decimal.steps start) (Decimal.steps stop) text))

namespace Eval

/-! ## Texts -/

/-- Calls a method of a text. -/
def stringMethod (method : StringMethod) (receiver : Value) (text name : String)
    (args : List Value) : Eval Value := do
  let textAt (position : Nat) : Eval (List Char) := do
    return (← ofExcept (receiver.textArgument name args position)).toList
  match method with
  | .size => return .ofNat text.length
  | .trim => return .string (Text.trimBlanks text)
  | .upper => return .string (Text.toUpper text)
  | .lower => return .string (Text.toLower text)
  | .split =>
    let pieces := Text.pieces (← textAt 0) text.toList
    newArray (pieces.map fun piece => .string (String.ofList piece))
  | .startsWith => return .bool ((← textAt 0).isPrefixOf text.toList)
  | .endsWith => return .bool ((← textAt 0).isSuffixOf text.toList)
  | .contains => return .bool (Text.indexOf? (← textAt 0) text.toList).isSome
  | .replace =>
    let old ← textAt 0
    let new ← textAt 1
    return .string (String.ofList (Text.replace old new text.toList))
  | .indexOf =>
    match Text.indexOf? (← textAt 0) text.toList with
    | some position => return .ofNat position
    | none => return .number (-1.0)
  | .substring =>
    let start ← ofExcept (receiver.numberArgument name args 0)
    let stop ← match args[1]? with
      | some _ => ofExcept (receiver.numberArgument name args 1)
      | none => pure (Float.ofNat text.length)
    match Text.between? text.toList start stop with
    | .ok (some part) => return .string (String.ofList part)
    | .ok none => crash
    | .error () => panic (receiver.badArguments name)
  | .toNum => return .number (← ofExcept receiver.toNumber)

/-! ## Arrays -/

/-- Calls a function with every item in order and gives the results. -/
def mapItems (m : Machine) (callback : Value) : List Value → Array Value → Eval (List Value)
  | [], results => return results.toList
  | item :: items, results => do
    let result ← m.run (.call callback [item] none)
    mapItems m callback items (results.push result)

/-- Calls a function with every item in order. -/
def eachItem (m : Machine) (callback : Value) : List Value → Eval Unit
  | [] => pure ()
  | item :: items => do
    let _ ← m.run (.call callback [item] none)
    eachItem m callback items

/-- The items for which a function gives something that counts as true. -/
def filterItems (m : Machine) (callback : Value) : List Value → Array Value → Eval (List Value)
  | [], kept => return kept.toList
  | item :: items, kept => do
    let keep := (← m.run (.call callback [item] none)).isTruthy
    filterItems m callback items (if keep then kept.push item else kept)

/-- Combines a value with every item in order. -/
def foldItems (m : Machine) (callback : Value) : List Value → Value → Eval Value
  | [], value => return value
  | item :: items, value => do
    foldItems m callback items (← m.run (.call callback [value, item] none))

/-- Starts a task for every item, which calls a function with it. -/
def spawnItems (callback : Value) : List Value → Array PromiseId → Eval (List PromiseId)
  | [], promises => return promises.toList
  | item :: items, promises => do
    let promise ← enqueue (← read) "parallel" (.apply callback [item])
    spawnItems callback items (promises.push promise)

/-- The values of promises in order; the first panic among them ends it. -/
def joinAll : List PromiseId → Array Value → Eval (List Value)
  | [], values => return values.toList
  | promise :: promises, values => do
    let value ← ofExcept (← await promise)
    joinAll promises (values.push value)

/-- The function among the arguments of a method that calls it for the items; that of a reduction
may stand behind a first value. -/
def callback? (method : ArrayMethod) : List Value → Option Value
  | [.function id] => some (.function id)
  | [_, .function id] => if method = .reduce then some (.function id) else none
  | _ => none

/-- Calls a method of an array that calls a function for the items which the array has now. -/
def itemMethod (m : Machine) (method : ArrayMethod) (receiver : Value) (items : List Value)
    (name : String) (args : List Value) : Eval Value := do
  match callback? method args with
  | none => panic (receiver.badArguments name)
  | some callback =>
    match method with
    | .forEach =>
      eachItem m callback items
      return .unit
    | .map => newArray (← mapItems m callback items #[])
    | .filter => newArray (← filterItems m callback items #[])
    | .reduce =>
      match args, items with
      | [first, _], items => foldItems m callback items first
      | _, first :: items => foldItems m callback items first
      | _, [] => return .null
    | _ =>
      let promises ← spawnItems callback items #[]
      newArray (← joinAll promises #[])

/-- Calls a method of an array. -/
def arrayMethod (m : Machine) (method : ArrayMethod) (receiver : Value) (id : ArrayId)
    (name : String) (args : List Value) : Eval Value := do
  let size ← ask fun s => (s.array id).size
  let index : Eval Float := ofExcept (receiver.numberArgument name args 0)
  match method with
  | .push =>
    change (·.modifyArray id (· ++ args))
    return .unit
  | .pop =>
    let last ← ask fun s => (s.array id).back?
    change (·.modifyArray id (·.pop))
    return last.getD .null
  | .insert =>
    let x ← index
    match Decimal.gap? x size with
    | some position =>
      change (·.modifyArray id fun items =>
        items.insertIdxIfInBounds position (Value.argument args 1))
      return .unit
    | none => panic (.outOfBounds x size)
  | .remove =>
    let x ← index
    match Decimal.position? x size with
    | some position =>
      let removed ← ask fun s => (s.array id).getD position .null
      change (·.modifyArray id (·.eraseIdxIfInBounds position))
      return removed
    | none => panic (.outOfBounds x size)
  | .get =>
    let x ← index
    demand fun s => arrayItem (s.array id) x
  | .set =>
    setArrayItem id (← index) (Value.argument args 1)
    return .unit
  | .size => return .ofNat size
  | .isEmpty => return .bool (size == 0)
  | .contains =>
    let wanted := Value.argument args 0
    ask fun s => .bool ((s.array id).any fun item => s.equals item wanted)
  | .join =>
    let separator ← match args with
      | [] => pure ""
      | _ => ofExcept (receiver.textArgument name args 0)
    ask fun s => .string (separator.intercalate ((s.array id).toList.map s.display))
  | _ => itemMethod m method receiver (← ask fun s => (s.array id).toList) name args

/-! ## Other kinds -/

/-- Calls a method of a map. -/
def mapMethod (method : MapMethod) (id : MapId) (args : List Value) : Eval Value := do
  match method with
  | .put =>
    let key ← keyInto id (Value.argument args 0)
    let found ← ask fun s => ((s.map id).get? key).getD .null
    change (·.modifyMap id (·.insert key (Value.argument args 1)))
    return found
  | .get => ask fun s => ((s.map id).get? (s.keyOf (Value.argument args 0))).getD .null
  | .remove =>
    let key ← keyInto id (Value.argument args 0)
    let found ← ask fun s => ((s.map id).get? key).getD .null
    change (·.modifyMap id (·.erase key))
    return found
  | .containsKey => ask fun s => .bool ((s.map id).contains (s.keyOf (Value.argument args 0)))
  | .keys => newArray (← ask fun s => (s.map id).keys.map .string)
  | .values => newArray (← ask fun s => (s.map id).values)
  | .size => ask fun s => .ofNat (s.map id).size
  | .isEmpty => ask fun s => .bool (s.map id).isEmpty

/-- Calls a method of a tuple. -/
def tupleMethod (method : TupleMethod) (receiver : Value) (items : List Value) (name : String)
    (args : List Value) : Eval Value := do
  match method with
  | .size => return .ofNat items.length
  | .get => ofExcept (itemAt items (← ofExcept (receiver.numberArgument name args 0)))

/-- Calls a method of a promise. -/
def promiseMethod (m : Machine) (method : PromiseMethod) (receiver : Value) (id : PromiseId)
    (name : String) (args : List Value) : Eval Value := do
  match method, Value.argument args 0 with
  | .await, _ => ofExcept (← await id)
  | .andThen, .function callback => andThen m id (.function callback)
  | .andThen, _ => panic (receiver.badArguments name)

/-- Calls a method of a captured result. -/
def safeMethod (method : SafeMethod) (result : Except Panic Value) : Value :=
  match method, result with
  | .panicCode, .ok _ => .ofNat 0
  | .panicCode, .error p => .number (Float.ofInt p.code.value)
  | .get, .ok value => value
  | .get, .error _ => .null
  | .panicMessage, .ok _ => .null
  | .panicMessage, .error p => .string p.message

/-- Calls a method that a value has without being given it. -/
def builtinMethod (m : Machine) (receiver : Value) (name : String) (args : List Value) :
    Eval Value := do
  let missing : Eval Value := panic (receiver.noMethod name)
  if name == Value.textMethod then return .string (← display receiver)
  else
    match receiver with
    | .string text =>
      match StringMethod.ofName? name with
      | some method => stringMethod method receiver text name args
      | none => missing
    | .number x =>
      match NumberMethod.ofName? name with
      | some method => return .number (method.apply x)
      | none => missing
    | .array id =>
      match ArrayMethod.ofName? name with
      | some method => arrayMethod m method receiver id name args
      | none => missing
    | .map id =>
      match MapMethod.ofName? name with
      | some method => mapMethod method id args
      | none => missing
    | .tuple items =>
      match TupleMethod.ofName? name with
      | some method => tupleMethod method receiver items name args
      | none => missing
    | .promise id =>
      match PromiseMethod.ofName? name with
      | some method => promiseMethod m method receiver id name args
      | none => missing
    | .safe id =>
      match SafeMethod.ofName? name with
      | some method => return safeMethod method (← ask (·.captured id))
      | none => missing
    | .entity entity =>
      match EntityMethod.ofName? name with
      | some .keys => newArray (← ask fun s => (s.members entity).map fun (key, _) => .string key)
      | none => missing
    | _ => missing

end Eval

end ScriptEngine
