import ScriptEngine.Host.Value
import ScriptEngine.OrderedMap

/-!
# Maps and lists of the host

Collections that a script and its host share. A call answers with a value and the collection after
it; a call that fails gives no collection, so that nothing changes.
-/

namespace ScriptEngine

/-- A map of the host. It may be filled with any list of entries; a key then means its first one. -/
abbrev HostMap := Rows HostValue

namespace HostMap

/-- The key that a value stands for: a text itself, a whole number as a 64-bit integer, and anything
without a text of its own by the name of its kind. -/
def keyOf (typeName : HostRef → String) : HostValue → String
  | .string value => value
  | .number value => if Decimal.isWhole value then Decimal.wholeText value else Decimal.plain value
  | .bool true => "true"
  | .bool false => "false"
  | other => other.kindName typeName

/-- How many arguments a method takes. -/
def arity? : String → Option Nat
  | "put" => some 2
  | "get" | "remove" | "containsKey" | "contains_key" => some 1
  | "keys" | "values" | "size" | "isEmpty" => some 0
  | _ => none

/-- The value of a key, null for one that is absent. -/
def value (m : HostMap) (key : String) : HostValue := (m.get? key).getD .null

/-- Calls a method of a map. -/
def call (typeName : HostRef → String) (m : HostMap) (name : String) (args : List HostValue) :
    Except HostError (HostValue × HostMap) := do
  match arity? name with
  | none => throw (.noSuchMethod "HostMap" name)
  | some expected => HostError.checkArity name expected args
  let key := keyOf typeName (args.headD .null)
  match name with
  | "put" => return (m.value key, m.insert key (args.getD 1 .null))
  | "get" => return (m.value key, m)
  | "remove" => return (m.value key, m.erase key)
  | "containsKey" | "contains_key" => return (.bool (m.contains key), m)
  | "keys" => return (.list (m.keys.map .string), m)
  | "values" => return (.list m.values, m)
  | "size" => return (.number (Float.ofNat m.size), m)
  | _ => return (.bool m.isEmpty, m)

/-- The text of the entries. -/
def text (typeName : HostRef → String) (m : HostMap) : String :=
  "[" ++ ", ".intercalate (HostValue.entryTexts typeName m.entries) ++ "]"

end HostMap

/-- A list of the host. -/
abbrev HostList := Array HostValue

namespace HostList

/-- How many arguments a method takes. -/
def arity? : String → Option Nat
  | "set" => some 2
  | "add" | "push" | "get" | "remove" | "contains" => some 1
  | "size" | "isEmpty" => some 0
  | _ => none

/-- The position that a value stands for in a list of this length. -/
def indexOf (typeName : HostRef → String) (index : HostValue) (length : Nat) (method : String) :
    Except HostError Nat :=
  let outOfBounds := HostError.failed (method ++ ": index " ++ index.text typeName ++
    " out of bounds for length " ++ Decimal.natText length)
  match index with
  | .number x =>
    match Decimal.position? x length with
    | some position => .ok position
    | none => .error outOfBounds
  | _ => .error outOfBounds

/-- Calls a method of a list. -/
def call (typeName : HostRef → String) (l : HostList) (name : String) (args : List HostValue) :
    Except HostError (HostValue × HostList) := do
  match arity? name with
  | none => throw (.noSuchMethod "HostList" name)
  | some expected => HostError.checkArity name expected args
  let first := args.headD .null
  match name with
  | "add" | "push" => return (.bool true, l.push first)
  | "get" =>
    let index ← indexOf typeName first l.size name
    return (l.getD index .null, l)
  | "set" =>
    let index ← indexOf typeName first l.size name
    return (l.getD index .null, l.setIfInBounds index (args.getD 1 .null))
  | "remove" =>
    let index ← indexOf typeName first l.size name
    return (l.getD index .null, l.eraseIdxIfInBounds index)
  | "contains" => return (.bool (l.any (HostValue.same · first)), l)
  | "size" => return (.number (Float.ofNat l.size), l)
  | _ => return (.bool l.isEmpty, l)

/-- The text of the items. -/
def text (typeName : HostRef → String) (l : HostList) : String :=
  "[" ++ ", ".intercalate (HostValue.texts typeName l.toList) ++ "]"

end HostList

end ScriptEngine
