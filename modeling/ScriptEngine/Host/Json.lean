import ScriptEngine.Host.Object
import ScriptEngine.Json.Basic

/-!
# Host values and JSON

Every JSON value is a host value, its members in the order of their keys. A host value without
objects in it has a JSON value.
-/

namespace ScriptEngine

mutual

/-- The host value of a JSON value. -/
def HostValue.ofJson : Json → HostValue
  | .null => .null
  | .bool value => .bool value
  | .number value => .number value
  | .string value => .string value
  | .array items => .list (HostValue.ofJsonItems items)
  | .object members => .map (HostValue.ofJsonMembers members)

/-- The host values of the items of an array. -/
def HostValue.ofJsonItems : List Json → List HostValue
  | [] => []
  | item :: items => .ofJson item :: HostValue.ofJsonItems items

/-- The entries of a map for the members of an object. -/
def HostValue.ofJsonMembers : List (String × Json) → List (String × HostValue)
  | [] => []
  | (key, value) :: members => (key, .ofJson value) :: HostValue.ofJsonMembers members

end

mutual

/-- The JSON value of a host value. Objects have none. -/
def HostValue.toJson (typeName : HostRef → String) : HostValue → Except HostError Json
  | .null => .ok .null
  | .bool value => .ok (.bool value)
  | .number value => .ok (.number value)
  | .string value => .ok (.string value)
  | .list items => do return .array (← HostValue.toJsonItems typeName items)
  | .map entries => do
    return .object (Json.sortMembers (← HostValue.toJsonEntries typeName entries))
  | .object ref => .error (.failed (typeName ref ++ " cannot be written as JSON"))

/-- The JSON values of the items of a list. -/
def HostValue.toJsonItems (typeName : HostRef → String) :
    List HostValue → Except HostError (List Json)
  | [] => .ok []
  | item :: items => do
    let first ← item.toJson typeName
    return first :: (← HostValue.toJsonItems typeName items)

/-- The members for the entries of a map. -/
def HostValue.toJsonEntries (typeName : HostRef → String) :
    List (String × HostValue) → Except HostError (List (String × Json))
  | [] => .ok []
  | (key, value) :: entries => do
    let first ← value.toJson typeName
    return (key, first) :: (← HostValue.toJsonEntries typeName entries)

end

end ScriptEngine
