import ScriptEngine.Store.Basic

/-!
# Values that cross the border to the host

A script gives its data to the host by value, and host objects as themselves. Tuples arrive as
lists, entities as maps of their data, captured results as what they hold; functions and the like
cannot cross.
-/

namespace ScriptEngine.Store

/-- Why a value cannot cross. -/
def cannotCross (value : Value) : Panic :=
  .externalFailure ("a " ++ value.typeName ++ " cannot be passed to the host")

mutual

/-- The host value of a script value. The fuel bounds how many cells are entered on the way to any
part of it. -/
def marshalFrom (s : Store) (fuel : Nat) (value : Value) : Except Panic HostValue :=
  match value with
  | .null | .unit => .ok .null
  | .bool value => .ok (.bool value)
  | .number value => .ok (.number value)
  | .string value => .ok (.string value)
  | .tuple items => do return .list (← s.marshalItems fuel items)
  | .external ref => .ok (.object ref)
  | .array id =>
    match fuel with
    | 0 => .error (cannotCross value)
    | fuel + 1 => do return .list (← s.marshalItems fuel (s.array id).toList)
  | .map id =>
    match fuel with
    | 0 => .error (cannotCross value)
    | fuel + 1 => do return .map (← s.marshalEntries fuel (s.map id).entries)
  | .entity entity =>
    match s.entityHost? entity with
    | some ref => .ok (.object ref)
    | none =>
      match fuel with
      | 0 => .error (cannotCross value)
      | fuel + 1 => do
        return .map (← s.marshalEntries fuel ((s.arena entity.env).dataMembers entity.id))
  | .safe id =>
    match fuel with
    | 0 => .error (cannotCross value)
    | fuel + 1 =>
      match s.captured id with
      | .ok value => s.marshalFrom fuel value
      | .error _ => .ok .null
  | .function _ | .hostClass _ | .promise _ | .space _ => .error (cannotCross value)
termination_by (fuel, sizeOf value)

/-- The host values of a list of script values. -/
def marshalItems (s : Store) (fuel : Nat) (items : List Value) :
    Except Panic (List HostValue) :=
  match items with
  | [] => .ok []
  | item :: items => do
    let first ← s.marshalFrom fuel item
    return first :: (← s.marshalItems fuel items)
termination_by (fuel, sizeOf items)

/-- The entries of a host map of named script values. -/
def marshalEntries (s : Store) (fuel : Nat) (entries : List (String × Value)) :
    Except Panic (List (String × HostValue)) :=
  match entries with
  | [] => .ok []
  | (key, value) :: entries => do
    let first ← s.marshalFrom fuel value
    return (key, first) :: (← s.marshalEntries fuel entries)
termination_by (fuel, sizeOf entries)

end

/-- The number of cells that data can be nested in. -/
def cellCount (s : Store) : Nat :=
  s.arrays.size + s.maps.size + s.safes.size + s.arenas.foldl (fun n arena => n + arena.size) 0

/-- The host value of a script value. In a value without cycles every cell is entered at most once
on a way down, and at its end may stand one that is not there: that is fuel enough. -/
def toHost (s : Store) (value : Value) : Except Panic HostValue :=
  s.marshalFrom (s.cellCount + 1) value

/-- The host values of some script values. -/
def allToHost (s : Store) (values : List Value) : Except Panic (List HostValue) :=
  s.marshalItems (s.cellCount + 1) values

mutual

/-- The script value of a host value, whose lists and maps become new cells. -/
def ofHost (s : Store) : HostValue → Value × Store
  | .null => (.null, s)
  | .bool value => (.bool value, s)
  | .number value => (.number value, s)
  | .string value => (.string value, s)
  | .list items =>
    let (items, s) := s.ofHostItems items
    s.newArray items.toArray
  | .map entries =>
    let (entries, s) := s.ofHostEntries entries
    s.newMap (.ofList entries)
  | .object ref => (.external ref, s)

/-- The script values of a list of host values. -/
def ofHostItems (s : Store) : List HostValue → List Value × Store
  | [] => ([], s)
  | item :: items =>
    let (first, s) := s.ofHost item
    let (rest, s) := s.ofHostItems items
    (first :: rest, s)

/-- The script values of named host values. -/
def ofHostEntries (s : Store) : List (String × HostValue) → List (String × Value) × Store
  | [] => ([], s)
  | (key, value) :: entries =>
    let (first, s) := s.ofHost value
    let (rest, s) := s.ofHostEntries entries
    ((key, first) :: rest, s)

end

/-- A property of a host object. That of an entity is a member which is data. -/
def hostProperty? (s : Store) (ref : HostRef) (name : String) : Option HostValue :=
  match s.host? ref with
  | some (.map entries) => entries.get? name
  | some (.custom object) => object.behaviour.property? object.state name
  | some (.script proxy) =>
    match s.member? proxy.entity name with
    | none | some (.function _) => none
    | some value => (s.toHost value).toOption
  | some (.list _) | none => none

end ScriptEngine.Store
