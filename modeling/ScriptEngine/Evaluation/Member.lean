import ScriptEngine.Evaluation.Basic
import ScriptEngine.Method

/-!
# Names and members

What a name means in a frame, and the members, items and positions of values: how they are read and
written.
-/

namespace ScriptEngine

/-- The panic for an error of the host. -/
def HostError.panic (e : HostError) : Panic :=
  let code : PanicCode := match e with
    | .noSuchMethod .. | .noSuchProperty .. => .memberNotFound
    | .argumentMismatch .. => .argumentMismatch
    | .notImplemented _ | .failed _ => .externalFailure
  ⟨code, e.message⟩

namespace Eval

/-! ## Names -/

/-- The value of a binding of the host. -/
def bound (name : String) : Binding → Eval Value
  | .object value => fromHost value
  | .hostClass ref => return .hostClass ref
  | .remote spec => newFunction (.remote name spec)

/-- The entity of utility functions of the environment, made when it is first asked for. -/
def utility : Eval Value := do
  match (← environment).utility with
  | some entity => return .entity entity
  | none =>
    let env ← read
    let entity ← make (·.newEntity env none)
    Builtin.utilities.forM fun builtin => do
      let function ← newFunction (.native builtin)
      change (·.define entity builtin.name function)
    modify (·.modifyEnvironment env fun e => { e with utility := some entity })
    return .entity entity

/-- The value of a name that is always there. -/
def builtinNamed (name : String) : Eval Value :=
  if name == "util" then utility
  else
    match Builtin.ofName? name with
    | some builtin => newFunction (.native builtin)
    | none => panic (.varNotFound name)

/-- The value of a name that no frame declares: a grant of the environment, a binding of its forest,
or else something that is always there. -/
def lookupGlobal (name : String) : Eval Value := do
  match (← environment).resolve? name with
  | some binding => bound name binding
  | none => builtinNamed name

/-- The value of a member that the entity of a frame or its host object has. -/
def ownMember? (frame : FrameId) (name : String) : Eval (Option Value) := do
  match ← this? frame with
  | none => return none
  | some entity =>
    match ← ask (·.member? entity name) with
    | some value => return some value
    | none =>
      let property ← ask fun s => (s.entityHost? entity).bind (s.hostProperty? · name)
      match property with
      | some value => return some (← fromHost value)
      | none => return none

/-- The value of a name that a frame or one of those around it declares. -/
def declared? (frame : FrameId) (name : String) : Eval (Option Value) :=
  make fun s =>
    let (value?, frames) := s.frames.lookUp frame name
    (value?, { s with frames := frames })

/-- The value of a name: that of a frame, a member of the entity that the frame belongs to, or a
global one. -/
def lookup (frame : FrameId) (name : String) : Eval Value := do
  match ← declared? frame name with
  | some value => return value
  | none =>
    match ← ownMember? frame name with
    | some value => return value
    | none => lookupGlobal name

/-- Assigns a name that a frame declares, or else a member of the entity that the frame belongs to.
-/
def assignName (frame : FrameId) (name : String) (value : Value) : Eval Unit := do
  match ← ask (·.frames.slot? frame name) with
  | some slot => change fun s => { s with frames := s.frames.write slot value }
  | none =>
    match ← this? frame with
    | some entity => change (·.setMember entity name value)
    | none => panic (.varNotFound name)

/-- Assigns names in order. -/
def assignNames (frame : FrameId) : List (String × Value) → Eval Unit
  | [] => pure ()
  | (name, value) :: rest => do
    assignName frame name value
    assignNames frame rest

/-! ## Members -/

/-- Fails if a member is private and the viewer is not related to its entity. -/
def checkPrivate (entity : EntityRef) (name : String) (viewer : Option EntityRef) :
    Eval Unit := do
  let allowed ← ask fun s =>
    !isPrivateName name || viewer.any fun viewer => s.related viewer entity
  if !allowed then panic ⟨.memberNotFound, "'" ++ name ++ "' is private to its entity"⟩

/-- A name of a namespace. -/
def spaceMember (space : FrameId) (name : String) : Eval Value := do
  match ← ask (·.frames.local? space name) with
  | some value => return value
  | none => panic (.varNotFound name)

/-- A method of a value that is not called yet, if the value has it. -/
def boundMethod (receiver : Value) (name : String) (orElse : Eval Value) : Eval Value :=
  if receiver.hasMethod name then newFunction (.method receiver name) else orElse

/-- A property of a host object, or else a method of it that is not called yet. -/
def hostMember (ref : HostRef) (receiver : Value) (name : String) : Eval Value := do
  match ← ask (·.hostProperty? ref name) with
  | some value => fromHost value
  | none => newFunction (.method receiver name)

/-- A member of a value, as the viewer sees it. -/
def member (object : Value) (name : String) (viewer : Option EntityRef) : Eval Value := do
  match object with
  | .entity entity =>
    checkPrivate entity name viewer
    match ← ask (·.member? entity name) with
    | some value => return value
    | none =>
      if name == "base" then
        match ← ask (·.base? entity) with
        | some base => return .entity base
        | none => return .null
      else
        match ← ask (·.entityHost? entity) with
        | some ref => hostMember ref object name
        | none => boundMethod object name (panic (.memberNotFound "entity" name))
  | .map id =>
    match ← ask fun s => (s.map id).get? name with
    | some value => return value
    | none => boundMethod object name (return .null)
  | .external ref => hostMember ref object name
  | .hostClass _ => newFunction (.method object name)
  | .space space => spaceMember space name
  | _ => boundMethod object name (panic (.memberNotFound object.typeName name))

/-- Sets a property of a host object. -/
def setProperty (ref : HostRef) (name : String) (value : Value) : Eval Unit := do
  let value ← demand (·.toHost value)
  match ← ask (·.withProperty? ref name value) with
  | some (.ok object) => change (·.setHost ref object)
  | some (.error e) => panic e.panic
  | none => pure ()

/-- Assigns a member of a value, as the viewer sees it. -/
def setMember (object : Value) (name : String) (value : Value) (viewer : Option EntityRef) :
    Eval Unit := do
  match object with
  | .entity entity =>
    checkPrivate entity name viewer
    let host? ← ask fun s =>
      if (s.member? entity name).isSome then none else s.entityHost? entity
    match host? with
    | some ref => setProperty ref name value
    | none => change (·.setMember entity name value)
  | .map id => change (·.modifyMap id (·.insert name value))
  | .external ref => setProperty ref name value
  | _ => panic (.memberNotFound object.typeName name)

/-! ## Items -/

/-- The item at the position that a number stands for. -/
def itemAt (items : List Value) (index : Float) : Except Panic Value :=
  match (Decimal.position? index items.length).bind (items[·]?) with
  | some item => .ok item
  | none => .error (.outOfBounds index items.length)

/-- The item of an array at the position that a number stands for. -/
def arrayItem (items : Array Value) (index : Float) : Except Panic Value :=
  match (Decimal.position? index items.size).bind (items[·]?) with
  | some item => .ok item
  | none => .error (.outOfBounds index items.size)

/-- The character of a text behind so many others, counted from a place. -/
def characterBehind? (text : String) : Nat → String.Pos.Raw → Option Char
  | 0, place => place.get? text
  | before + 1, place => characterBehind? text before (place.next text)

/-- The character of a text at the position that a number stands for. -/
def characterAt (text : String) (index : Float) : Except Panic Value :=
  match (Decimal.position? index text.length).bind (characterBehind? text · 0) with
  | some c => .ok (.string c.toString)
  | none => .error (.outOfBounds index text.length)

/-- What a value holds under an index, as the viewer sees it. -/
def item (m : Machine) (object index : Value) (viewer : Option EntityRef) : Eval Value := do
  match object, index with
  | .array id, .number x => demand fun s => arrayItem (s.array id) x
  | .tuple items, .number x => ofExcept (itemAt items x)
  | .string text, .number x => ofExcept (characterAt text x)
  | .map id, key => ask fun s => ((s.map id).get? (s.keyOf key)).getD .null
  | .entity _, .string name => member object name viewer
  | .external _, _ => m.run (.callMethod object "get" [index] viewer)
  | _, _ =>
    panic (.typeMismatch ("cannot index a " ++ object.typeName ++ " with a " ++ index.typeName))

/-- Puts an item into an array at the position that a number stands for. -/
def setArrayItem (id : ArrayId) (index : Float) (value : Value) : Eval Unit := do
  let size ← ask fun s => (s.array id).size
  match Decimal.position? index size with
  | some position => change (·.modifyArray id (·.setIfInBounds position value))
  | none => panic (.outOfBounds index size)

/-- The key under which a value is put into a map. A map cannot be shown while it is written to, so
there is no end if the key shows it. -/
def keyInto (id : MapId) (key : Value) : Eval String := do
  if ← ask (·.shows id Store.shownLevels key) then unfinished
  else ask (·.keyOf key)

/-- Assigns what a value holds under an index, as the viewer sees it. -/
def setItem (object index value : Value) (viewer : Option EntityRef) : Eval Unit := do
  match object, index with
  | .array id, .number x => setArrayItem id x value
  | .map id, key =>
    let key ← keyInto id key
    change (·.modifyMap id (·.insert key value))
  | .entity _, .string name => setMember object name value viewer
  | _, _ =>
    panic (.typeMismatch ("cannot assign into a " ++ object.typeName ++ " by " ++ index.typeName))

/-- The item of a value at a position. -/
def positional (object : Value) (index : Nat) : Eval Value := do
  match ← ask (·.positional? object) with
  | none => panic (.typeMismatch ("a " ++ object.typeName ++ " has no positional members"))
  | some items =>
    match items[index]? with
    | some item => return item
    | none => panic (.outOfBounds (Float.ofNat index) items.length)

/-- Assigns the item of a value at a position. -/
def setPositional (object : Value) (index : Nat) (value : Value) : Eval Unit := do
  match object with
  | .array id =>
    let size ← ask fun s => (s.array id).size
    if index < size then change (·.modifyArray id (·.setIfInBounds index value))
    else panic (.outOfBounds (Float.ofNat index) size)
  | _ =>
    panic (.invalidOperation ("a " ++ object.typeName ++ " cannot be assigned by position"))

/-! ## Places -/

/-- Something that can be assigned, its parts evaluated. -/
inductive Place
  | name (name : String)
  | member (object : Value) (name : String)
  | item (object index : Value)
  | position (object : Value) (index : Nat)

/-- The value in a place. -/
def readPlace (m : Machine) (place : Place) (frame : FrameId) : Eval Value := do
  match place with
  | .name name => lookup frame name
  | .member object name => member object name (← this? frame)
  | .item object index => item m object index (← this? frame)
  | .position object index => positional object index

/-- Puts a value into a place. -/
def writePlace (place : Place) (value : Value) (frame : FrameId) : Eval Unit := do
  match place with
  | .name name => assignName frame name value
  | .member object name => setMember object name value (← this? frame)
  | .item object index => setItem object index value (← this? frame)
  | .position object index => setPositional object index value

/-! ## Elements -/

/-- Appends the items of a host object from a position on to those before it. -/
def hostItems (m : Machine) (ref : HostRef) : Nat → Nat → Array Value → Eval (List Value)
  | 0, _, items => return items.toList
  | count + 1, position, items => do
    match ← m.run (.callHost ref "get" [.number (Float.ofNat position)]) with
    | .ok value => hostItems m ref count (position + 1) (items.push (← fromHost value))
    | .error e => panic e.panic

/-- The elements that a loop over a value visits. -/
def elements (m : Machine) (value : Value) : Eval (List Value) := do
  match value with
  | .array id => ask fun s => (s.array id).toList
  | .tuple items => return items
  | .map id => ask fun s => (s.map id).entries.map fun (key, value) => .tuple [.string key, value]
  | .entity entity =>
    ask fun s => (s.members entity).map fun (name, value) => .tuple [.string name, value]
  | .string text => return text.toList.map fun c => .string c.toString
  | .external ref =>
    match ← m.run (.callHost ref "size" []) with
    | .ok (.number size) => hostItems m ref (Decimal.steps size) 0 #[]
    | _ => panic (.typeMismatch ((← ask (·.hostTypeName ref)) ++ " is not iterable"))
  | _ => panic (.typeMismatch ("a " ++ value.typeName ++ " is not iterable"))

end Eval

end ScriptEngine
