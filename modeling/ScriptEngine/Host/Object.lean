import ScriptEngine.Host.Collections

/-!
# Objects and classes of the host

What the host lends to scripts: its collections, objects with a behaviour of its own, and entities
of scripts that it uses as objects.
-/

namespace ScriptEngine

/-- The number of an environment. -/
abbrev EnvId := Nat

/-- An entity: its environment and its number there. -/
structure EntityRef where
  env : EnvId
  id : Nat
deriving Repr, DecidableEq, Inhabited

/-- The named values that make up an object of the host. -/
abbrev HostState := List (String × HostValue)

/-- How a kind of host objects behaves. -/
structure HostBehaviour where
  typeName : String
  /-- How many arguments a method takes, if it declares that. -/
  arity? : String → Option Nat
  call : HostState → String → List HostValue → Except HostError (HostValue × HostState)
  property? : HostState → String → Option HostValue
  setProperty : HostState → String → HostValue → Except HostError HostState

/-- An object of the host. -/
structure HostInstance where
  behaviour : HostBehaviour
  state : HostState

/-- What a call of a class gives. -/
inductive HostResult
  | value (value : HostValue)
  | created (object : HostInstance)

/-- A class of the host: scripts make objects of it from the data members of a literal, or call it.
-/
structure HostClass where
  name : String
  construct : HostState → Except HostError HostInstance
  callStatic : String → List HostValue → Except HostError HostResult

/-- The names of the methods that an object answers to. -/
structure InterfaceShape where
  name : String
  methods : List String
deriving Repr, DecidableEq, Inhabited

/-- Whether a method belongs to an interface. -/
def InterfaceShape.declares (shape : InterfaceShape) (method : String) : Bool :=
  shape.methods.contains method

/-- An entity of a script that the host uses as an object. Methods that the entity lacks are those
of its own host object, or else of the fallback. -/
structure ScriptProxy where
  shape : InterfaceShape
  entity : EntityRef
  fallback : Option HostRef
deriving Repr, Inhabited

/-- An object in the hands of the host. -/
inductive HostObject
  | map (entries : HostMap)
  | list (items : HostList)
  | custom (object : HostInstance)
  | script (proxy : ScriptProxy)

instance : Inhabited HostObject := ⟨.list #[]⟩

namespace HostObject

/-- The name of the type of an object. -/
def typeName : HostObject → String
  | .map _ => "HostMap"
  | .list _ => "HostList"
  | .custom object => object.behaviour.typeName
  | .script proxy => proxy.shape.name

/-- How many arguments a method takes, if the object declares that. -/
def arity? : HostObject → String → Option Nat
  | .map _, name => HostMap.arity? name
  | .list _, name => HostList.arity? name
  | .custom object, name => object.behaviour.arity? name
  | .script _, _ => none

/-- Whether an object has a method of this name. -/
def hasMethod : HostObject → String → Bool
  | .script proxy, name => proxy.shape.declares name
  | object, name => (object.arity? name).isSome

/-- The object after a property is set. -/
def setProperty (object : HostObject) (name : String) (value : HostValue) :
    Except HostError HostObject :=
  match object with
  | .map entries => .ok (.map (entries.insert name value))
  | .custom object => do
    return .custom { object with state := ← object.behaviour.setProperty object.state name value }
  | .list _ | .script _ => .error (.noSuchProperty object.typeName name)

end HostObject

/-- A table of host objects. -/
abbrev HostTable := Array HostObject

/-- The name of the type of an object in a table. -/
def HostTable.typeName (table : HostTable) (ref : HostRef) : String :=
  match table[ref]? with
  | some object => object.typeName
  | none => ""

end ScriptEngine
