import ScriptEngine.Entity.Arena
import ScriptEngine.Panic
import ScriptEngine.Store.Frames

/-!
# The store

All that a value can refer to: frames, the cells of arrays, maps, functions and captured results,
promises, the entities of each environment, and the objects and classes of the host. Every kind of
cell has its own numbers, given in the order of making.

A promise is settled once. What is registered before that waits for the result; what comes later gets it at
once.
-/

namespace ScriptEngine

/-! ## Promises

`α` is the type of results, `κ` that of what is registered.
-/

/-- Whether a promise has a result, and what waits for it. -/
inductive PromiseState (α κ : Type)
  | pending (waiting : List κ)
  | settled (result : Except Panic α)

/-- The result of a task that may not have come yet. -/
structure Promise (α κ : Type) where
  label : String
  state : PromiseState α κ

namespace Promise

variable {α κ : Type}

instance : Inhabited (Promise α κ) := ⟨⟨"", .pending []⟩⟩

/-- A promise without a result. -/
def fresh (label : String) : Promise α κ := ⟨label, .pending []⟩

/-- The result, if there is one. -/
def result? (p : Promise α κ) : Option (Except Panic α) :=
  match p.state with
  | .pending _ => none
  | .settled result => some result

/-- Settles a promise: whether this was the first time, what is to be run with the result now, and
the promise after it. -/
def settle (p : Promise α κ) (result : Except Panic α) : Bool × List κ × Promise α κ :=
  match p.state with
  | .pending waiting => (true, waiting, { p with state := .settled result })
  | .settled _ => (false, [], p)

/-- Registers what is to be run with the result: the promise after it, and the result if there is
one to run it with at once. -/
def onSettle (p : Promise α κ) (continuation : κ) : Option (Except Panic α) × Promise α κ :=
  match p.state with
  | .pending waiting => (none, { p with state := .pending (waiting ++ [continuation]) })
  | .settled result => (some result, p)

/-- What can be seen of a call on a promise. -/
inductive Event (α κ : Type)
  /-- A result was offered, and this is what the call of `settle` answers. -/
  | offered (result : Except Panic α) (first : Bool)
  | registered (continuation : κ)
  /-- A continuation begins to run with a result, and these are to come behind it. -/
  | ran (continuation : κ) (behind : List κ) (result : Except Panic α)
  | returned (continuation : κ)
  /-- A wait for the result has come to it. -/
  | waited (result : Except Panic α)

end Promise

/-! ## Cells -/

/-- A function that waits for a promise, and the promise of its own result. -/
structure Continuation where
  callback : Value
  chained : PromiseId
  env : EnvId
deriving Repr, Inhabited

/-- All cells. -/
structure Store where
  frames : Frames
  arrays : Array (Array Value)
  maps : Array (OrderedMap Value)
  functions : Array Callable
  safes : Array (Except Panic Value)
  promises : Array (Promise Value Continuation)
  arenas : Array Arena
  hosts : HostTable
  classes : Array HostClass

namespace Store

/-- A store without cells. -/
def empty : Store := ⟨.empty, #[], #[], #[], #[], #[], #[], #[], #[]⟩

/-! ## Arrays -/

/-- The items of an array. -/
def array (s : Store) (id : ArrayId) : Array Value := s.arrays.getD id #[]

/-- Adds an array. -/
def newArray (s : Store) (items : Array Value) : Value × Store :=
  (.array s.arrays.size, { s with arrays := s.arrays.push items })

/-- Changes the items of an array. -/
def modifyArray (s : Store) (id : ArrayId) (f : Array Value → Array Value) : Store :=
  { s with arrays := s.arrays.modify id f }

/-! ## Maps -/

/-- The entries of a map. -/
def map (s : Store) (id : MapId) : OrderedMap Value := s.maps.getD id .empty

/-- Adds a map. -/
def newMap (s : Store) (entries : OrderedMap Value) : Value × Store :=
  (.map s.maps.size, { s with maps := s.maps.push entries })

/-- Changes the entries of a map. -/
def modifyMap (s : Store) (id : MapId) (f : OrderedMap Value → OrderedMap Value) : Store :=
  { s with maps := s.maps.modify id f }

/-! ## Functions, captured results and promises -/

/-- What a function value calls. -/
def function (s : Store) (id : FunctionId) : Callable := s.functions.getD id default

/-- Adds a function. -/
def newFunction (s : Store) (callable : Callable) : Value × Store :=
  (.function s.functions.size, { s with functions := s.functions.push callable })

/-- A captured result. -/
def captured (s : Store) (id : SafeId) : Except Panic Value := s.safes.getD id (.ok .null)

/-- Adds a captured result. -/
def newSafe (s : Store) (result : Except Panic Value) : Value × Store :=
  (.safe s.safes.size, { s with safes := s.safes.push result })

/-- A promise. -/
def promise (s : Store) (id : PromiseId) : Promise Value Continuation := s.promises.getD id default

/-- Adds a promise without a result. -/
def newPromise (s : Store) (label : String) : PromiseId × Store :=
  (s.promises.size, { s with promises := s.promises.push (.fresh label) })

/-! ## Entities -/

/-- The entities of an environment. -/
def arena (s : Store) (env : EnvId) : Arena := s.arenas.getD env .empty

/-- Changes the entities of an environment. -/
def modifyArena (s : Store) (env : EnvId) (f : Arena → Arena) : Store :=
  { s with arenas := s.arenas.modify env f }

/-- The store in which an environment has a place for its entities. -/
def openArena (s : Store) (env : EnvId) : Store :=
  { s with arenas := s.arenas ++ Array.replicate (env + 1 - s.arenas.size) .empty }

/-- Adds an entity to an environment, over a base of the same environment. -/
def newEntity (s : Store) (env : EnvId) (base : Option Nat) : EntityRef × Store :=
  (⟨env, (s.arena env).size⟩, (s.openArena env).modifyArena env fun arena => (arena.alloc base).2)

/-- A member of an entity or of the bases behind it. -/
def member? (s : Store) (entity : EntityRef) (name : String) : Option Value :=
  (s.arena entity.env).get? entity.id name

/-- Gives an entity a member of its own. -/
def define (s : Store) (entity : EntityRef) (name : String) (value : Value) : Store :=
  s.modifyArena entity.env (·.define entity.id name value)

/-- Assigns a member where the entity finds it, or else to the entity itself. -/
def setMember (s : Store) (entity : EntityRef) (name : String) (value : Value) : Store :=
  s.modifyArena entity.env (·.set entity.id name value)

/-- The own members of an entity. -/
def members (s : Store) (entity : EntityRef) : List (String × Value) :=
  (s.arena entity.env).members entity.id

/-- The base of an entity. -/
def base? (s : Store) (entity : EntityRef) : Option EntityRef :=
  ((s.arena entity.env).base? entity.id).map fun id => ⟨entity.env, id⟩

/-- The host object of an entity or of the bases behind it. -/
def entityHost? (s : Store) (entity : EntityRef) : Option HostRef :=
  (s.arena entity.env).host? entity.id

/-- Whether one of two entities is the other one or a base behind it. -/
def related (s : Store) (a b : EntityRef) : Bool :=
  a.env == b.env && (s.arena a.env).related a.id b.id

/-! ## The host -/

/-- Adds an object of the host. -/
def newHost (s : Store) (object : HostObject) : HostRef × Store :=
  (s.hosts.size, { s with hosts := s.hosts.push object })

/-- An object of the host. -/
def host? (s : Store) (ref : HostRef) : Option HostObject := s.hosts[ref]?

/-- Puts another object in the place of one. -/
def setHost (s : Store) (ref : HostRef) (object : HostObject) : Store :=
  { s with hosts := s.hosts.setIfInBounds ref object }

/-- A host object after a property is set. -/
def withProperty? (s : Store) (ref : HostRef) (name : String) (value : HostValue) :
    Option (Except HostError HostObject) :=
  (s.host? ref).map (·.setProperty name value)

/-- The name of the type of a host object. -/
def hostTypeName (s : Store) (ref : HostRef) : String := s.hosts.typeName ref

/-- Adds a class of the host. -/
def newClass (s : Store) (hostClass : HostClass) : ClassRef × Store :=
  (s.classes.size, { s with classes := s.classes.push hostClass })

/-- Calls a class of the host. -/
def callStatic? (s : Store) (ref : ClassRef) (name : String) (args : List HostValue) :
    Option (Except HostError HostResult) :=
  s.classes[ref]?.map fun hostClass => hostClass.callStatic name args

/-- Makes an object of a class of the host. -/
def construct? (s : Store) (ref : ClassRef) (fields : HostState) :
    Option (Except HostError HostInstance) :=
  s.classes[ref]?.map fun hostClass => hostClass.construct fields

/-! ## Elements -/

/-- The items of a value by position: those of an array or a tuple, and the values of the own
members of an entity. -/
def positional? (s : Store) : Value → Option (List Value)
  | .tuple items => some items
  | .array id => some (s.array id).toList
  | .entity entity => some ((s.members entity).map (·.2))
  | _ => none

/-- The number of characters, items, entries or own members. -/
def length? (s : Store) : Value → Option Nat
  | .string text => some text.length
  | .array id => some (s.array id).size
  | .tuple items => some items.length
  | .map id => some (s.map id).size
  | .entity entity => some (s.members entity).length
  | _ => none

end Store

end ScriptEngine
