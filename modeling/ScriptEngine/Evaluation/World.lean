import ScriptEngine.Evaluation.Lock
import ScriptEngine.Forest.Basic
import ScriptEngine.Options
import ScriptEngine.Store.Display
import ScriptEngine.Store.Marshal

/-!
# What an evaluation works on

* `Environment`: where modules run.
* `Job`: a task that has not been started.
* `Incident`: what never happens in modules that an analysis has accepted.
* `Milestone`: what becomes of modules and their imports.
* `Interpreter`, `CallEvent`: who counts calls, and what becomes of them.
* `PromiseStep`: what calls on promises do.
* `World`: the store, the environments, the jobs, the locks, the time, and what was printed so far.
-/

namespace ScriptEngine

/-! ## Environments and jobs -/

/-- Where modules run: a forest, the names granted for it here, and the state of its modules. -/
structure Environment where
  forest : Forest
  /-- The module that is run if none is named. -/
  entry : Option String
  grants : Bindings
  broker : Option Brokerage
  agent : HttpAgent
  options : Options
  /-- The frames of the modules that have been imported. -/
  modules : List (String × FrameId)
  /-- The entity of utility functions, once it has been asked for. -/
  utility : Option EntityRef

instance : Inhabited Environment := ⟨⟨.empty, none, .empty, none, .offline, default, [], none⟩⟩

/-- What a name from outside the module means in an environment: what is granted there, or else what
was bound for the forest. -/
def Environment.resolve? (e : Environment) (name : String) : Option Binding :=
  (e.grants.resolve? name).orElse fun _ => e.forest.bindings.resolve? name

/-- What a job runs. -/
inductive Task
  /-- A block that runs beside the script it stands in. -/
  | block (body : Block) (frame : FrameId)
  /-- A call of a function. -/
  | apply (callback : Value) (args : List Value)
  /-- A call of a method of an entity from outside. -/
  | method (entity : EntityRef) (name : String) (args : List Value)
  /-- A program with its arguments. -/
  | program (body : Block) (args : List Value)

/-- A task that waits to be started in an environment, and the promise of its result. -/
structure Job where
  env : EnvId
  promise : PromiseId
  task : Task

/-! ## The world -/

/-- How weighty a line of the log is. -/
inductive LogLevel
  | info | warn | error
deriving Repr, DecidableEq, Inhabited

/-- A line that a script wrote. -/
inductive Event
  | printed (text : String)
  | logged (level : LogLevel) (text : String)
deriving Repr, DecidableEq, Inhabited

/-- What leaves the engine. -/
inductive Effect
  | wrote (event : Event)
  | asked (request : RemoteRequest)
deriving Repr, Inhabited

namespace Effect

/-- The line that is written. -/
def event? : Effect → Option Event
  | .wrote event => some event
  | .asked _ => none

/-- The remote call that is made. -/
def request? : Effect → Option RemoteRequest
  | .wrote _ => none
  | .asked request => some request

end Effect

/-- What an analysis is to keep from ever happening. -/
inductive Incident
  /-- A return, break or continue comes to the end of a body that only values and panics leave. -/
  | strayControl
  /-- `this` is asked for where there is no entity. -/
  | unboundThis
deriving Repr, DecidableEq, Inhabited

/-- A name in the frame of a module that shares the slot of a name in the frame of another one. -/
structure Link where
  env : EnvId
  importer : FrameId
  name : String
  /-- The module that is imported from, and its frame. -/
  source : String
  exporter : FrameId
  exported : String
deriving Repr, DecidableEq

/-- A step in the life of a module. -/
inductive Milestone
  /-- A task makes a frame for the top level of a module. -/
  | opened (frame : FrameId) (task : TaskId)
  /-- An environment begins to run a module for those that import it. -/
  | began (env : EnvId) (name : String)
  /-- The module has come to its end. -/
  | initialised (env : EnvId) (name : String) (frame : FrameId)
  /-- The module has panicked. -/
  | failed (env : EnvId) (name : String) (cause : Panic)
  /-- The task that ran modules of an environment has crashed. -/
  | abandoned (env : EnvId)
  /-- A return has left the top level of a module before its end. -/
  | left (frame : FrameId)
  /-- An item of a module is imported. -/
  | linked (link : Link)
  /-- An item of a module was to be imported that has no slot there. -/
  | missed (link : Link)
  /-- A module was to be imported that is not there. -/
  | unknown (env : EnvId) (name : String)
deriving Repr, DecidableEq

/-- The task that an interpreter was made in, and how many call events there were before. -/
structure InterpreterId where
  task : TaskId
  serial : Nat
deriving Repr, DecidableEq, Inhabited

/-- What evaluates a script. Every task has an interpreter, and so has every function that is run with
the result of a promise. -/
structure Interpreter where
  id : InterpreterId
  /-- Its counter of the calls of closures that are in progress. -/
  depth : Nat
deriving Repr, Inhabited

/-- What happens to an interpreter. -/
inductive CallChange
  /-- It is made. -/
  | made
  /-- A call of a closure begins in it. -/
  | began
  /-- The call that has begun last ends, by a value or by a signal. -/
  | ended
deriving Repr, DecidableEq, Inhabited

/-- A change of an interpreter. -/
structure CallEvent where
  interpreter : InterpreterId
  change : CallChange
  /-- What its counter says then. -/
  depth : Nat
  /-- How many calls its environment lets be in progress then. -/
  limit : Nat
deriving Repr, DecidableEq

/-- A call on a promise: the task that makes it, and how many steps of such calls there were before. -/
structure PromiseCallId where
  task : TaskId
  serial : Nat
deriving Repr, DecidableEq, Inhabited

/-- A step of a call on a promise. -/
structure PromiseStep where
  promise : PromiseId
  call : PromiseCallId
  event : Promise.Event Value Continuation

/-- The turn of the task that runs now. -/
structure Turn where
  task : TaskId
  interpreter : Interpreter
  /-- How many steps the task may still take before it lets others have their turn. -/
  left : Nat
  /-- Whether another task could go on now. -/
  rival : Bool
  /-- When the first one of the sleeping tasks wakes. -/
  alarm : Option Nat
deriving Repr

/-- All that evaluations can change. -/
structure World where
  store : Store
  environments : Array Environment
  /-- The jobs that have not been started, the latest first. -/
  queue : List Job
  locks : LockTable
  /-- The time in microseconds since 1970. -/
  clock : Nat
  turn : Turn
  /-- What was written and asked, the latest first. -/
  effects : List Effect
  /-- The incidents so far. No outcome depends on them. -/
  incidents : List Incident
  /-- The milestones so far, the latest first. No outcome depends on them. -/
  history : List Milestone
  /-- What has happened to interpreters, the latest first. No outcome depends on it. -/
  calls : List CallEvent
  /-- What has happened to promises, the latest first. No outcome depends on it. -/
  promiseSteps : List PromiseStep

namespace World

/-- When a world begins. The time is fixed, so that equal runs have equal results. -/
def dawn : Nat := 1700000000000000

/-- A world without anything. -/
def empty : World :=
  ⟨.empty, #[], [], .empty, dawn, ⟨0, default, 0, false, none⟩, [], [], [], [], []⟩

instance : Inhabited World := ⟨empty⟩

/-- The remote calls so far, the latest first. -/
def requests (w : World) : List RemoteRequest := w.effects.filterMap Effect.request?

/-- The time in whole milliseconds since 1970. -/
def milliseconds (w : World) : Nat := w.clock / 1000

/-- The environment with this number. -/
def environment (w : World) (env : EnvId) : Environment := w.environments.getD env default

/-- Changes an environment. -/
def modifyEnvironment (w : World) (env : EnvId) (f : Environment → Environment) : World :=
  { w with environments := w.environments.modify env f }

/-- Adds an environment, which has no entities yet. -/
def newEnvironment (w : World) (environment : Environment) : EnvId × World :=
  (w.environments.size,
    { w with
      environments := w.environments.push environment
      store := { w.store with arenas := w.store.arenas.push .empty } })

/-- The world with one more incident. -/
def note (w : World) (incident : Incident) : World :=
  { w with incidents := incident :: w.incidents }

/-- The world with one more milestone. -/
def record (w : World) (milestone : Milestone) : World :=
  { w with history := milestone :: w.history }

/-- The world in which an environment keeps the frame of a module that has come to its end. -/
def initialise (w : World) (env : EnvId) (name : String) (frame : FrameId) : World :=
  (w.modifyEnvironment env fun e => { e with modules := (name, frame) :: e.modules }).record
    (.initialised env name frame)

/-- The world in which a name of a frame means a slot that is there already. -/
def link (w : World) (link : Link) (slot : SlotId) : World :=
  { w with
    store := { w.store with frames := w.store.frames.link link.importer link.name slot }
    history := .linked link :: w.history }

/-- The world in which a task has lost a lock, if it held that. The modules that it ran under the lock
are given up. -/
def lose (w : World) (task : TaskId) (lock : Lock) : World :=
  if w.locks.isHeldBy lock task then
    let w := { w with locks := w.locks.forfeit lock }
    match lock.name with
    | .modules => w.record (.abandoned lock.env)
    | .plain | .keyed _ => w
  else w

/-- The world in which a task has crashed: it holds no lock any longer. -/
def abandon (w : World) (task : TaskId) : World :=
  (w.locks.holds.map (·.lock)).foldl (fun w lock => w.lose task lock) w

/-- The world in which another task may have become able to go on. -/
def withRival (w : World) : World := { w with turn := { w.turn with rival := true } }

/-! ### Promises -/

/-- The number of a call on a promise that begins now. -/
def nextPromiseCall (w : World) : PromiseCallId := ⟨w.turn.task, w.promiseSteps.length⟩

/-- The world with one more step of a call on a promise. There are none on a promise that is not
there. -/
def notePromise (w : World) (step : PromiseStep) : World :=
  { w with
    promiseSteps :=
      if step.promise < w.store.promises.size then step :: w.promiseSteps else w.promiseSteps }

/-- The world in which a call that begins now has touched a promise and left it so. -/
def touchPromise (w : World) (id : PromiseId) (after : Promise Value Continuation)
    (event : Promise.Event Value Continuation) : World :=
  { w with store.promises := w.store.promises.setIfInBounds id after }.notePromise
    ⟨id, w.nextPromiseCall, event⟩

/-! ### Interpreters -/

/-- The world in which a task goes on with this interpreter. -/
def withInterpreter (w : World) (interpreter : Interpreter) : World :=
  { w with turn := { w.turn with interpreter } }

/-- The world in which the counter of the interpreter says something else. -/
def withDepth (w : World) (depth : Nat) : World :=
  w.withInterpreter { w.turn.interpreter with depth }

/-- The world with one more change of the interpreter, which works in an environment. -/
def noteCall (w : World) (env : EnvId) (change : CallChange) : World :=
  let interpreter := w.turn.interpreter
  let limit := (w.environment env).options.maxCallDepth
  { w with calls := ⟨interpreter.id, change, interpreter.depth, limit⟩ :: w.calls }

/-- The world in which a task goes on with a new interpreter. -/
def newInterpreter (w : World) (env : EnvId) : World :=
  (w.withInterpreter ⟨⟨w.turn.task, w.calls.length⟩, 0⟩).noteCall env .made

end World

end ScriptEngine
