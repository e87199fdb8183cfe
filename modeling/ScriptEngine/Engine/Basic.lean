import ScriptEngine.Evaluation.Pool
import ScriptEngine.Forest.Builder

/-!
# Engines

An engine binds names for the scripts of its host, loads sources into environments, and runs them. A script
builder takes modules one after another and links them once.
-/

namespace ScriptEngine

/-- What can go wrong between a source text and its value. -/
inductive ScriptError
  | load (error : LoadError)
  | panic (cause : Panic)
  /-- A file cannot be read. -/
  | unreadable (path reason : String)
  /-- Bytes are no image of a forest. -/
  | noImage
  /-- A script waits for what will never be. -/
  | stuck
deriving Repr, Inhabited

namespace ScriptError

/-- The stable code of a kind of error. -/
def code : ScriptError → String
  | .load (.source _) => "E001"
  | .load (.semantic _) => "E002"
  | .load (.link _) => "E003"
  | .panic _ | .stuck => "E004"
  | .unreadable .. | .noImage => "E005"

/-- The wording of an error. -/
def message : ScriptError → String
  | .load error => error.message
  | .panic cause => cause.text
  | .unreadable path reason => "failed to read " ++ path ++ ": " ++ reason
  | .noImage => "forest image could not be decoded"
  | .stuck => "the script does not end"

end ScriptError

/-- An engine: its options, what it binds, the world of its environments, and the tasks in it. -/
structure Engine where
  options : Options
  bindings : Bindings
  broker : Option Brokerage
  agent : HttpAgent
  world : World
  pool : Pool

namespace Engine

/-- An engine that binds nothing. -/
def start (options : Options) : Engine := ⟨options, .empty, none, .offline, .empty, .empty⟩

/-! ## Bindings -/

/-- Binds a name for the modules that are loaded from now on. -/
def grant (e : Engine) (name : String) (binding : Binding) : Engine :=
  { e with bindings := e.bindings.bind name binding }

/-- Binds a class to a name for the modules that are loaded from now on. -/
def grantClass (e : Engine) (name : String) (ref : ClassRef) : Except BindingError Engine :=
  (e.bindings.bindClass name ref).map fun bindings => { e with bindings }

/-- Has remote calls answered in the environments that are made from now on. -/
def setBroker (e : Engine) (broker : Brokerage) : Engine := { e with broker := some broker }

/-- Has calls of URLs carried out in the environments that are made from now on. -/
def connect (e : Engine) (agent : HttpAgent) : Engine := { e with agent }

/-- Binds a name in one environment. -/
def grantIn (e : Engine) (env : EnvId) (name : String) (binding : Binding) : Engine :=
  { e with world := e.world.modifyEnvironment env fun environment =>
      { environment with grants := environment.grants.bind name binding } }

/-- Binds a class to a name in one environment. -/
def grantClassIn (e : Engine) (env : EnvId) (name : String) (ref : ClassRef) :
    Except BindingError Engine :=
  ((e.world.environment env).grants.bindClass name ref).map fun grants =>
    { e with world := e.world.modifyEnvironment env fun environment =>
        { environment with grants } }

/-- Has remote calls answered in one environment. -/
def setBrokerIn (e : Engine) (env : EnvId) (broker : Brokerage) : Engine :=
  { e with world := e.world.modifyEnvironment env fun environment =>
      { environment with broker := some broker } }

/-! ## The store of the engine -/

/-- The store of all environments. -/
def store (e : Engine) : Store := e.world.store

/-- Adds something to the store. Promises and entities are the business of scripts. -/
def make {α : Type} (e : Engine) (f : Store → α × Store) : α × Engine :=
  let before := e.world.store
  let (made, store) := f before
  (made, { e with
    world.store := { store with promises := before.promises, arenas := before.arenas } })

/-- What was written so far, the earliest first. -/
def events (e : Engine) : List Event := e.world.effects.reverse.filterMap Effect.event?

/-! ## Environments -/

/-- A builder of forests among the names that are bound now. -/
def forestBuilder (e : Engine) : ForestBuilder :=
  .start e.bindings e.options.strictIdentifiers

/-- Makes an environment over a forest. -/
def newEnvironment (e : Engine) (forest : Forest) (entry : Option String) : EnvId × Engine :=
  let (env, world) :=
    e.world.newEnvironment ⟨forest, entry, .empty, e.broker, e.agent, e.options, [], none⟩
  (env, { e with world })

/-- The name of the module of a single source. -/
def mainModule : String := "main"

/-- Loads one source as a forest of its own. -/
def forestOf (e : Engine) (source : String) : Except LoadError Forest := do
  let builder ← e.forestBuilder.addSource mainModule source
  match builder.finish with
  | .ok forest => .ok forest
  | .error error => .error (.link error)

/-- Loads one source into an environment. -/
def load (e : Engine) (source : String) : Except ScriptError (EnvId × Engine) :=
  match e.forestOf source with
  | .ok forest => .ok (e.newEnvironment forest (some mainModule))
  | .error error => .error (.load error)

/-! ## Runs -/

/-- Evaluates something in an environment. -/
def evaluate {α : Type} (e : Engine) (env : EnvId) (x : Eval α) : Except ScriptError α × Engine :=
  let (result, pool, world) := e.pool.run e.options.workerThreads env x e.world
  (result.mapError fun _ => .stuck, { e with world, pool })

/-- Runs a module of an environment as a program with arguments. -/
def runModule (e : Engine) (env : EnvId) (name : String) (args : List Value) :
    Except ScriptError Value × Engine :=
  match e.evaluate env (Eval.program name args) with
  | (.ok (.ok value), e) => (.ok value, e)
  | (.ok (.error cause), e) => (.error (.panic cause), e)
  | (.error error, e) => (.error error, e)

/-- Runs an environment: the module it names as its entry, or else the last one. -/
def run (e : Engine) (env : EnvId) (args : List Value) : Except ScriptError Value × Engine :=
  let environment := e.world.environment env
  let last? := environment.forest.modules.getLast?.map (·.name)
  match environment.entry.orElse fun _ => last? with
  | some name => e.runModule env name args
  | none => (.error (.panic (.invalidOperation "environment has no modules")), e)

/-- Loads one source and runs it. -/
def execute (e : Engine) (source : String) (args : List Value) :
    Except ScriptError Value × Engine :=
  match e.load source with
  | .ok (env, e) => e.run env args
  | .error error => (.error error, e)

/-- Calls a method of a host object. -/
def callHost (e : Engine) (ref : HostRef) (name : String) (args : List HostValue) :
    Except ScriptError (Except HostError HostValue) × Engine :=
  e.evaluate 0 (Eval.goal (.callHost ref name args))

/-! ## Proxies -/

/-- Runs a source to an entity and makes it a host object with the methods of an interface. What the
entity does not do is left to the fallback. -/
def implement (e : Engine) (shape : InterfaceShape) (fallback : Option HostRef)
    (source : String) : Except ScriptError HostRef × Engine :=
  match e.execute source [] with
  | (.ok (.entity entity), e) =>
    let (ref, e) := e.make (·.newHost (.script ⟨shape, entity, fallback⟩))
    (.ok ref, e)
  | (.ok other, e) =>
    (.error (.panic (.typeMismatch (shape.name ++ " must be implemented by an entity, found " ++
      other.typeName))), e)
  | (.error error, e) => (.error error, e)

end Engine

/-! ## Loading several modules -/

/-- Modules that are being loaded, the forest once they are linked, and the module loaded last. -/
structure ScriptBuilder where
  /-- Absent as soon as linking was tried. -/
  pending : Option ForestBuilder
  forest : Option Forest
  last : Option String
  /-- What linking came to whenever it was tried, the latest first. Nothing reads it. -/
  attempts : List (Except LinkError Forest)

namespace ScriptBuilder

/-- A builder among the names that an engine binds now. -/
def start (e : Engine) : ScriptBuilder := ⟨some e.forestBuilder, none, none, []⟩

/-- Registers a module, if the modules are not linked yet. -/
def register (b : ScriptBuilder) (name source : String) : Except ScriptError Unit × ScriptBuilder :=
  match b.pending with
  | none => (.error (.panic (.invalidOperation "forest is already linked")), b)
  | some builder =>
    match (ForestBuilder.registerSource name source).run builder with
    | (.ok (), builder) => (.ok (), { b with pending := some builder, last := some name })
    | (.error error, builder) => (.error (.load error), { b with pending := some builder })

/-- The builder once a module is loaded. -/
def load (b : ScriptBuilder) (name source : String) : Except ScriptError ScriptBuilder :=
  match b.register name source with
  | (.ok (), b) => .ok b
  | (.error error, _) => .error error

/-- Links the modules, or gives the forest if they are linked. -/
def link (b : ScriptBuilder) : Except ScriptError Forest × ScriptBuilder :=
  match b.forest, b.pending with
  | some forest, _ => (.ok forest, b)
  | none, none => (.error (.panic (.invalidOperation "forest failed to link earlier")), b)
  | none, some builder =>
    let result := builder.finish
    let b := { b with pending := none, attempts := result :: b.attempts }
    match result with
    | .ok forest => (.ok forest, { b with forest := some forest })
    | .error error => (.error (.load (.link error)), b)

/-- Makes an environment over the linked modules, which runs the module loaded last. -/
def newEnvironment (b : ScriptBuilder) (e : Engine) :
    Except ScriptError EnvId × ScriptBuilder × Engine :=
  match b.link with
  | (.ok forest, b) =>
    let (env, e) := e.newEnvironment forest b.last
    (.ok env, b, e)
  | (.error error, b) => (.error error, b, e)

end ScriptBuilder

end ScriptEngine
