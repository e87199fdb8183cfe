import ScriptEngine.Evaluation.Method

/-!
# Calls

Calls of functions and methods. A call with fewer arguments than a function takes gives a function
that waits for the others; a call with more fails before anything runs.
-/

namespace ScriptEngine

/-- Calls a method of a host object that is no entity of a script: the answer and the object after
it. -/
def HostObject.call? (typeName : HostRef → String) (object : HostObject) (name : String)
    (args : List HostValue) : Option (Except HostError (HostValue × HostObject)) :=
  match object with
  | .map entries =>
    some ((HostMap.call typeName entries name args).map fun (value, entries) =>
      (value, .map entries))
  | .list items =>
    some ((HostList.call typeName items name args).map fun (value, items) => (value, .list items))
  | .custom object =>
    some ((object.behaviour.call object.state name args).map fun (value, state) =>
      (value, .custom { object with state }))
  | .script _ => none

/-- Calls a method of a host object that is no entity of a script. -/
def Store.callHost? (s : Store) (ref : HostRef) (name : String) (args : List HostValue) :
    Option (Except HostError (HostValue × HostObject)) :=
  (s.host? ref).bind fun object => object.call? s.hostTypeName name args

namespace Eval

/-! ## Host objects -/

/-- Calls a method that the entity of a proxy has, in a task of its own. -/
def callEntity (entity : EntityRef) (name : String) (args : List HostValue) :
    Eval (Except HostError HostValue) := do
  let args ← args.mapM fromHost
  let result ← await (← enqueue entity.env name (.method entity name args))
  let answer ← ask fun s => result.bind s.toHost
  return answer.mapError fun p => .failed p.text

/-- Calls a method of a proxy: that of its entity, of the host object of the entity, or of the
fallback. -/
def callProxy (m : Machine) (proxy : ScriptProxy) (name : String) (args : List HostValue) :
    Eval (Except HostError HostValue) := do
  if !proxy.shape.declares name then return .error (.noSuchMethod proxy.shape.name name)
  else
    match ← ask (·.member? proxy.entity name) with
    | some (.function _) => callEntity proxy.entity name args
    | _ =>
      match (← ask (·.entityHost? proxy.entity)).orElse fun _ => proxy.fallback with
      | some ref => m.run (.callHost ref name args)
      | none => return .error (.notImplemented (proxy.shape.name ++ "." ++ name))

/-- Calls a method of a host object. -/
def callHost (m : Machine) (ref : HostRef) (name : String) (args : List HostValue) :
    Eval (Except HostError HostValue) := do
  match ← ask (·.callHost? ref name args) with
  | some (.ok (value, object)) =>
    change (·.setHost ref object)
    return .ok value
  | some (.error e) => return .error e
  | none =>
    match ← ask (·.host? ref) with
    | some (.script proxy) => callProxy m proxy name args
    | _ => return .error (.noSuchMethod "" name)

/-- The answer of the host as a value, or its error as a panic. -/
def answer : Except HostError HostValue → Eval Value
  | .ok value => fromHost value
  | .error e => panic e.panic

/-- Calls a method of a host object that a value stands for, or waits for more arguments. -/
def callHostMethod (m : Machine) (ref : HostRef) (receiver : Value) (name : String)
    (args : List Value) : Eval Value := do
  let arity? ← ask fun s => (s.host? ref).bind fun object => object.arity? name
  if arity?.any (args.length < ·) then newFunction (.curried (.method receiver name) args none)
  else
    let args ← demand (·.allToHost args)
    answer (← m.run (.callHost ref name args))

/-- Calls a class of the host. -/
def callClass (ref : ClassRef) (name : String) (args : List Value) : Eval Value := do
  let args ← demand (·.allToHost args)
  match ← ask (·.callStatic? ref name args) with
  | some (.ok (.value value)) => fromHost value
  | some (.ok (.created object)) => return .external (← make (·.newHost (.custom object)))
  | some (.error e) => panic e.panic
  | none => panic (.memberNotFound "class" name)

/-! ## Methods -/

/-- Whether an entity leaves a method to its host object. -/
def leavesToHost (object : HostObject) (receiver : Value) (name : String) : Bool :=
  object.hasMethod name || !receiver.hasMethod name

/-- Calls a method of an entity: a member of it, a method of its host object, or one that all
entities have. -/
def callEntityMethod (m : Machine) (entity : EntityRef) (name : String) (args : List Value)
    (viewer : Option EntityRef) : Eval Value := do
  checkPrivate entity name viewer
  match ← ask (·.member? entity name) with
  | some member => m.run (.call member args (some entity))
  | none =>
    let receiver := Value.entity entity
    let ref? ← ask fun s =>
      (s.entityHost? entity).filter fun ref =>
        (s.host? ref).any fun object => leavesToHost object receiver name
    match ref? with
    | some ref => callHostMethod m ref receiver name args
    | none => builtinMethod m receiver name args

/-- Calls a method of a value, as the viewer sees it. -/
def callMethod (m : Machine) (receiver : Value) (name : String) (args : List Value)
    (viewer : Option EntityRef) : Eval Value := do
  match receiver with
  | .entity entity => callEntityMethod m entity name args viewer
  | .external ref => callHostMethod m ref receiver name args
  | .hostClass ref => callClass ref name args
  | .space space => m.run (.call (← spaceMember space name) args none)
  | .map id =>
    if receiver.hasMethod name then builtinMethod m receiver name args
    else
      match ← ask fun s => (s.map id).get? name with
      | some member => m.run (.call member args none)
      | none => panic (.memberNotFound "map" name)
  | _ => builtinMethod m receiver name args

/-! ## Functions -/

/-- Evaluates a call of a closure, which the interpreter counts while it is in progress. When as many
are in progress as may be, it fails before anything runs. -/
def counted (call : Eval Value) : Eval Value := do
  let limit := (← environment).options.maxCallDepth
  let depth ← (·.turn.interpreter.depth) <$> get
  if limit ≤ depth then
    panic ⟨.stackOverflow, "call depth exceeded " ++ Decimal.natText limit⟩
  else
    let env ← read
    modify fun w => w.withDepth (w.turn.interpreter.depth + 1)
    modify (·.noteCall env .began)
    let result ← contain call
    modify fun w => w.withDepth (w.turn.interpreter.depth - 1)
    modify (·.noteCall env .ended)
    ofExcept result

/-- Runs the body of a closure with its parameters in a new frame. It belongs to the entity given,
or else to that of the frame in which the closure was made. -/
def invoke (m : Machine) (definition : FunctionDef) (captured : FrameId) (args : List Value)
    (this : Option EntityRef) : Eval Value :=
  counted do
    tick
    let around ← this? captured
    let frame ← newFrame (some captured) (this.orElse fun _ => around)
    declareAll frame (definition.params.zip args)
    boundary (match definition.body with
      | .block body => m.run (.block body frame)
      | .expr value => m.run (.expr value frame))

/-- Has a remote call answered: by the broker of the environment, or at its URL. -/
def askRemote (name : String) (spec : RemoteSpec) (args : List HostValue) :
    Eval (Except HostError HostValue) := do
  match spec with
  | .brokered target _ =>
    match (← environment).broker with
    | none => panic (.remoteFailure ("no fit broker for '" ++ name ++ "'"))
    | some broker => return broker (← request (.brokered target args)) target args
  | .http url method =>
    let environment ← environment
    match ← ask fun s =>
        HttpRequest.make s.hostTypeName environment.options.httpTimeout url method args with
    | .error e => return .error e
    | .ok call => return call.answer (environment.agent (← request (.http call)) call)

/-- Makes a remote call with some arguments. -/
def callRemote (name : String) (spec : RemoteSpec) (args : List Value) : Eval Value := do
  let args ← demand (·.allToHost args)
  match ← askRemote name spec args with
  | .ok value => fromHost value
  | .error e => panic (.remoteFailure (name ++ ": " ++ e.message))

/-- Calls a function that takes a number of arguments, with exactly as many, or waits for more. -/
def withArity (callable : Callable) (arity : Nat) (args : List Value) (this : Option EntityRef)
    (run : Eval Value) : Eval Value :=
  if args.length < arity then newFunction (.curried callable args this)
  else if arity < args.length then
    panic (.tooManyArguments callable.name? arity args.length)
  else run

/-- Calls what a function value stands for. -/
def callCallable (m : Machine) : Callable → List Value → Option EntityRef → Eval Value
  | .closure definition captured, args, this =>
    withArity (.closure definition captured) definition.params.length args this
      (invoke m definition captured args this)
  | .curried target bound boundThis, args, this =>
    callCallable m target (bound ++ args) (boundThis.orElse fun _ => this)
  | .native function, args, this =>
    match function.arity? with
    | none => builtin function args
    | some arity => withArity (.native function) arity args this (builtin function args)
  | .method receiver name, args, _ => m.run (.callMethod receiver name args receiver.entity?)
  | .remote name spec, args, this =>
    withArity (.remote name spec) spec.arity args this (callRemote name spec args)

/-- Calls a value, which must be a function. -/
def callValue (m : Machine) (function : Value) (args : List Value) (this : Option EntityRef) :
    Eval Value := do
  match function with
  | .function id => callCallable m (← ask (·.function id)) args this
  | _ => panic ⟨.notCallable, "a " ++ function.typeName ++ " is not callable"⟩

end Eval

end ScriptEngine
