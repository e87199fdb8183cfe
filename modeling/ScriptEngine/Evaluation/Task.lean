import ScriptEngine.Evaluation.Basic

/-!
# Tasks

What runs beside a script becomes a job in a queue, with a promise of its result. A task waits for a
promise, for a lock, or for time to pass.

* `enqueue` and `await`: starting a task and waiting for its result.
* `settle`, `andThen` and `deliver`: what is to be run with a result.
* `holdingLock`: what only one task may do at a time.
-/

namespace ScriptEngine.Eval

/-! ## Jobs -/

/-- Adds a job in an environment to the end of the queue. -/
def enqueue (env : EnvId) (label : String) (task : Task) : Eval PromiseId := do
  let promise ← make (·.newPromise label)
  modify fun w => { w with queue := ⟨env, promise, task⟩ :: w.queue }.withRival
  return promise

/-- The result of a promise, if it is there. -/
def poll (promise : PromiseId) : Eval (Option (Except Panic Value)) := do
  let result? ← ask fun s => (s.promise promise).result?
  if let some result := result? then
    modify fun w => w.notePromise ⟨promise, w.nextPromiseCall, .waited result⟩
  return result?

/-- The result of a promise, once it is there. -/
def await (promise : PromiseId) : Eval (Except Panic Value) := do
  match ← poll promise with
  | some result => return result
  | none =>
    suspend (.promise promise)
    match ← poll promise with
    | some result => return result
    | none => unfinished

/-- Lets time pass. -/
def sleep (milliseconds : Nat) : Eval Unit := do
  if milliseconds == 0 then return ()
  else
    let now ← (·.clock) <$> get
    suspend (.time (now + 1000 * milliseconds))

/-! ## Results -/

/-- Runs an evaluation with a new interpreter, in which no calls are in progress. -/
def afresh {α : Type} (env : EnvId) (x : Eval α) : Eval (Except Panic α) := do
  let interpreter ← (·.turn.interpreter) <$> get
  let result ← contain fun _ w => anew x env w
  modify (·.withInterpreter interpreter)
  return result

/-- A call on a promise touches it and leaves it so. The call has a number from then on. -/
def touch (id : PromiseId) (after : Promise Value Continuation)
    (event : Promise.Event Value Continuation) : Eval PromiseCallId := do
  let call ← World.nextPromiseCall <$> get
  modify (·.touchPromise id after event)
  return call

/-- Runs what waits for a result: a panic is passed on, a value is given to the function, whose
result settles the promise behind it. -/
def proceed (m : Machine) (k : Continuation) (result : Except Panic Value) : Eval Unit := do
  match result with
  | .ok value =>
    let outcome ← afresh k.env (m.run (.call k.callback [value] none))
    m.run (.settle k.chained outcome)
  | .error p => m.run (.settle k.chained (.error p))

/-- A call on a promise runs what it has been given, one continuation after another. -/
def deliver (m : Machine) (promise : PromiseId) (call : PromiseCallId)
    (result : Except Panic Value) : List Continuation → Eval Unit
  | [] => return ()
  | k :: behind => do
    modify (·.notePromise ⟨promise, call, .ran k behind result⟩)
    proceed m k result
    modify (·.notePromise ⟨promise, call, .returned k⟩)
    deliver m promise call result behind

/-- Settles a promise, unless it is settled, and runs what waits for it. -/
def settle (m : Machine) (promise : PromiseId) (result : Except Panic Value) : Eval Unit := do
  let (first, waiting, settled) := (← ask (·.promise promise)).settle result
  let call ← touch promise settled (.offered result first)
  modify (·.withRival)
  deliver m promise call result waiting

/-- Has a function called with the value of a promise once it is there: a promise of the result. -/
def andThen (m : Machine) (promise : PromiseId) (callback : Value) : Eval Value := do
  let label ← ask fun s => (s.promise promise).label
  let chained ← make (·.newPromise (label ++ ".then"))
  let k : Continuation := ⟨callback, chained, ← read⟩
  let (result?, after) := (← ask (·.promise promise)).onSettle k
  let call ← touch promise after (.registered k)
  if let some result := result? then deliver m promise call result [k]
  return .promise chained

/-! ## Locks -/

/-- Takes a lock as soon as no other task holds it. -/
def acquire (lock : Lock) : Eval Unit := do
  modify fun w => { w with locks := w.locks.acquire lock w.turn.task }
  let held ← (fun w => w.locks.isHeldBy lock w.turn.task) <$> get
  if !held then suspend (.lock lock)

/-- Gives a lock back. -/
def release (lock : Lock) : Eval Unit :=
  modify fun w => { w with locks := w.locks.release lock }.withRival

/-- Evaluates something while the task holds a lock of the environment. -/
def holdingLock {α : Type} (name : LockName) (x : Eval α) : Eval α := do
  let lock : Lock := ⟨← read, name⟩
  acquire lock
  let result ← attempt x
  release lock
  match result with
  | .ok value => return value
  | .error s => signal s

end ScriptEngine.Eval
