import ScriptEngine.Evaluation.World

/-!
# Evaluations

An evaluation runs in an environment, changes a world, and ends with a value or by a signal. It may
wait at some places, and other tasks run while it does: what waits can be continued later, in
whatever the world has become meanwhile.

* `Signal`: a panic, or control that leaves statements: return, break and continue.
* `Wait`: what a task waits for.
* `Progress`: an evaluation that has ended, or waits.
* `Eval`: evaluations with their plain operations on the store.
* `loop` and `visit`: the rounds of loops.
* `anew`: evaluations with an interpreter of their own.
* `tick`: a step of a task, after which others may have their turn.
* `Goal`: what can be evaluated; the type of a goal tells what its evaluation gives. One step
  evaluates a goal by means of other goals, which a `Machine` evaluates with one level less.
-/

namespace ScriptEngine

/-- What leaves an evaluation without a value. -/
inductive Signal
  | panic (cause : Panic)
  | returning (value : Value)
  | breaking
  | continuing
deriving Repr, Inhabited

/-- A signal that reaches the end of a body counts as a panic. -/
def Signal.toPanic : Signal → Panic
  | .panic cause => cause
  | .returning _ => .invalidOperation "return escaped its body"
  | .breaking | .continuing => .invalidOperation "break or continue outside of a loop"

/-- Why an evaluation has no outcome. -/
inductive Halt
  /-- A fault of the engine itself ends its task. -/
  | crash
  /-- It takes more steps than it may, or waits for what will never be. -/
  | endless
deriving Repr, DecidableEq, Inhabited

/-- Why an evaluation stops. -/
inductive Stop
  | signal (signal : Signal)
  /-- It has no outcome. -/
  | unfinished (halt : Halt)
deriving Repr, Inhabited

/-- What a task waits for. -/
inductive Wait
  /-- Its next turn. -/
  | turn
  /-- A time, in microseconds since 1970. -/
  | time (moment : Nat)
  /-- The result of a promise. -/
  | promise (id : PromiseId)
  /-- A lock that another task holds. -/
  | lock (lock : Lock)

/-- How far an evaluation has got: to a value, to a stop, or to where it waits. -/
inductive Progress (α : Type) : Type
  | done (value : α) (world : World)
  | stopped (stop : Stop) (world : World)
  | waiting (wait : Wait) (world : World) (resume : World → Progress α)

namespace Progress

variable {α β : Type}

/-- Goes on behind a value, whenever it comes. -/
def bind : Progress α → (α → World → Progress β) → Progress β
  | done value w, next => next value w
  | stopped stop w, _ => stopped stop w
  | waiting wait w resume, next => waiting wait w fun w => (resume w).bind next

/-- The value, or the signal that came in its place. -/
def attempt : Progress α → Progress (Except Signal α)
  | done value w => done (.ok value) w
  | stopped (.signal s) w => done (.error s) w
  | stopped (.unfinished halt) w => stopped (.unfinished halt) w
  | waiting wait w resume => waiting wait w fun w => (resume w).attempt

end Progress

/-! ## Operations -/

/-- An evaluation in an environment. -/
def Eval (α : Type) : Type := EnvId → World → Progress α

namespace Eval

variable {α : Type}

instance : Monad Eval where
  pure value := fun _ w => .done value w
  bind x next := fun env w =>
    match x env w with
    | .done value w => next value env w
    | .stopped stop w => .stopped stop w
    | .waiting wait w resume => .waiting wait w fun w => (resume w).bind fun value => next value env

instance : MonadReaderOf EnvId Eval where
  read := fun env w => .done env w

instance : MonadStateOf World Eval where
  get := fun _ w => .done w w
  set w := fun _ _ => .done () w
  modifyGet f := fun _ w =>
    match f w with
    | (value, w) => .done value w

/-! ## Ends -/

/-- Ends by a signal. -/
def signal (s : Signal) : Eval α := fun _ w => .stopped (.signal s) w

/-- Ends by a panic. -/
def panic (p : Panic) : Eval α := signal (.panic p)

/-- Never ends. -/
def unfinished : Eval α := fun _ w => .stopped (.unfinished .endless) w

/-- Ends without any outcome, and the task with it. -/
def crash : Eval α := fun _ w => .stopped (.unfinished .crash) w

/-- The value of a result, or else its panic. -/
def ofExcept : Except Panic α → Eval α
  | .ok value => pure value
  | .error p => panic p

/-- The result of an evaluation, or the signal that ended it. -/
def attempt (x : Eval α) : Eval (Except Signal α) := fun env w => (x env w).attempt

/-- A return ends an evaluation with its value. -/
def boundary (x : Eval Value) : Eval Value := do
  match ← attempt x with
  | .ok value | .error (.returning value) => return value
  | .error s => signal s

/-- The value of a body that only values and panics leave, or else its panic. -/
def contain (x : Eval α) : Eval (Except Panic α) := do
  match ← attempt x with
  | .ok value => return .ok value
  | .error (.panic cause) => return .error cause
  | .error s =>
    modify (·.note .strayControl)
    return .error s.toPanic

/-! ## The store -/

/-- Asks the store. -/
@[inline] def ask (f : Store → α) : Eval α := fun _ w => .done (f w.store) w

/-- Asks the store for something that may be refused. -/
@[inline] def demand (f : Store → Except Panic α) : Eval α := do ofExcept (← ask f)

/-- Changes the store. -/
@[inline] def change (f : Store → Store) : Eval Unit := fun _ w =>
  .done () { w with store := f w.store }

/-- Adds something to the store. -/
@[inline] def make (f : Store → α × Store) : Eval α := fun _ w =>
  match w with
  | ⟨store, environments, queue, locks, clock, turn, effects, incidents, history, calls,
      promiseSteps⟩ =>
    match f store with
    | (made, store) =>
      .done made
        ⟨store, environments, queue, locks, clock, turn, effects, incidents, history, calls,
          promiseSteps⟩

/-- The environment of the evaluation. -/
@[inline] def environment : Eval Environment := fun env w => .done (w.environment env) w

/-! ### Cells -/

/-- A new array. -/
def newArray (items : List Value) : Eval Value := make (·.newArray items.toArray)

/-- A new map. -/
def newMap (entries : OrderedMap Value) : Eval Value := make (·.newMap entries)

/-- A new function. -/
def newFunction (callable : Callable) : Eval Value := make (·.newFunction callable)

/-- The script value of a host value. -/
def fromHost (value : HostValue) : Eval Value := make (·.ofHost value)

/-- How a value shows. -/
def display (value : Value) : Eval String := ask (·.display value)

/-! ### Frames -/

/-- A new frame without names, around which stands another one. -/
@[inline] def newFrame (parent : Option FrameId) (this : Option EntityRef) : Eval FrameId :=
  make fun s =>
    let (frame, frames) := s.frames.push parent this
    (frame, { s with frames := frames })

/-- A new frame inside another one, for the same entity. -/
@[inline] def childFrame (parent : FrameId) : Eval FrameId := do
  newFrame (some parent) (← ask (·.frames.this? parent))

/-- The entity that a frame belongs to. -/
@[inline] def this? (frame : FrameId) : Eval (Option EntityRef) := ask (·.frames.this? frame)

/-- Declares a name in a frame. -/
@[inline] def declare (frame : FrameId) (name : String) (value : Value) : Eval Unit :=
  change fun s => { s with frames := s.frames.declare frame name value }

/-- Declares some names in a frame. -/
def declareAll (frame : FrameId) : List (String × Value) → Eval Unit
  | [] => pure ()
  | (name, value) :: rest => do
    declare frame name value
    declareAll frame rest

/-! ### Effects -/

/-- Has something leave the engine. -/
def effect (effect : Effect) : Eval Unit :=
  modify fun w => { w with effects := effect :: w.effects }

/-- Writes a line. -/
def emit (event : Event) : Eval Unit := effect (.wrote event)

/-- Makes a remote call, and gives those that were made before. -/
def request (call : RemoteRequest) : Eval (List RemoteRequest) := do
  let earlier ← (·.requests) <$> get
  effect (.asked call)
  return earlier

/-! ## Turns and interpreters -/

/-- Evaluates something with a new interpreter. -/
def anew (x : Eval α) : Eval α := fun env w => x env (w.newInterpreter env)

/-- Waits. Other tasks may run meanwhile, and the turn is that of the same task again, with the same
interpreter. -/
def suspend (wait : Wait) : Eval Unit := fun _ w =>
  let task := w.turn.task
  let interpreter := w.turn.interpreter
  .waiting wait w fun w => .done () { w with turn := { w.turn with task, interpreter } }

/-- How many steps a task takes before it lets others have their turn. -/
def slice : Nat := 100

/-- A step of a task, which takes a microsecond. When the turn is over and another task could go on,
that is let to. -/
def tick : Eval Unit := fun env w =>
  match w with
  | ⟨store, environments, queue, locks, clock, ⟨task, interpreter, left, rival, alarm⟩, effects,
      incidents, history, calls, promiseSteps⟩ =>
    let clock := clock + 1
    let after (left : Nat) : World :=
      ⟨store, environments, queue, locks, clock, ⟨task, interpreter, left, rival, alarm⟩, effects,
        incidents, history, calls, promiseSteps⟩
    match left with
    | left + 1 => .done () (after left)
    | 0 =>
      if rival || alarm.any (· ≤ clock) then suspend .turn env (after 0)
      else .done () (after slice)

/-- How often a loop may go round: more often than any does that comes to an end. -/
def rounds : Nat := 1000000000000

/-- Repeats a round as long as it says so, at most so many times. -/
def loop : Nat → Eval Bool → Eval Unit
  | 0, _ => unfinished
  | rounds + 1, round => fun env w =>
    match round env w with
    | .done true w => loop rounds round env w
    | .done false w => .done () w
    | .stopped stop w => .stopped stop w
    | .waiting wait w resume =>
      .waiting wait w fun w => (resume w).bind fun again w =>
        if again then loop rounds round env w else .done () w

/-- Visits the items of a list in order, with their positions, as long as a visit says so. -/
def visit (f : Value → Nat → Eval Bool) : List Value → Nat → Eval Unit
  | [], _ => pure ()
  | item :: items, position => fun env w =>
    match f item position env w with
    | .done true w => visit f items (position + 1) env w
    | .done false w => .done () w
    | .stopped stop w => .stopped stop w
    | .waiting wait w resume =>
      .waiting wait w fun w => (resume w).bind fun again w =>
        if again then visit f items (position + 1) env w else .done () w

end Eval

/-! ## Goals -/

/-- Something to be evaluated. -/
inductive Goal : Type → Type
  /-- The value of an expression. -/
  | expr (e : Expr) (frame : FrameId) : Goal Value
  /-- The effect of a statement. -/
  | stmt (s : Stmt) (frame : FrameId) : Goal Unit
  /-- The statements of a block and the value of its last expression. -/
  | block (body : Block) (frame : FrameId) : Goal Value
  /-- The statements of a block that belongs to a statement. -/
  | inner (body : Block) (frame : FrameId) : Goal Unit
  /-- A call of a value. -/
  | call (function : Value) (args : List Value) (this : Option EntityRef) : Goal Value
  /-- A call of a method of a value; the viewer is the entity that the call stands in. -/
  | callMethod (receiver : Value) (name : String) (args : List Value)
      (viewer : Option EntityRef) : Goal Value
  /-- A call of a method of a host object. -/
  | callHost (ref : HostRef) (name : String) (args : List HostValue) :
      Goal (Except HostError HostValue)
  /-- The frame of a module that is imported, which is run the first time. -/
  | module (name : String) : Goal FrameId
  /-- A result for a promise, for which what waits for it is run. -/
  | settle (promise : PromiseId) (result : Except Panic Value) : Goal Unit

/-- Evaluates goals with one level less. -/
structure Machine where
  run : {α : Type} → Goal α → Eval α

end ScriptEngine
