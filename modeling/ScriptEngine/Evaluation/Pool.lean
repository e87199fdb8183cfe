import ScriptEngine.Evaluation.Run

/-!
# Running tasks side by side

The tasks of a pool take turns. In a round every task that can go on has one turn, in the order in
which the tasks were started, and then jobs are started. When no task can go on, time passes until
the first sleeper wakes. The host, which waits for a result, goes on as soon as it can, and the
tasks that have not ended then stay in the pool.

* `Paused`: a task that waits.
* `Pool`: the tasks and jobs that are left when the host goes on.
* `Pool.run`: an evaluation of the host.
-/

namespace ScriptEngine

/-- A task that waits, and how it goes on. -/
structure Paused (α : Type) where
  task : TaskId
  wait : Wait
  resume : World → Progress α

namespace Paused

variable {α : Type}

/-- Whether a task need not wait any longer. -/
def isReady (p : Paused α) (w : World) : Bool :=
  match p.wait with
  | .turn => true
  | .time moment => moment ≤ w.clock
  | .promise id => (w.store.promise id).result?.isSome
  | .lock lock => w.locks.isHeldBy lock p.task

/-- When a task wakes, if it sleeps. -/
def alarm? (p : Paused α) : Option Nat :=
  match p.wait with
  | .time moment => some moment
  | _ => none

end Paused

/-- Tasks that have been started and have not ended, and jobs that have not been started. -/
structure Pool where
  /-- The number of the next task. -/
  next : TaskId
  /-- In the order in which the tasks were started. -/
  tasks : List (Paused Unit)
  jobs : List Job

/-- A run of the host beside the tasks of a pool. -/
structure Round (α : Type) where
  /-- The number of the next task. -/
  next : TaskId
  host : Paused α
  /-- The tasks whose turn is still to come. -/
  ahead : List (Paused Unit)
  /-- The tasks whose turn is over, the latest first. -/
  behind : List (Paused Unit)
  /-- The jobs that have not been started, the first one first. -/
  jobs : List Job
  /-- Whether a task has gone on in this round. -/
  busy : Bool

namespace Round

variable {α : Type}

/-- The tasks in the order in which they were started. -/
def tasks (r : Round α) : List (Paused Unit) := r.behind.reverse ++ r.ahead

/-- What is left when the host has ended. -/
def pool (r : Round α) : Pool := ⟨r.next, r.tasks, r.jobs⟩

/-- Whether something else than the task whose turn it is could go on. -/
def hasRival (r : Round α) (w : World) : Bool :=
  !r.jobs.isEmpty || r.host.isReady w || r.ahead.any (·.isReady w) || r.behind.any (·.isReady w)

/-- When the first sleeper wakes. -/
def alarm? (r : Round α) : Option Nat :=
  (r.host.alarm?.toList ++ r.ahead.filterMap (·.alarm?) ++ r.behind.filterMap (·.alarm?)).min?

/-- The world at the beginning of the turn of a task. It goes on with the interpreter that it had, or
makes one. -/
def turn (r : Round α) (task : TaskId) (w : World) : World :=
  { w with turn := ⟨task, w.turn.interpreter, Eval.slice, r.hasRival w, r.alarm?⟩ }

/-- The world that a task leaves when it stops. What it holds is dropped with it when it crashes. -/
def left (w : World) (task : TaskId) : Stop → World
  | .unfinished .crash => w.abandon task
  | .unfinished .endless | .signal _ => w

/-- The round behind the turn of a task. -/
def afterTurn (r : Round α) (task : TaskId) : Progress Unit → Round α × World
  | .done _ w => ({ r with busy := true }, w)
  | .stopped stop w => ({ r with busy := true }, left w task stop)
  | .waiting wait w resume =>
    ({ r with behind := ⟨task, wait, resume⟩ :: r.behind, busy := true }, w)

/-- How long it takes to start a task, in microseconds. -/
def startingTime : Nat := 20

/-- The next turn of a task, the start of a job if there are fewer tasks than may be, or the next
round; and whether anything will ever go on. -/
def advance (r : Round α) (limit : Nat) (w : World) : Bool × Round α × World :=
  match r.ahead, r.jobs, w.queue with
  | task :: ahead, _, _ =>
    let r := { r with ahead }
    (true, if task.isReady w then r.afterTurn task.task (task.resume (r.turn task.task w))
      else ({ r with behind := task :: r.behind }, w))
  | [], [], job :: queue =>
    (true, { r with jobs := (job :: queue).reverse }, { w with queue := [] })
  | [], jobs, _ =>
    match jobs, decide (r.behind.length < limit) with
    | job :: jobs, true =>
      let r := { r with jobs, next := r.next + 1 }
      let w := { w with clock := w.clock + startingTime }
      (true, r.afterTurn (r.next - 1) (Eval.job job (r.turn (r.next - 1) w)))
    | _, _ =>
      let after := { r with ahead := r.behind.reverse, behind := [], busy := false }
      match r.busy, r.alarm? with
      | true, _ => (true, after, w)
      | false, some moment => (true, after, { w with clock := max w.clock moment })
      | false, none => (false, after, w)

/-- Goes on until the host has ended, in at most so many steps: the outcome, what is left, and the
world. -/
def finish (limit : Nat) : Nat → Round α → World → Except Stop α × Pool × World
  | 0, r, w => (.error (.unfinished .endless), r.pool, w)
  | steps + 1, r, w =>
    if r.host.isReady w then
      match r.host.resume (r.turn r.host.task w) with
      | .done value w => (.ok value, r.pool, w)
      | .stopped stop w => (.error stop, r.pool, left w r.host.task stop)
      | .waiting wait w resume =>
        finish limit steps { r with host := { r.host with wait, resume }, busy := true } w
    else
      match r.advance limit w with
      | (true, r, w) => finish limit steps r w
      | (false, r, w) => (.error (.unfinished .endless), r.pool, w)

end Round

namespace Pool

variable {α : Type}

/-- A pool without tasks. -/
def empty : Pool := ⟨0, [], []⟩

/-- Evaluates something for the host in an environment, while at most so many tasks run side by
side. -/
def run (p : Pool) (limit : Nat) (env : EnvId) (x : Eval α) (w : World) :
    Except Stop α × Pool × World :=
  Round.finish limit Eval.levels
    ⟨p.next + 1, ⟨p.next, .turn, Eval.anew x env⟩, p.tasks, [], p.jobs, false⟩ w

end Pool

end ScriptEngine
