import ScriptEngine.Evaluation.Pool
import ScriptEngine.Proofs.Display.Evaluating

/-!
# A program that waits for nothing runs to its end

A program is a job of its own, for whose promise the host waits. If nothing else runs, the job is
started at once, and the host goes on with its result.

* `Eval.job_program`: a program of one datum settles its promise with the datum.
* `Pool.run_program`: the host gets the result.
-/

namespace ScriptEngine

namespace Eval

variable {α β : Type} {x : Eval α} {f : α → Eval β} {env : EnvId} {w w' : World}

theorem bind_done {a : α} (done : x env w = .done a w') : (x >>= f) env w = f a env w' := by
  simp only [Bind.bind, done]

theorem boundary_done {x : Eval Value} {v : Value} (done : x env w = .done v w') :
    boundary x env w = .done v w' := by
  have attempted : attempt x env w = .done (.ok v) w' := by
    rw [attempt, done, Progress.attempt]
  rw [boundary, bind_done attempted]
  rfl

theorem contain_done {a : α} (done : x env w = .done a w') :
    contain x env w = .done (.ok a) w' := by
  have attempted : attempt x env w = .done (.ok a) w' := by
    rw [attempt, done, Progress.attempt]
  rw [contain, bind_done attempted]
  rfl

/-- Deep enough for all that comes to an end. -/
theorem levels_eq (n : Nat) (small : n ≤ 1000) : ∃ m, levels = m + n :=
  ⟨levels - n, (Nat.sub_add_cancel (Nat.le_trans small (by decide))).symm⟩

/-- A frame of a module is made at once. -/
theorem moduleFrame_done (args : List Value) (env : EnvId) (w : World) :
    ∃ frame w', moduleFrame args env w = .done frame w' ∧ w.store.Keeps w'.store ∧
      w'.store.promises = w.store.promises := by
  refine ⟨w.store.frames.frames.size, _, rfl, ?_, rfl⟩
  have made : w.store.Keeps (w.store.extend #[args.toArray] #[]) := Store.keeps_extend
  refine made.trans (Store.keeps_of_same ?_ ?_)
  · simp [Store.extend]
  · simp [Store.extend]

/-- A block of one expression is that expression. -/
theorem block_single {m : Machine} {body : Block} {frame : FrameId} {s : Stmt} {e : Expr}
    (single : body.statements = [s]) (same : s.kind = .expression e false) :
    block m body frame = eval m e frame := by
  obtain ⟨position, kind⟩ := s
  obtain rfl : kind = .expression e false := same
  rw [block, single]
  rfl

/-- A promise for which nothing waits is settled at once. -/
theorem settle_done (m : Machine) {promise : PromiseId} (result : Except Panic Value) (env : EnvId)
    (pending : (w.store.promise promise).state = .pending [])
    (bound : promise < w.store.promises.size) :
    ∃ w', settle m promise result env w = .done () w' ∧
      (w'.store.promise promise).result? = some result ∧
      w'.store.arrays = w.store.arrays ∧ w'.store.maps = w.store.maps := by
  obtain ⟨label, state, before⟩ : ∃ label state, w.store.promise promise = ⟨label, state⟩ :=
    ⟨_, _, rfl⟩
  rw [before] at pending
  obtain rfl : state = .pending [] := pending
  have asked : ask (·.promise promise) env w = .done ⟨label, .pending []⟩ w :=
    congrArg (Progress.done · w) before
  refine ⟨(w.touchPromise promise ⟨label, .settled result⟩ (.offered result true)).withRival, ?_, ?_,
    rfl, rfl⟩
  · rw [settle, bind_done asked]
    rfl
  · simp [World.withRival, World.touchPromise, World.notePromise, Store.promise, bound,
      Promise.result?]

/-- A program of one datum settles the promise of its result with the datum read back. -/
theorem job_program {d : Datum} {j : Job} {body : Block} {args : List Value} {s : Stmt} {e : Expr}
    (isProgram : j.task = .program body args) (single : body.statements = [s])
    (same : s.kind = .expression e false) (written : d.Written e) (regular : d.Regular)
    (height : d.height ≤ 8) (pending : (w.store.promise j.promise).state = .pending [])
    (bound : j.promise < w.store.promises.size) :
    ∃ w' v, job j w = .done () w' ∧ (w'.store.promise j.promise).result? = some (.ok v) ∧
      w'.store.Holds d.reread v ∧ w.store.Keeps w'.store ∧
        d.cells ≤ w'.store.arrays.size + w'.store.maps.size := by
  obtain ⟨levels', enough⟩ := levels_eq (d.height + 2) (by omega)
  obtain ⟨frame, w₁, framed, kept, samePromises⟩ :=
    moduleFrame_done args j.env (w.newInterpreter j.env)
  replace samePromises : w₁.store.promises = w.store.promises := samePromises
  have lower : d.height < levels' + d.height + 1 := by omega
  obtain ⟨v, arrays, maps, evaluated, made, holds⟩ :=
    Datum.evaluates regular lower e frame w₁ written j.env
  have ofBlock : goal (.block body frame) j.env w₁ = .done v (w₁.extend arrays maps) := by
    rw [goal, enough]
    change block (Datum.machine (levels' + d.height + 1)) body frame j.env w₁ = _
    rw [block_single single same, evaluated]
  have ofTask : task ⟨goal⟩ j.task j.env (w.newInterpreter j.env) =
      .done v (w₁.extend arrays maps) := by
    rw [isProgram, task, bind_done framed]
    exact boundary_done ofBlock
  have samePromise : (w₁.extend arrays maps).store.promise j.promise = w.store.promise j.promise := by
    rw [Store.promise, Store.promise, ← samePromises]
    rfl
  have bound' : j.promise < (w₁.extend arrays maps).store.promises.size := by
    rw [World.extend, Store.extend, samePromises]
    exact bound
  obtain ⟨w₂, settled, result, sameArrays, sameMaps⟩ := settle_done
    (Datum.machine (levels' + d.height + 1)) (.ok v) j.env (samePromise ▸ pending) bound'
  refine ⟨w₂, v, ?_, result, ?_, ?_, ?_⟩
  · rw [job, anew, fulfil, bind_done (contain_done ofTask)]
    change goal (.settle j.promise (.ok v)) j.env _ = _
    rw [goal, enough]
    exact settled
  · exact holds.keeps (Store.keeps_of_same sameArrays sameMaps)
  · exact (kept.trans Store.keeps_extend).trans (Store.keeps_of_same sameArrays sameMaps)
  · rw [sameArrays, sameMaps, World.extend, Store.extend, Array.size_append, Array.size_append]
    omega

/-! ## The host -/

/-- The world in which a program of an environment has been made a job. -/
def withProgram (w : World) (env : EnvId) (name : String) (body : Block) (args : List Value) :
    World :=
  { w with
    store := (w.store.newPromise name).2
    queue := ⟨env, w.store.promises.size, .program body args⟩ :: w.queue
    turn := { w.turn with rival := true } }

/-- A promise without a result is waited for, and then its result is there. -/
theorem await_pending {promise : PromiseId} (pending : (w.store.promise promise).result? = none) :
    ∃ resume, await promise env w = .waiting (.promise promise) w resume ∧
      ∀ w' result, (w'.store.promise promise).result? = some result →
        ∃ w'', resume w' = .done result w'' ∧ w''.store = w'.store := by
  have polled : poll promise env w = .done none w := by
    have asked : ask (fun s => (s.promise promise).result?) env w = .done none w :=
      congrArg (Progress.done · w) pending
    rw [poll, bind_done asked]
    rfl
  rw [await, bind_done polled]
  refine ⟨_, rfl, fun w' result settled => ?_⟩
  let resumed : World :=
    { w' with turn := { w'.turn with task := w.turn.task, interpreter := w.turn.interpreter } }
  let noted := resumed.notePromise ⟨promise, resumed.nextPromiseCall, .waited result⟩
  have polled' : poll promise env resumed = .done (some result) noted := by
    have asked : ask (fun s => (s.promise promise).result?) env resumed =
        .done (some result) resumed :=
      congrArg (Progress.done · _) settled
    rw [poll, bind_done asked]
    rfl
  refine ⟨noted, ?_, rfl⟩
  rw [Progress.bind]
  exact (bind_done polled').trans rfl

/-- A program becomes a job, and the host waits for its result. -/
theorem program_waits {name : String} (args : List Value) {found : AnalysedModule}
    (present : (w.environment env).forest.module? name = some found) :
    ∃ resume, program name args env w = .waiting (.promise w.store.promises.size)
        (withProgram w env name found.tree.body args) resume ∧
      ∀ w' result, (w'.store.promise w.store.promises.size).result? = some result →
        ∃ w'', resume w' = .done result w'' ∧ w''.store = w'.store := by
  have here : environment env w = .done (w.environment env) w := rfl
  have enqueued : enqueue env name (.program found.tree.body args) env w =
      .done w.store.promises.size (withProgram w env name found.tree.body args) := rfl
  have asked : (read : Eval EnvId) env w = .done env w := rfl
  rw [program, bind_done here, present]
  dsimp only
  rw [bind_done asked, bind_done enqueued]
  refine await_pending ?_
  simp [withProgram, Store.newPromise, Store.promise, Promise.fresh, Promise.result?]

end Eval

namespace Round

variable {α : Type} {w w' : World} {limit steps : Nat} {next task : TaskId} {promise : PromiseId}
  {resume : World → Progress α} {job : Job}

/-- A round in which there is nothing but the host, which waits for a promise, and some jobs. -/
def alone (next task : TaskId) (promise : PromiseId) (resume : World → Progress α)
    (jobs : List Job) : Round α :=
  ⟨next, ⟨task, .promise promise, resume⟩, [], [], jobs, true⟩

/-- The host has a turn and ends. -/
theorem finish_done {r : Round α} {value : α} (ready : r.host.isReady w = true)
    (ended : r.host.resume (r.turn r.host.task w) = .done value w') :
    finish limit (steps + 1) r w = (.ok value, r.pool, w') := by
  rw [finish, if_pos ready, ended]

/-- The host has a turn and waits again. -/
theorem finish_waiting {r : Round α} {wait : Wait} (ready : r.host.isReady w = true)
    (waits : r.host.resume (r.turn r.host.task w) = .waiting wait w' resume) :
    finish limit (steps + 1) r w =
      finish limit steps { r with host := { r.host with wait, resume }, busy := true } w' := by
  rw [finish, if_pos ready, waits]

theorem isReady_alone {jobs : List Job} : (alone next task promise resume jobs).host.isReady w =
    (w.store.promise promise).result?.isSome :=
  rfl

/-- The only job is taken from the queue. -/
theorem finish_queued (pending : (w.store.promise promise).result? = none)
    (queued : w.queue = [job]) :
    finish limit (steps + 1) (alone next task promise resume []) w =
      finish limit steps (alone next task promise resume [job]) { w with queue := [] } := by
  have taken : (alone next task promise resume []).advance limit w =
      (true, alone next task promise resume [job], { w with queue := [] }) := by
    rw [advance, queued]
    rfl
  rw [finish, isReady_alone, pending, taken]
  rfl

/-- The only job is started and runs to its end. -/
theorem finish_started (pending : (w.store.promise promise).result? = none)
    (noQueue : w.queue = []) (workers : 0 < limit)
    (ran : Eval.job job ((alone (next + 1) task promise resume []).turn next
      { w with clock := w.clock + startingTime }) = .done () w') :
    finish limit (steps + 1) (alone next task promise resume [job]) w =
      finish limit steps (alone (next + 1) task promise resume []) w' := by
  have free : decide ((alone next task promise resume [job]).behind.length < limit) = true :=
    decide_eq_true workers
  have started : (alone next task promise resume [job]).advance limit w =
      (true, alone (next + 1) task promise resume [], w') := by
    obtain ⟨store, environments, queue, locks, clock, turn, effects, incidents, history, calls,
      promiseSteps⟩ := w
    obtain rfl : queue = [] := noQueue
    rw [advance, free]
    change (true, afterTurn _ _ (Eval.job job ((alone (next + 1) task promise resume []).turn next
      ⟨store, environments, [], locks, clock + startingTime, turn, effects, incidents, history,
        calls, promiseSteps⟩))) = _
    rw [ran]
    rfl
  rw [finish, isReady_alone, pending, started]
  rfl

/-- The host goes on with the result. -/
theorem finish_resumed {value : α} {result : Except Panic Value}
    (settled : (w.store.promise promise).result? = some result)
    (ended : resume ((alone next task promise resume []).turn task w) = .done value w') :
    finish limit (steps + 1) (alone next task promise resume []) w =
      (.ok value, (alone next task promise resume []).pool, w') := by
  have ready : (alone next task promise resume []).host.isReady w = true := by
    rw [isReady_alone, settled]
    rfl
  exact finish_done ready ended

end Round

open Eval in
/-- A program of one datum that runs alone gives the host the datum read back. -/
theorem Pool.run_program {d : Datum} {p : Pool} {w : World} {env : EnvId} {name : String}
    (args : List Value) {limit : Nat} {found : AnalysedModule} {s : Stmt} {e : Expr}
    (noTasks : p.tasks = []) (noJobs : p.jobs = []) (noQueue : w.queue = []) (workers : 0 < limit)
    (present : (w.environment env).forest.module? name = some found)
    (single : found.tree.body.statements = [s]) (same : s.kind = .expression e false)
    (written : d.Written e) (regular : d.Regular) (height : d.height ≤ 8) :
    ∃ v pool w', p.run limit env (program name args) w = (.ok (.ok v), pool, w') ∧
      w'.store.Holds d.reread v ∧ w.store.Keeps w'.store ∧
        d.cells ≤ w'.store.arrays.size + w'.store.maps.size := by
  obtain ⟨steps, enough⟩ := levels_eq 4 (by decide)
  let start : Round (Except Panic Value) :=
    ⟨p.next + 1, ⟨p.next, .turn, anew (program name args) env⟩, [], [], [], false⟩
  let w₀ := (start.turn p.next w).newInterpreter env
  let promise := w₀.store.promises.size
  let job : Job := ⟨env, promise, .program found.tree.body args⟩
  -- The host makes the program a job and waits for its promise.
  let w₁ := withProgram w₀ env name found.tree.body args
  obtain ⟨resume, waits, resumes⟩ := program_waits (w := w₀) args present
  have first : p.run limit env (program name args) w =
      Round.finish limit (steps + 3) (.alone (p.next + 1) p.next promise resume []) w₁ := by
    rw [Pool.run, enough, noTasks, noJobs]
    exact Round.finish_waiting (r := start) rfl waits
  have fresh : (w₁.store.promise promise).state = .pending [] := by
    simp [w₁, promise, withProgram, Store.newPromise, Store.promise, Promise.fresh]
  have pending : (w₁.store.promise promise).result? = none := by rw [Promise.result?, fresh]
  have queued : w₁.queue = [job] := congrArg (job :: ·) noQueue
  have bound : promise < w₁.store.promises.size := by
    simp [w₁, promise, withProgram, Store.newPromise]
  -- The job runs to its end and settles the promise.
  obtain ⟨w₂, v, ran, settled, holds, kept, cells⟩ := job_program (j := job)
    (w := (Round.alone (p.next + 1 + 1) p.next promise resume []).turn (p.next + 1)
      { w₁ with queue := [], clock := w₁.clock + Round.startingTime })
    rfl single same written regular height fresh bound
  -- The host goes on.
  obtain ⟨w₃, resumed, sameStore⟩ := resumes
    ((Round.alone (p.next + 1 + 1) p.next promise resume []).turn p.next w₂) (.ok v) settled
  refine ⟨v, (Round.alone (p.next + 1 + 1) p.next promise resume []).pool, w₃, ?_, ?_, ?_, ?_⟩
  · rw [first, Round.finish_queued pending queued,
      Round.finish_started (w := { w₁ with queue := [] }) pending rfl workers ran,
      Round.finish_resumed settled resumed]
  · rw [sameStore]
    exact holds
  · rw [sameStore]
    exact (Store.keeps_of_same rfl rfl : w.store.Keeps w₁.store).trans kept
  · rw [sameStore]
    exact cells

end ScriptEngine
