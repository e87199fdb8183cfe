import ScriptEngine.Evaluation.Task
import ScriptEngine.Proofs.Evaluation.Plain

/-!
# Tasks are tame

Whatever runs beside a script, waits for it, or runs with its result follows the discipline of the
task that does so. Nothing but panics comes out of it.

* `Machine.Tame`: a machine that evaluates each goal so, if its code is at its place.
* `tame_enqueue`: only tasks whose code is at its place may become jobs.
* `tame_settle`, `tame_holdingLock`: what runs with results, and under locks.
-/

set_option linter.unusedSectionVars false

namespace ScriptEngine

/-- A machine evaluates code that fits its site so that only the signals meant for it leave it. A
break or continue leaves what stands in a loop, a return leaves statements. Statements that declare
names are given a frame for them, and calls an entity that frames may belong to. -/
structure Machine.Tame (d : Discipline) (m : Machine) : Prop where
  expr {env base t e frame} : e.Fits d.imports t → d.Supports base t frame →
    (m.run (.expr e frame)).Tame d env base false t.inLoop
  stmt {env base t s frame} : s.Fits d.imports t → d.Supports base t frame →
    (s.declares = true → d.roomy base frame) →
    (m.run (.stmt s frame)).Tame d env base true t.inLoop
  block {env base t body frame} : body.Fits d.imports t → d.Supports base t frame →
    (body.declares = true → d.roomy base frame) →
    (m.run (.block body frame)).Tame d env base true t.inLoop
  inner {env base t body frame} : body.Fits d.imports t → d.Supports base t frame →
    (body.declares = true → d.roomy base frame) →
    (m.run (.inner body frame)).Tame d env base true t.inLoop
  call {env base function args this} : (∀ entity ∈ this, d.homes base entity) →
    (m.run (.call function args this)).Tame d env base false false
  callMethod {env base receiver name args viewer} :
    (m.run (.callMethod receiver name args viewer)).Tame d env base false false
  callHost {env base ref name args} :
    (m.run (.callHost ref name args)).Tame d env base false false
  module {env base name} : d.imports → (m.run (.module name)).Tame d env base false false
  settle {env base promise result} :
    (m.run (.settle promise result)).Tame d env base false false

/-- A call need not bring an entity along. -/
theorem Machine.Tame.callAlone {d : Discipline} {m : Machine} (tame : m.Tame d) {env : EnvId}
    {base : World} {function : Value} {args : List Value} :
    (m.run (.call function args none)).Tame d env base false false :=
  tame.call fun entity mem => absurd mem (Option.not_mem_none entity)

namespace Eval

variable {α : Type} {m : Machine} {d : Discipline} [d.Lawful] {env : EnvId} {base : World}
  {returns loop : Bool}

open Discipline (Lawful)

/-! ## Jobs -/

/-- A task can wait in the queue if it may be put there from now on. -/
theorem tame_enqueue_of {env' : EnvId} {label : String} {task : Task}
    (h : ∀ {w : World} (promise : PromiseId), d.sound w → d.later base w →
      d.Leads w (w.enqueue ⟨env', promise, task⟩)) :
    (enqueue env' label task).Tame d env base returns loop := by
  refine Tame.bind tame_newPromise fun promise w later => ?_
  exact Tame.andThen (.update fun w' sound later' =>
    ⟨h promise sound (d.later_trans later later'), trivial⟩) fun _ => tame_pure

/-- So can one whose code is at its place. -/
theorem tame_enqueue {env' : EnvId} {label : String} {task : Task} (fits : task.Fits d base) :
    (enqueue env' label task).Tame d env base returns loop :=
  tame_enqueue_of fun _ sound later => Lawful.enqueue sound (fits.later later)

theorem tame_poll {promise : PromiseId} : (poll promise).Tame d env base returns loop := by
  intro w sound _
  rw [poll, bind_eq]
  change ((Progress.done (w.store.promise promise).result? w).bind _).Follows d w w _ _
  cases found : (w.store.promise promise).result? with
  | none => exact ⟨.refl sound, trivial⟩
  | some result => exact ⟨Lawful.promising.await sound found, trivial⟩

theorem tame_await {promise : PromiseId} : (await promise).Tame d env base returns loop := by
  refine tame_poll.andThen fun result? => ?_
  cases result? with
  | some result => exact tame_pure
  | none =>
    have plain : Wait.Plain (.promise promise) := trivial
    refine (tame_suspend plain).andThen fun _ => tame_poll.andThen fun result? => ?_
    cases result? with
    | some result => exact tame_pure
    | none => exact .unfinished

theorem tame_sleep {milliseconds : Nat} : (sleep milliseconds).Tame d env base returns loop := by
  refine .ite (fun _ => tame_pure) fun _ => tame_get.map.andThen fun now => ?_
  have plain : Wait.Plain (.time (now + 1000 * milliseconds)) := trivial
  exact tame_suspend plain

/-! ## Results -/

/-- What running with a new interpreter comes to. -/
theorem afresh_eq {env' : EnvId} {x : Eval α} {w : World} :
    afresh env' x env w = (contain (fun _ w => x env' w) env (w.newInterpreter env')).bind
      fun result w' => .done result (w'.withInterpreter w.turn.interpreter) := by
  change (contain (fun _ w => anew x env' w) >>= _) env w = _
  rw [bind_eq]
  rfl

/-- In which environment it runs does not matter. -/
theorem tame_afresh {env' : EnvId} {x : Eval α} (h : ∀ base, x.Tame d env' base false false) :
    (afresh env' x).Tame d env base returns loop := by
  intro w sound _
  have inside : Tame d env (w.newInterpreter env') (fun _ w => x env' w) false false := h _
  rw [afresh_eq]
  exact inside.enclosed (Lawful.interpreter env' sound) fun _ _ reaches => ⟨reaches, trivial⟩

theorem tame_proceed (tame : m.Tame d) {k : Continuation}
    {result : Except Panic Value} : (proceed m k result).Tame d env base returns loop := by
  cases result with
  | ok value =>
    exact (tame_afresh fun _ => tame.callAlone).andThen fun outcome => tame.settle.weaken
  | error p => exact tame.settle.weaken

/-- A call on a promise runs what it has to run, whatever becomes of that. -/
theorem follows_deliver (tame : m.Tame d) {id : PromiseId} {call : PromiseCallId}
    {result : Except Panic Value} {ks : List Continuation} {now w : World}
    (delivers : d.Delivers base id call result ks now w) :
    (deliver m id call result ks env w).Follows d base now (fun _ _ => True)
      (Signal.Within returns loop) := by
  induction ks generalizing now w with
  | nil => exact ⟨delivers, trivial⟩
  | cons k behind ih =>
    obtain ⟨reaches, rest⟩ := delivers
    let inside := w.notePromise ⟨id, call, .ran k behind result⟩
    have unfolded : deliver m id call result (k :: behind) env w =
        (proceed m k result env inside).bind fun _ w' =>
          deliver m id call result behind env (w'.notePromise ⟨id, call, .returned k⟩) :=
      bind_eq (proceed m k result) _ env inside
    have run : (proceed m k result).Tame d env inside returns loop := tame_proceed tame
    rw [unfolded]
    refine ((run inside reaches.sound (d.later_refl inside)).behind reaches.yields).onward
      reaches.later fun _ w' sound later _ => ih (rest w' sound later)

theorem tame_settle (tame : m.Tame d) {promise : PromiseId}
    {result : Except Panic Value} : (settle m promise result).Tame d env base returns loop :=
  fun _ sound _ => follows_deliver tame (Lawful.promising.settle promise result sound)

/-- What is registered is run at once if there is a result. -/
theorem tame_registered (tame : m.Tame d) {promise : PromiseId} {k : Continuation} {value : Value} :
    Tame d env base (do
      let (result?, after) := (← ask (·.promise promise)).onSettle k
      let call ← touch promise after (.registered k)
      if let some result := result? then deliver m promise call result [k]
      return value) returns loop := by
  intro w sound _
  change Progress.Follows d w w _ _ ((do
    if let some result := ((w.store.promise promise).onSettle k).1 then
      deliver m promise w.nextPromiseCall result [k]
    return value : Eval Value) env (w.register promise k))
  rw [Promise.onSettle_fst]
  cases found : (w.store.promise promise).result? with
  | none => exact ⟨Lawful.promising.register k sound found, trivial⟩
  | some result =>
    change Progress.Follows d w w _ _ ((do
      deliver m promise w.nextPromiseCall result [k]
      return value : Eval Value) env (w.register promise k))
    rw [bind_eq]
    exact (follows_deliver tame (Lawful.promising.registerLate k sound found)).bind
      fun _ _ sound _ _ => ⟨.refl sound, trivial⟩

theorem tame_andThen (tame : m.Tame d) {promise : PromiseId} {callback : Value} :
    (andThen m promise callback).Tame d env base returns loop :=
  tame_ask.andThen fun _ => tame_newPromise.andThen fun _ => tame_read.andThen fun _ =>
    tame_registered tame

/-! ## Locks -/

/-- Locks that do not guard modules are taken as anything else is done. -/
theorem tame_acquire {lock : Lock} (plain : lock.name ≠ .modules) :
    (acquire lock).Tame d env base returns loop := by
  have apart (env : EnvId) : lock ≠ ⟨env, .modules⟩ := fun same => plain (same ▸ rfl)
  refine Tame.andThen (tame_modify (fun w => ?_) (fun _ => .of_environments rfl)
    fun _ => ⟨rfl, rfl⟩) fun _ => tame_get.map.andThen fun held => ?_
  · exact .withLocks w fun env => LockTable.hold?_acquire_of_ne (apart env)
  · have waits : Wait.Plain (.lock lock) := plain
    exact .ite (fun _ => tame_suspend waits) fun _ => tame_pure

theorem tame_release {lock : Lock} (plain : lock.name ≠ .modules) :
    (release lock).Tame d env base returns loop := by
  have apart (env : EnvId) : lock ≠ ⟨env, .modules⟩ := fun same => plain (same ▸ rfl)
  refine tame_modify (fun w => ?_) (fun _ => .of_environments rfl) fun _ => ⟨rfl, rfl⟩
  exact (World.Quiet.withLocks w fun env => LockTable.hold?_release_of_ne (apart env)).trans
    (.withTurn _ _ w.clock rfl rfl)

/-- What leaves an evaluation leaves it under a lock too. -/
theorem Tame.underLock {name : LockName} {x : Eval α}
    (taken : ∀ env', (acquire ⟨env', name⟩).Tame d env base returns loop)
    (h : x.Tame d env base returns loop)
    (given : ∀ env', (release ⟨env', name⟩).Tame d env base returns loop) :
    (holdingLock name x).Tame d env base returns loop := by
  refine tame_read.andThen fun env' => (taken env').andThen fun _ => ?_
  refine (Follows.attempt h).bind fun result w later ended => ?_
  refine ((given env').lift later).andThen fun _ => ?_
  cases result with
  | ok value => exact tame_pure
  | error s => exact .signal (ended.2 s rfl)

theorem tame_holdingLock {name : LockName} {x : Eval α} (plain : name ≠ .modules)
    (h : x.Tame d env base returns loop) : (holdingLock name x).Tame d env base returns loop :=
  .underLock (fun _ => tame_acquire plain) h fun _ => tame_release plain

end Eval

end ScriptEngine
