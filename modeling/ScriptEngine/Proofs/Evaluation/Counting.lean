import ScriptEngine.Proofs.Evaluation.Permissive
import ScriptEngine.Proofs.Evaluation.Rounds

/-!
# Calls are counted

The counter of an interpreter goes up where a call of a closure begins and down where it ends.
Meanwhile the task may wait, functions may be run with interpreters of their own, and any signal may
come. That the counter is right all the same is a discipline: what a task evaluates leaves its
interpreter as it was, and no task touches the interpreters of another one.

* `callsInProgress`, `Tallied`: what the events tell, and that every counter agrees with them.
* `World.Counts`, `World.Restores`, `World.Spares`: the worlds in which a task may go on, what it
  finds when an evaluation has ended, and what it puts up with while it waits.
* `Discipline.counting`, `Accord.counting`: the discipline, and that all tasks can share it.
* `Progress.Balanced`, `Goal.balanced_run`: whatever is evaluated ends with the counter it has begun
  with.
-/

namespace ScriptEngine

/-! ## Events -/

/-- By how much an event changes the number of calls that are in progress in an interpreter. -/
def CallEvent.delta (i : InterpreterId) (event : CallEvent) : Int :=
  if event.interpreter = i then
    match event.change with
    | .made => 0
    | .began => 1
    | .ended => -1
  else 0

/-- How many calls have begun in an interpreter less how many have ended. -/
def callsInProgress (i : InterpreterId) : List CallEvent → Int
  | [] => 0
  | event :: before => event.delta i + callsInProgress i before

/-- At an event the counter says how many calls are in progress. Where one has begun, there are no more
than may be. An interpreter that is made has its number from how many events there were before, and
others have had theirs. -/
structure CallEvent.Tallies (before : List CallEvent) (event : CallEvent) : Prop where
  counter : (event.depth : Int) = callsInProgress event.interpreter (event :: before)
  limit : event.change = .began → event.depth ≤ event.limit
  serial : event.interpreter.serial ≤ before.length
  new : event.change = .made → event.interpreter.serial = before.length

/-- All counters agree with the events. -/
def Tallied : List CallEvent → Prop
  | [] => True
  | event :: before => event.Tallies before ∧ Tallied before

section

variable {i : InterpreterId} {event : CallEvent} {calls before : List CallEvent}

theorem callsInProgress_cons :
    callsInProgress i (event :: calls) = event.delta i + callsInProgress i calls :=
  rfl

theorem CallEvent.delta_of_ne (apart : event.interpreter ≠ i) : event.delta i = 0 :=
  if_neg apart

/-- No calls are in progress in an interpreter that no event is about. -/
theorem callsInProgress_of_new (new : ∀ event ∈ calls, event.interpreter ≠ i) :
    callsInProgress i calls = 0 := by
  induction calls with
  | nil => rfl
  | cons event before ih =>
    obtain ⟨apart, new⟩ := List.forall_mem_cons.mp new
    rw [callsInProgress_cons, CallEvent.delta_of_ne apart, ih new]
    rfl

namespace Tallied

theorem of_suffix (h : Tallied calls) (suffix : before <:+ calls) : Tallied before := by
  induction calls with
  | nil => exact List.suffix_nil.mp suffix ▸ trivial
  | cons event rest ih =>
    rcases List.suffix_cons_iff.mp suffix with rfl | suffix
    · exact h
    · exact ih h.2 suffix

/-- The numbers of interpreters stay below the number of events. -/
theorem serial_lt (h : Tallied calls) (mem : event ∈ calls) :
    event.interpreter.serial < calls.length := by
  induction calls with
  | nil => cases mem
  | cons latest before ih =>
    rcases List.mem_cons.mp mem with rfl | mem
    · exact Nat.lt_succ_of_le h.1.serial
    · exact Nat.lt_succ_of_lt (ih h.2 mem)

/-- As many calls as are in progress were so when one of them began. -/
theorem exists_began (h : Tallied calls) (some : 0 < callsInProgress i calls) :
    ∃ call ∈ calls, call.interpreter = i ∧ call.change = .began ∧
      callsInProgress i calls ≤ call.depth := by
  induction calls with
  | nil => exact absurd some (Int.lt_irrefl 0)
  | cons event before ih =>
    have earlier (same : 0 ≤ -event.delta i) : ∃ call ∈ event :: before, call.interpreter = i ∧
        call.change = .began ∧ callsInProgress i (event :: before) ≤ call.depth := by
      rw [callsInProgress_cons] at some ⊢
      obtain ⟨call, mem, mine, began, le⟩ := ih h.2 (by omega)
      exact ⟨call, List.mem_cons_of_mem _ mem, mine, began, by omega⟩
    by_cases mine : event.interpreter = i
    · subst mine
      cases change : event.change with
      | began =>
        exact ⟨event, List.mem_cons_self, rfl, change, Int.le_of_eq h.1.counter.symm⟩
      | made | ended => exact earlier (by simp [CallEvent.delta, change])
    · exact earlier (by simp [CallEvent.delta_of_ne mine])

/-- An interpreter whose number is to come is not known yet. -/
theorem ne_of_length_le (h : Tallied calls) (new : calls.length ≤ i.serial) (mem : event ∈ calls) :
    event.interpreter ≠ i :=
  fun same => Nat.not_lt_of_le new (same ▸ h.serial_lt mem)

end Tallied

end

/-! ## Worlds in which calls are counted -/

namespace World

/-- The counters have been right so far, and so is that of the interpreter with which the task goes
on. -/
structure Counts (t : TaskId) (w : World) : Prop where
  tallied : Tallied w.calls
  task : w.turn.task = t
  owner : w.turn.interpreter.id.task = t
  serial : w.turn.interpreter.id.serial < w.calls.length
  counter : (w.turn.interpreter.depth : Int) = callsInProgress w.turn.interpreter.id w.calls

/-- What a task finds when an evaluation has ended: it has the same interpreter, with the same counter,
and nothing has changed about the calls in those that it has had before. -/
structure Restores (t : TaskId) (w w' : World) : Prop where
  length : w.calls.length ≤ w'.calls.length
  interpreter : w'.turn.interpreter = w.turn.interpreter
  own (i : InterpreterId) : i.task = t → i.serial < w.calls.length →
    callsInProgress i w'.calls = callsInProgress i w.calls

/-- What a task puts up with while it waits: nothing has changed about the calls in any interpreter of
its own. -/
structure Spares (t : TaskId) (w w' : World) : Prop where
  length : w.calls.length ≤ w'.calls.length
  own (i : InterpreterId) : i.task = t → callsInProgress i w'.calls = callsInProgress i w.calls

variable {t other : TaskId} {a b c w w' w'' : World} {env : EnvId}

theorem Restores.refl (t : TaskId) (w : World) : w.Restores t w :=
  ⟨Nat.le_refl _, rfl, fun _ _ _ => rfl⟩

theorem Restores.trans (h : a.Restores t b) (h' : b.Restores t c) : a.Restores t c where
  length := Nat.le_trans h.length h'.length
  interpreter := h'.interpreter.trans h.interpreter
  own i mine old := (h'.own i mine (Nat.lt_of_lt_of_le old h.length)).trans (h.own i mine old)

theorem Spares.refl (t : TaskId) (w : World) : w.Spares t w :=
  ⟨Nat.le_refl _, fun _ _ => rfl⟩

theorem Spares.trans (h : a.Spares t b) (h' : b.Spares t c) : a.Spares t c where
  length := Nat.le_trans h.length h'.length
  own i mine := (h'.own i mine).trans (h.own i mine)

theorem Spares.of_calls (same : w'.calls = w.calls) : w.Spares t w' :=
  ⟨Nat.le_of_eq (congrArg List.length same.symm), fun _ _ => by rw [same]⟩

theorem Restores.of_calls (same : w'.calls = w.calls)
    (interpreter : w'.turn.interpreter = w.turn.interpreter) : w.Restores t w' :=
  ⟨Nat.le_of_eq (congrArg List.length same.symm), interpreter, fun _ _ _ => by rw [same]⟩

theorem Counts.of_sameCalls (h : w.Counts t) (same : w.SameCalls w') : w'.Counts t where
  tallied := same.calls ▸ h.tallied
  task := same.task.trans h.task
  owner := same.interpreter ▸ h.owner
  serial := same.interpreter ▸ same.calls ▸ h.serial
  counter := by rw [same.interpreter, same.calls, h.counter]

/-! ### Interpreters and calls -/

theorem callsInProgress_newInterpreter (w : World) (env : EnvId) (i : InterpreterId) :
    callsInProgress i (w.newInterpreter env).calls = callsInProgress i w.calls := by
  simp [newInterpreter, noteCall, withInterpreter, callsInProgress, CallEvent.delta]

theorem callsInProgress_beginCall (w : World) (env : EnvId) (i : InterpreterId) :
    callsInProgress i (w.beginCall env).calls =
      callsInProgress i w.calls + if w.turn.interpreter.id = i then 1 else 0 :=
  Int.add_comm _ _

theorem callsInProgress_endCall (w : World) (env : EnvId) (i : InterpreterId) :
    callsInProgress i (w.endCall env).calls =
      callsInProgress i w.calls - if w.turn.interpreter.id = i then 1 else 0 := by
  simp only [endCall, noteCall, withDepth, withInterpreter, callsInProgress, CallEvent.delta]
  split <;> omega

/-- A new interpreter has no calls in progress. -/
theorem counts_newInterpreter (tallied : Tallied w.calls) (task : w.turn.task = t) (env : EnvId) :
    (w.newInterpreter env).Counts t := by
  have none : callsInProgress ⟨w.turn.task, w.calls.length⟩ w.calls = 0 :=
    callsInProgress_of_new fun _ mem => tallied.ne_of_length_le (Nat.le_refl _) mem
  have counter : ((0 : Nat) : Int) = callsInProgress ⟨w.turn.task, w.calls.length⟩
      (w.newInterpreter env).calls := by
    rw [callsInProgress_newInterpreter, none]
    rfl
  exact ⟨⟨⟨counter, nofun, Nat.le_refl _, fun _ => rfl⟩, tallied⟩, task, task,
    Nat.lt_succ_self _, counter⟩

/-- A call that begins is counted. -/
theorem Counts.beginCall (h : w.Counts t)
    (free : w.turn.interpreter.depth < (w.environment env).options.maxCallDepth) :
    (w.beginCall env).Counts t := by
  have counter : ((w.turn.interpreter.depth + 1 : Nat) : Int) =
      callsInProgress w.turn.interpreter.id (w.beginCall env).calls := by
    rw [callsInProgress_beginCall, if_pos rfl, Int.natCast_add, h.counter]
    rfl
  exact ⟨⟨⟨counter, fun _ => free, Nat.le_of_lt h.serial, nofun⟩, h.tallied⟩, h.task, h.owner,
    Nat.lt_succ_of_lt h.serial, counter⟩

/-- A call that ends is no longer counted. -/
theorem Counts.endCall (h : w.Counts t) (one : 0 < w.turn.interpreter.depth) :
    (w.endCall env).Counts t := by
  have counter : ((w.turn.interpreter.depth - 1 : Nat) : Int) =
      callsInProgress w.turn.interpreter.id (w.endCall env).calls := by
    rw [callsInProgress_endCall, if_pos rfl, ← h.counter]
    omega
  exact ⟨⟨⟨counter, nofun, Nat.le_of_lt h.serial, nofun⟩, h.tallied⟩, h.task, h.owner,
    Nat.lt_succ_of_lt h.serial, counter⟩

/-- An event that is about the interpreter of one task does not concern the others. -/
theorem spares_of_cons {event : CallEvent} (calls : w'.calls = event :: w.calls)
    (apart : event.interpreter.task ≠ t) : w.Spares t w' where
  length := calls ▸ Nat.le_succ _
  own _ mine := by
    rw [calls, callsInProgress_cons, CallEvent.delta_of_ne fun same => apart (same ▸ mine),
      Int.zero_add]

/-- A call that has ended leaves the interpreter as it was before it began. -/
theorem Restores.endCall (h : (w.beginCall env).Restores t w') :
    w.Restores t (w'.endCall env) where
  length := Nat.le_trans (Nat.le_succ _) (Nat.le_trans h.length (Nat.le_succ _))
  interpreter := by
    have counted : w'.turn.interpreter = { w.turn.interpreter with
      depth := w.turn.interpreter.depth + 1 } := h.interpreter
    simp only [World.endCall, noteCall, withDepth, withInterpreter, counted, Nat.add_sub_cancel]
  own i mine old := by
    have id : w'.turn.interpreter.id = w.turn.interpreter.id := by
      rw [h.interpreter]
      rfl
    have inside : callsInProgress i w'.calls = callsInProgress i (w.beginCall env).calls :=
      h.own i mine (Nat.lt_succ_of_lt old)
    rw [callsInProgress_endCall, inside, callsInProgress_beginCall, id, Int.add_sub_cancel]

/-- A task that goes on with the interpreter that it has had before finds it as it was. -/
theorem Restores.withInterpreter (h : (w.newInterpreter env).Restores t w') :
    w.Restores t (w'.withInterpreter w.turn.interpreter) where
  length := Nat.le_trans (Nat.le_succ _) h.length
  interpreter := rfl
  own i mine old :=
    (h.own i mine (Nat.lt_succ_of_lt old)).trans (callsInProgress_newInterpreter w env i)

theorem Counts.withInterpreter (h : w.Counts t) (tallied : Tallied w'.calls)
    (task : w'.turn.task = t) (restores : w.Restores t (w'.withInterpreter w.turn.interpreter)) :
    (w'.withInterpreter w.turn.interpreter).Counts t where
  tallied := tallied
  task := task
  owner := h.owner
  serial := Nat.lt_of_lt_of_le h.serial restores.length
  counter := h.counter.trans (restores.own _ h.owner h.serial).symm

/-- A task that has waited goes on with its interpreter. -/
theorem Counts.resume (h : w.Counts t) (tallied : Tallied w'.calls) (spares : w.Spares t w') :
    (w'.resume w).Counts t where
  tallied := tallied
  task := h.task
  owner := h.owner
  serial := Nat.lt_of_lt_of_le h.serial spares.length
  counter := h.counter.trans (spares.own _ h.owner).symm

end World

/-! ## The discipline -/

/-- Worlds are to be accepted and calls to be counted, in every interpreter by the task that it belongs
to. -/
def Discipline.counting (t : TaskId) : Discipline where
  sound w := w.Accepted ∧ w.Counts t
  rests w := w.Accepted ∧ Tallied w.calls
  later w w' := w.Later w' ∧ w.Restores t w'
  yields w w' := w.Later w' ∧ ∀ other, other ≠ t → w.Spares other w'
  resumes _ w w' := w.Later w' ∧ w.Spares t w'
  imports := True
  roomy _ _ := True
  rests_of_sound sound := ⟨sound.1, sound.2.tallied⟩
  later_refl w := ⟨.refl w, .refl t w⟩
  later_trans h h' := ⟨h.1.trans h'.1, h.2.trans h'.2⟩
  yields_refl w := ⟨.refl w, fun other _ => .refl other w⟩
  yields_trans h h' :=
    ⟨h.1.trans h'.1, fun other apart => (h.2 other apart).trans (h'.2 other apart)⟩

section

variable {t : TaskId} {w : World}

/-- A call changes nothing but the counter, and that only while it lasts. -/
theorem Discipline.encloses_call {env : EnvId} (sound : (counting t).sound w)
    (free : w.turn.interpreter.depth < (w.environment env).options.maxCallDepth) :
    (counting t).Encloses w (w.beginCall env) (·.endCall env) where
  sound := ⟨sound.1.withCalls _ _, sound.2.beginCall free⟩
  lasting := ⟨.refl w, id, id⟩
  yields := ⟨.refl w, fun other apart => World.spares_of_cons rfl fun same =>
    apart (same.symm.trans sound.2.owner)⟩
  back {w'} sound' later := by
    have one : w'.turn.interpreter.depth = w.turn.interpreter.depth + 1 :=
      congrArg Interpreter.depth later.2.interpreter
    exact
      { sound := ⟨sound'.1.withCalls _ _,
          sound'.2.endCall (one ▸ Nat.succ_pos _)⟩
        later := ⟨later.1, later.2.endCall⟩
        yields := ⟨.refl w', fun other apart => World.spares_of_cons rfl fun same =>
          apart (same.symm.trans sound'.2.owner)⟩ }

/-- Nor does a new interpreter change anything about the one that the task goes on with behind it. -/
theorem Discipline.encloses_interpreter (env : EnvId) (sound : (counting t).sound w) :
    (counting t).Encloses w (w.newInterpreter env) (·.withInterpreter w.turn.interpreter) where
  sound := ⟨sound.1.withCalls _ _,
    World.counts_newInterpreter sound.2.tallied sound.2.task env⟩
  lasting := ⟨.refl w, id, id⟩
  yields := ⟨.refl w, fun _ apart => World.spares_of_cons rfl fun same =>
    apart (same.symm.trans sound.2.task)⟩
  back {w'} sound' later :=
    have restores := World.Restores.withInterpreter later.2
    { sound := ⟨sound'.1.withCalls _ _,
        sound.2.withInterpreter sound'.2.tallied sound'.2.task restores⟩
      later := ⟨later.1, restores⟩
      yields := ⟨.refl w', fun _ _ => .of_calls rfl⟩ }

instance (t : TaskId) : (Discipline.counting t).Permissive where
  imports := rfl
  roomy := fun _ _ => trivial
  stands := fun _ _ => trivial
  homes := fun _ _ => trivial
  accepted := And.left
  world_later := And.left
  change := fun sound accepted later same _ _ _ => ⟨⟨accepted, sound.2.of_sameCalls same⟩,
    ⟨later, .of_calls same.calls same.interpreter⟩, ⟨later, fun _ _ => .of_calls same.calls⟩⟩
  suspend := fun {_ w' _} sound rests resumes =>
    ⟨⟨(World.SameCode.withTurn ..).accepted rests.1, sound.2.resume rests.2 resumes.2⟩,
      ⟨resumes.1, resumes.2.length, rfl, fun i mine _ => resumes.2.own i mine⟩,
      ⟨.refl w', fun _ _ => .of_calls rfl⟩⟩
  call := Discipline.encloses_call
  interpreter := Discipline.encloses_interpreter
  promising := .of_leads fun {w} promises steps rival sound =>
    have same := (World.Quiet.withPromises w promises steps rival).sameCode
    ⟨⟨same.accepted sound.1, sound.2.of_sameCalls ⟨rfl, rfl, rfl⟩⟩,
      ⟨same.later, .of_calls rfl rfl⟩, ⟨same.later, fun _ _ => .of_calls rfl⟩⟩

end

/-! ## Evaluations -/

/-- Wherever an evaluation ends, with a value or by a signal, the task has the interpreter that it has
begun with, and its counter is the same and right. While it waits, the others may do whatever spares
its interpreters. -/
def Progress.Balanced {α : Type} (t : TaskId) (interpreter : Interpreter) : Progress α → Prop
  | .done _ w | .stopped (.signal _) w => w.Counts t ∧ w.turn.interpreter = interpreter
  | .stopped (.unfinished _) w => Tallied w.calls
  | .waiting _ w resume => Tallied w.calls ∧ ∀ w', w'.Accepted → Tallied w'.calls → w.Later w' →
      w.Spares t w' → (resume w').Balanced t interpreter

/-- To follow the discipline is to be balanced. -/
theorem Progress.Follows.balanced {α : Type} {t : TaskId} {base now : World}
    {post : α → World → Prop} {ends : Signal → Prop} {p : Progress α}
    (h : p.Follows (.counting t) base now post ends) : p.Balanced t base.turn.interpreter := by
  induction p generalizing now with
  | done value w => exact ⟨h.1.sound.2, h.1.later.2.interpreter⟩
  | stopped stop w =>
    cases stop with
    | signal s => exact ⟨h.1.sound.2, h.1.later.2.interpreter⟩
    | unfinished => exact h.1.2
  | waiting wait w resume ih =>
    exact ⟨h.1.2, fun w' accepted tallied later spares =>
      ih w' (h.2.2 w' ⟨accepted, tallied⟩ ⟨later, spares⟩)⟩

/-- Whatever is evaluated is balanced. -/
theorem Goal.balanced_run {α : Type} {goal : Goal α} {t : TaskId} {w : World} (levels : Nat)
    (env : EnvId) (suits : goal.Suits w) (accepted : w.Accepted) (counts : w.Counts t) :
    (goal.run levels env w).Balanced t w.turn.interpreter :=
  (Eval.follows_goal (d := .counting t) levels suits w ⟨accepted, counts⟩
    ⟨.refl w, .refl t w⟩).balanced

/-! ## Tasks side by side -/

/-- Each task counts its own calls. -/
def Accord.counting : Accord where
  discipline := .counting
  rests w := w.Accepted ∧ Tallied w.calls
  rely t w w' := w.Later w' ∧ w.Spares t w'
  accepts w job := job.task.Accepted w
  fresh _ _ := True
  rests_iff := .rfl
  rely_refl t w := ⟨.refl w, .refl t w⟩
  rely_trans h h' := ⟨h.1.trans h'.1, h.2.trans h'.2⟩
  yields apart yields := ⟨yields.1, yields.2 _ apart⟩
  resumes rely _ := rely
  turn turn clock rests := ⟨(World.SameCode.withTurn _ turn clock).accepted rests.1, rests.2⟩
  rely_turn t w turn clock := ⟨.refl w, .of_calls rfl⟩
  queue rests := ⟨⟨rests.1.withQueue nofun, rests.2⟩, rests.1.queue⟩
  rely_queue t w := ⟨.refl w, .of_calls rfl⟩
  accepts_rely rely accepted := accepted.later rely.1
  fresh_rely _ _ := trivial
  loses := fun {w} task lock rests => by
    have same : w.SameCode (w.lose task lock) := .lose w task lock
    obtain ⟨locks, history, changed⟩ := w.lose_eq task lock
    have calls : (w.lose task lock).calls = w.calls := by rw [changed]
    exact ⟨⟨same.accepted rests.1, calls ▸ rests.2⟩, fun _ _ => ⟨same.later, .of_calls calls⟩⟩
  sound := fun {t w} env rests _ task =>
    ⟨⟨rests.1.withCalls _ _,
      World.counts_newInterpreter rests.2 task env⟩,
      ⟨.refl w, fun other apart => World.spares_of_cons rfl fun same =>
        apart (same.symm.trans task)⟩⟩
  starts := fun {t w job} _ accepted _ _ => by
    have tame := Eval.tame_run_open (d := .counting t) Eval.levels
    exact Eval.tame_fulfil tame (Eval.tame_task_of_accepted tame (accepted.later (.refl w))
      fun _ _ _ => trivial)

end ScriptEngine
