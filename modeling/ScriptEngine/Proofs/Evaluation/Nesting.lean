import ScriptEngine.Proofs.Evaluation.Counting

/-!
# Calls of one task

A task may have several interpreters, one inside the other: when a promise has its result already, the
function that is to be run with it is run at once, by an interpreter of its own whose counter begins at
zero. The calls of a task are those of all its interpreters. While one of them works, the others are as
they were when it was made, so what its counter leaves out is what was in progress then.

* `callsOn`, `callsBeneath`: the calls in progress on a task, and those that an interpreter was made
  over.
* `Stacked`: the calls on a task are those that the counter says and those beneath.
* `Stacked.exists_call`: no more than may be, if no interpreter was made over others' calls.
* `Discipline.nesting`, `Accord.nesting`: evaluations keep it so, side by side.
-/

namespace ScriptEngine

/-! ## Events -/

/-- By how much an event changes the number of calls that are in progress on a task. -/
def CallEvent.deltaOn (t : TaskId) (event : CallEvent) : Int :=
  if event.interpreter.task = t then event.delta event.interpreter else 0

/-- How many calls have begun on a task less how many have ended, in all of its interpreters. -/
def callsOn (t : TaskId) : List CallEvent → Int
  | [] => 0
  | event :: before => event.deltaOn t + callsOn t before

/-- How many calls were in progress on its task when an interpreter was made. -/
def callsBeneath (i : InterpreterId) : List CallEvent → Int
  | [] => 0
  | event :: before =>
    if event.interpreter = i ∧ event.change = .made then callsOn i.task before
    else callsBeneath i before

/-- At an event, the calls in progress on the task are those that the counter of the interpreter says
and those that it was made over. -/
def CallEvent.Stacks (before : List CallEvent) (event : CallEvent) : Prop :=
  callsOn event.interpreter.task (event :: before) =
    event.depth + callsBeneath event.interpreter (event :: before)

/-- It was so at all events. -/
def Stacked : List CallEvent → Prop
  | [] => True
  | event :: before => event.Stacks before ∧ Stacked before

/-- No interpreter of a task was made while calls were in progress there: no function was run at once
for a promise that had its result. -/
def MadeApart (t : TaskId) : List CallEvent → Prop
  | [] => True
  | event :: before =>
    (event.change = .made → event.interpreter.task = t → callsOn t before = 0) ∧ MadeApart t before

instance MadeApart.decidable (t : TaskId) : (calls : List CallEvent) → Decidable (MadeApart t calls)
  | [] => inferInstanceAs (Decidable True)
  | _ :: before =>
    have := decidable t before
    inferInstanceAs (Decidable (_ ∧ _))

section

variable {t : TaskId} {i : InterpreterId} {event : CallEvent} {calls before : List CallEvent}

theorem callsOn_cons : callsOn t (event :: calls) = event.deltaOn t + callsOn t calls :=
  rfl

theorem CallEvent.deltaOn_of_ne (apart : event.interpreter.task ≠ t) : event.deltaOn t = 0 :=
  if_neg apart

theorem callsBeneath_cons_of_ne (h : event.change ≠ .made) :
    callsBeneath i (event :: before) = callsBeneath i before :=
  if_neg fun same => h same.2

theorem Stacked.of_suffix (h : Stacked calls) (suffix : before <:+ calls) : Stacked before := by
  induction calls with
  | nil => exact List.suffix_nil.mp suffix ▸ trivial
  | cons event rest ih =>
    rcases List.suffix_cons_iff.mp suffix with rfl | suffix
    · exact h
    · exact ih h.2 suffix

/-- An interpreter that was made apart has nothing beneath it. -/
theorem MadeApart.callsBeneath_eq_zero (h : MadeApart t calls) (mine : i.task = t) :
    callsBeneath i calls = 0 := by
  induction calls with
  | nil => rfl
  | cons event before ih =>
    rw [callsBeneath]
    split
    · next made =>
      rw [mine]
      exact h.1 made.2 (made.1 ▸ mine)
    · exact ih h.2

/-- If all interpreters of a task were made apart, no more calls are in progress there than when one of
them began, and then there were no more of them than may be. -/
theorem Stacked.exists_call (stacked : Stacked calls) (tallied : Tallied calls)
    (apart : MadeApart t calls) (some : 0 < callsOn t calls) :
    ∃ call ∈ calls, call.interpreter.task = t ∧ call.change = .began ∧
      callsOn t calls ≤ call.depth ∧ call.depth ≤ call.limit := by
  induction calls with
  | nil => exact absurd some (Int.lt_irrefl 0)
  | cons event before ih =>
    by_cases mine : event.interpreter.task = t
    · have beneath := apart.callsBeneath_eq_zero mine
      have counter := tallied.1.counter
      have total : callsOn event.interpreter.task (event :: before) = _ := stacked.1
      rw [mine, beneath] at total
      obtain ⟨call, mem, same, began, le⟩ := tallied.exists_began (i := event.interpreter) (by omega)
      obtain ⟨later, earlier, split⟩ := List.append_of_mem mem
      have limit := (tallied.of_suffix ⟨later, split.symm⟩).1.limit began
      exact ⟨call, mem, same ▸ mine, began, by omega, limit⟩
    · have same : callsOn t (event :: before) = callsOn t before := by
        rw [callsOn_cons, CallEvent.deltaOn_of_ne mine, Int.zero_add]
      rw [same] at some ⊢
      obtain ⟨call, mem, rest⟩ := ih stacked.2 tallied.2 apart.2 some
      exact ⟨call, List.mem_cons_of_mem _ mem, rest⟩

end

/-! ## Worlds -/

namespace World

/-- The calls on the task whose turn it is are those that the counter of its interpreter says and those
beneath. -/
def Stacks (w : World) : Prop :=
  callsOn w.turn.interpreter.id.task w.calls =
    w.turn.interpreter.depth + callsBeneath w.turn.interpreter.id w.calls

/-- As many calls are in progress on a task as were before, and beneath each of the interpreters that
it had. -/
structure Level (t : TaskId) (w w' : World) : Prop where
  length : w.calls.length ≤ w'.calls.length
  on : callsOn t w'.calls = callsOn t w.calls
  beneath (i : InterpreterId) : i.task = t → i.serial < w.calls.length →
    callsBeneath i w'.calls = callsBeneath i w.calls

variable {t : TaskId} {a b c w w' : World} {env : EnvId} {i : InterpreterId}

theorem Level.refl (t : TaskId) (w : World) : w.Level t w :=
  ⟨Nat.le_refl _, rfl, fun _ _ _ => rfl⟩

theorem Level.trans (h : a.Level t b) (h' : b.Level t c) : a.Level t c where
  length := Nat.le_trans h.length h'.length
  on := h'.on.trans h.on
  beneath i mine old :=
    (h'.beneath i mine (Nat.lt_of_lt_of_le old h.length)).trans (h.beneath i mine old)

theorem Level.of_calls (same : w'.calls = w.calls) : w.Level t w' :=
  ⟨Nat.le_of_eq (congrArg List.length same.symm), by rw [same], fun _ _ _ => by rw [same]⟩

theorem Stacks.of_calls (h : w.Stacks) (calls : w'.calls = w.calls)
    (interpreter : w'.turn.interpreter = w.turn.interpreter) : w'.Stacks := by
  rw [Stacks, calls, interpreter]
  exact h

/-- A task that goes on with an interpreter that it had finds its calls stacked. -/
theorem Stacks.of_level (h : w.Stacks) (counts : w.Counts t) (level : w.Level t w')
    (interpreter : w'.turn.interpreter = w.turn.interpreter) : w'.Stacks := by
  have beneath := level.beneath _ counts.owner counts.serial
  have on : callsOn w.turn.interpreter.id.task w'.calls = _ := counts.owner ▸ level.on
  rw [Stacks, interpreter, on, beneath]
  exact h

/-- An event that is about the interpreter of one task does not concern the others. -/
theorem level_of_cons {event : CallEvent} (calls : w'.calls = event :: w.calls)
    (apart : event.interpreter.task ≠ t) : w.Level t w' where
  length := calls ▸ Nat.le_succ _
  on := by rw [calls, callsOn_cons, CallEvent.deltaOn_of_ne apart, Int.zero_add]
  beneath i mine _ := by
    rw [calls, callsBeneath, if_neg]
    rintro ⟨rfl, -⟩
    exact apart mine

/-! ### Interpreters and calls -/

theorem callsOn_newInterpreter (w : World) (env : EnvId) :
    callsOn t (w.newInterpreter env).calls = callsOn t w.calls := by
  simp [newInterpreter, noteCall, withInterpreter, callsOn, CallEvent.deltaOn, CallEvent.delta]

theorem callsOn_beginCall (w : World) (env : EnvId) :
    callsOn t (w.beginCall env).calls =
      callsOn t w.calls + if w.turn.interpreter.id.task = t then 1 else 0 := by
  simp only [beginCall, noteCall, withDepth, withInterpreter, callsOn, CallEvent.deltaOn,
    CallEvent.delta, if_true]
  omega

theorem callsOn_endCall (w : World) (env : EnvId) :
    callsOn t (w.endCall env).calls =
      callsOn t w.calls - if w.turn.interpreter.id.task = t then 1 else 0 := by
  simp only [endCall, noteCall, withDepth, withInterpreter, callsOn, CallEvent.deltaOn,
    CallEvent.delta, if_true]
  split <;> omega

theorem callsBeneath_beginCall (w : World) (env : EnvId) :
    callsBeneath i (w.beginCall env).calls = callsBeneath i w.calls :=
  callsBeneath_cons_of_ne nofun

theorem callsBeneath_endCall (w : World) (env : EnvId) :
    callsBeneath i (w.endCall env).calls = callsBeneath i w.calls :=
  callsBeneath_cons_of_ne nofun

/-- A new interpreter is made over all calls in progress on its task. -/
theorem callsBeneath_newInterpreter (w : World) (env : EnvId) :
    callsBeneath ⟨w.turn.task, w.calls.length⟩ (w.newInterpreter env).calls =
      callsOn w.turn.task w.calls :=
  if_pos ⟨rfl, rfl⟩

/-- Those that were there before stay over what they were. -/
theorem callsBeneath_newInterpreter_of_lt (w : World) (env : EnvId)
    (old : i.serial < w.calls.length) :
    callsBeneath i (w.newInterpreter env).calls = callsBeneath i w.calls := by
  refine if_neg fun same => ?_
  have serial : w.calls.length = i.serial := congrArg InterpreterId.serial same.1
  omega

theorem newInterpreter_stacks (w : World) (env : EnvId) : (w.newInterpreter env).Stacks := by
  have on : callsOn w.turn.task (w.newInterpreter env).calls = callsOn w.turn.task w.calls :=
    callsOn_newInterpreter w env
  have beneath := callsBeneath_newInterpreter w env
  have none : ((0 : Nat) : Int) + callsOn w.turn.task w.calls = callsOn w.turn.task w.calls :=
    Int.zero_add _
  exact on.trans (none.symm.trans (congrArg _ beneath.symm))

theorem level_newInterpreter (w : World) (env : EnvId) : w.Level t (w.newInterpreter env) where
  length := Nat.le_succ _
  on := callsOn_newInterpreter w env
  beneath _ _ old := callsBeneath_newInterpreter_of_lt w env old

theorem Stacks.beginCall (h : w.Stacks) (env : EnvId) : (w.beginCall env).Stacks := by
  have on := callsOn_beginCall (t := w.turn.interpreter.id.task) w env
  have beneath := callsBeneath_beginCall (i := w.turn.interpreter.id) w env
  have before : callsOn w.turn.interpreter.id.task w.calls = _ := h
  rw [if_pos rfl] at on
  change callsOn w.turn.interpreter.id.task _ =
    ((w.turn.interpreter.depth + 1 : Nat) : Int) + callsBeneath w.turn.interpreter.id _
  rw [on, beneath, before]
  omega

theorem Stacks.endCall (h : w.Stacks) (one : 0 < w.turn.interpreter.depth) (env : EnvId) :
    (w.endCall env).Stacks := by
  have on := callsOn_endCall (t := w.turn.interpreter.id.task) w env
  have beneath := callsBeneath_endCall (i := w.turn.interpreter.id) w env
  have before : callsOn w.turn.interpreter.id.task w.calls = _ := h
  rw [if_pos rfl] at on
  change callsOn w.turn.interpreter.id.task _ =
    ((w.turn.interpreter.depth - 1 : Nat) : Int) + callsBeneath w.turn.interpreter.id _
  rw [on, beneath, before]
  omega

/-- A call that has ended leaves the task as it was before it began. -/
theorem Level.endCall (h : (w.beginCall env).Level t w')
    (same : w'.turn.interpreter.id = w.turn.interpreter.id) : w.Level t (w'.endCall env) where
  length := Nat.le_trans (Nat.le_succ _) (Nat.le_trans h.length (Nat.le_succ _))
  on := by
    rw [callsOn_endCall, same, h.on, callsOn_beginCall]
    omega
  beneath i mine old := by
    rw [callsBeneath_endCall, h.beneath i mine (Nat.lt_succ_of_lt old), callsBeneath_beginCall]

/-- So does an interpreter that has done its work. -/
theorem Level.withInterpreter (h : (w.newInterpreter env).Level t w') :
    w.Level t (w'.withInterpreter w.turn.interpreter) :=
  (level_newInterpreter w env).trans (h.trans (.of_calls rfl))

end World

/-! ## The discipline -/

/-- Calls are to be counted and stacked. -/
def Discipline.nesting (t : TaskId) : Discipline where
  sound w := (counting t).sound w ∧ Stacked w.calls ∧ w.Stacks
  rests w := (counting t).rests w ∧ Stacked w.calls
  later w w' := (counting t).later w w' ∧ w.Level t w'
  yields w w' := (counting t).yields w w' ∧ ∀ other, other ≠ t → w.Level other w'
  resumes wait w w' := (counting t).resumes wait w w' ∧ w.Level t w'
  imports := True
  roomy _ _ := True
  rests_of_sound sound := ⟨(counting t).rests_of_sound sound.1, sound.2.1⟩
  later_refl w := ⟨(counting t).later_refl w, .refl t w⟩
  later_trans h h' := ⟨(counting t).later_trans h.1 h'.1, h.2.trans h'.2⟩
  yields_refl w := ⟨(counting t).yields_refl w, fun other _ => .refl other w⟩
  yields_trans h h' := ⟨(counting t).yields_trans h.1 h'.1,
    fun other apart => (h.2 other apart).trans (h'.2 other apart)⟩

section

variable {t : TaskId} {w : World}

/-- A call that begins is stacked on the others, until it ends. -/
theorem Discipline.nested_call {env : EnvId} (sound : (nesting t).sound w)
    (free : w.turn.interpreter.depth < (w.environment env).options.maxCallDepth) :
    (nesting t).Encloses w (w.beginCall env) (·.endCall env) := by
  have counted := Discipline.encloses_call sound.1 free
  have owner : w.turn.interpreter.id.task = t := sound.1.2.owner
  have began := sound.2.2.beginCall env
  refine ⟨⟨counted.sound, ⟨began, sound.2.1⟩, began⟩, ⟨.refl w, id, id⟩, ⟨counted.yields, ?_⟩, ?_⟩
  · intro other apart
    exact World.level_of_cons rfl fun same => apart (same.symm.trans owner)
  · intro w' sound' later
    have back := counted.back sound'.1 later.1
    have interpreter : w'.turn.interpreter = (w.beginCall env).turn.interpreter :=
      later.1.2.interpreter
    have one : 0 < w'.turn.interpreter.depth := by
      rw [interpreter]
      exact Nat.succ_pos _
    have id : w'.turn.interpreter.id = w.turn.interpreter.id := by
      rw [interpreter]
      rfl
    have ended := sound'.2.2.endCall one env
    refine ⟨⟨back.sound, ⟨ended, sound'.2.1⟩, ended⟩, ⟨back.later, later.2.endCall id⟩, back.yields,
      ?_⟩
    intro other apart
    exact World.level_of_cons rfl fun same => apart (same.symm.trans (id ▸ owner))

/-- A new interpreter begins to count over all of them, until the task goes on with the one that it
has had before. -/
theorem Discipline.nested_interpreter (env : EnvId) (sound : (nesting t).sound w) :
    (nesting t).Encloses w (w.newInterpreter env) (·.withInterpreter w.turn.interpreter) := by
  have counted := Discipline.encloses_interpreter env sound.1
  have made := World.newInterpreter_stacks w env
  refine ⟨⟨counted.sound, ⟨made, sound.2.1⟩, made⟩, ⟨.refl w, id, id⟩, ⟨counted.yields, ?_⟩, ?_⟩
  · intro other _
    exact World.level_newInterpreter w env
  · intro w' sound' later
    have back := counted.back sound'.1 later.1
    have level := later.2.withInterpreter
    have total := sound.2.2.of_level sound.1.2 level rfl
    exact ⟨⟨back.sound, sound'.2.1, total⟩, ⟨back.later, level⟩, back.yields,
      fun other _ => .of_calls rfl⟩

instance (t : TaskId) : (Discipline.nesting t).Permissive where
  imports := rfl
  roomy := fun _ _ => trivial
  stands := fun _ _ => trivial
  homes := fun _ _ => trivial
  accepted sound := sound.1.1
  world_later later := later.1.1
  change := fun sound accepted later same bindings keeps promises => by
    have counted := Discipline.Permissive.change (d := .counting t) sound.1 accepted later same
      bindings keeps promises
    have stacked : Stacked _ := same.calls.symm ▸ sound.2.1
    exact ⟨⟨counted.sound, stacked, sound.2.2.of_calls same.calls same.interpreter⟩,
      ⟨counted.later, .of_calls same.calls⟩, counted.yields, fun _ _ => .of_calls same.calls⟩
  suspend := fun {w w' _} sound rests resumes => by
    have counted := Discipline.Permissive.suspend (d := .counting t) sound.1 rests.1 resumes.1
    have level : w.Level t (w'.resume w) := resumes.2.trans (.of_calls rfl)
    have total := sound.2.2.of_level sound.1.2 level rfl
    exact ⟨⟨counted.sound, rests.2, total⟩, ⟨counted.later, level⟩, counted.yields,
      fun _ _ => .of_calls rfl⟩
  call := Discipline.nested_call
  interpreter := Discipline.nested_interpreter
  promising := .of_leads fun {w} promises steps rival sound =>
    have same := (World.Quiet.withPromises w promises steps rival).sameCode
    { sound := ⟨⟨same.accepted sound.1.1, sound.1.2.of_sameCalls ⟨rfl, rfl, rfl⟩⟩, sound.2.1,
        sound.2.2.of_calls rfl rfl⟩
      later := ⟨⟨same.later, .of_calls rfl rfl⟩, .of_calls rfl⟩
      yields := ⟨⟨same.later, fun _ _ => .of_calls rfl⟩, fun _ _ => .of_calls rfl⟩ }

end

/-! ## Tasks side by side -/

/-- The calls of each task are stacked on their own. -/
def Accord.nesting : Accord where
  discipline := .nesting
  rests w := Accord.counting.rests w ∧ Stacked w.calls
  rely t w w' := Accord.counting.rely t w w' ∧ w.Level t w'
  accepts := Accord.counting.accepts
  fresh _ _ := True
  rests_iff := .rfl
  rely_refl t w := ⟨Accord.counting.rely_refl t w, .refl t w⟩
  rely_trans h h' := ⟨Accord.counting.rely_trans h.1 h'.1, h.2.trans h'.2⟩
  yields apart yields := ⟨Accord.counting.yields apart yields.1, yields.2 _ apart⟩
  resumes rely ready := ⟨Accord.counting.resumes rely.1 ready, rely.2⟩
  turn turn clock rests := ⟨Accord.counting.turn turn clock rests.1, rests.2⟩
  rely_turn t w turn clock := ⟨Accord.counting.rely_turn t w turn clock, .of_calls rfl⟩
  queue rests :=
    have emptied := Accord.counting.queue rests.1
    ⟨⟨emptied.1, rests.2⟩, emptied.2⟩
  rely_queue t w := ⟨Accord.counting.rely_queue t w, .of_calls rfl⟩
  accepts_rely rely accepted := Accord.counting.accepts_rely rely.1 accepted
  fresh_rely _ _ := trivial
  loses := fun {w} task lock rests => by
    obtain ⟨counted, others⟩ := Accord.counting.loses task lock rests.1
    obtain ⟨locks, history, changed⟩ := w.lose_eq task lock
    have calls : (w.lose task lock).calls = w.calls := by rw [changed]
    exact ⟨⟨counted, calls ▸ rests.2⟩, fun other apart => ⟨others other apart, .of_calls calls⟩⟩
  sound := fun {t w} env rests fresh task => by
    obtain ⟨sound, yields⟩ := Accord.counting.sound env rests.1 fresh task
    have made := World.newInterpreter_stacks w env
    exact ⟨⟨sound, ⟨made, rests.2⟩, made⟩, yields, fun _ _ => World.level_newInterpreter w env⟩
  starts := fun {t w job} _ accepted _ _ => by
    have tame := Eval.tame_run_open (d := .nesting t) Eval.levels
    exact Eval.tame_fulfil tame (Eval.tame_task_of_accepted tame (accepted.later (.refl w))
      fun _ _ _ => trivial)

end ScriptEngine
