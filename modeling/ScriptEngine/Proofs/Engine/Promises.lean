import ScriptEngine.Proofs.Engine.Reach
import ScriptEngine.Proofs.Store.Promise

/-!
# The promises of engines

Many tasks may work on one promise. Each of them touches it, and runs what it was given there. While
a continuation runs the task may wait, touch other promises or the same one again, and crash. What has
happened to the promise so far is always what can come about from some calls on it in some order. That
is a discipline: a task that runs a continuation finds its call where it has left it, and no task
goes on with the call of another one.

* `World.session`: a promise of a world, the calls that run a continuation of it, and what has
  happened to it.
* `World.KeepsPromises`, `World.Owes`: all of this can have come about, in between also that of a call
  that has continuations to run.
* `World.KeepsCallsOf`: what a task finds when an evaluation has ended, and when it has waited.
* `Discipline.settling`, `Accord.settling`: the discipline, and that all tasks can share it.
* `Engine.promises_settle`: whatever a host does, and in whatever order calls go on.
-/

namespace ScriptEngine

open Promise (Session)

/-! ## What has happened to a promise -/

/-- The call that has begun to run a continuation. -/
def Promise.Event.call? {α κ : Type} : Event α κ → Option (Call α κ)
  | .ran continuation behind result => some (.running continuation behind result)
  | .offered _ _ | .registered _ | .returned _ | .waited _ => none

/-- The calls on a promise that run a continuation, each with its number. -/
def sessionCalls (id : PromiseId) :
    List PromiseStep → List (PromiseCallId × Promise.Call Value Continuation)
  | [] => []
  | step :: before =>
    if step.promise = id then
      (step.event.call?.map (step.call, ·)).toList ++
        (sessionCalls id before).filter (·.1 ≠ step.call)
    else sessionCalls id before

/-- What calls on a promise have done, the earliest first. -/
def sessionEvents (id : PromiseId) : List PromiseStep → List (Promise.Event Value Continuation)
  | [] => []
  | step :: before =>
    if step.promise = id then sessionEvents id before ++ [step.event] else sessionEvents id before

/-- A promise of a world, the calls on it that run a continuation, and what has happened to it. -/
def World.session (w : World) (id : PromiseId) : Session Value Continuation :=
  ⟨w.store.promise id, (sessionCalls id w.promiseSteps).map (·.2), sessionEvents id w.promiseSteps⟩

section

variable {id other : PromiseId} {step : PromiseStep} {steps : List PromiseStep}
  {number : PromiseCallId} {call : Promise.Call Value Continuation}

theorem sessionCalls_cons_self : sessionCalls step.promise (step :: steps) =
    (step.event.call?.map (step.call, ·)).toList ++
      (sessionCalls step.promise steps).filter (·.1 ≠ step.call) :=
  if_pos rfl

theorem sessionCalls_cons_of_ne (apart : step.promise ≠ id) :
    sessionCalls id (step :: steps) = sessionCalls id steps :=
  if_neg apart

theorem sessionEvents_cons_self :
    sessionEvents step.promise (step :: steps) = sessionEvents step.promise steps ++ [step.event] :=
  if_pos rfl

theorem sessionEvents_cons_of_ne (apart : step.promise ≠ id) :
    sessionEvents id (step :: steps) = sessionEvents id steps :=
  if_neg apart

/-- Nothing is known of a promise that no step was about. -/
theorem eq_nil_of_untouched (none : ∀ step ∈ steps, step.promise ≠ id) :
    sessionCalls id steps = [] ∧ sessionEvents id steps = [] := by
  induction steps with
  | nil => exact ⟨rfl, rfl⟩
  | cons step before ih =>
    obtain ⟨apart, none⟩ := List.forall_mem_cons.mp none
    rw [sessionCalls_cons_of_ne apart, sessionEvents_cons_of_ne apart]
    exact ih none

/-- A call has one number, and another one has another. -/
theorem nodup_sessionCalls (id : PromiseId) (steps : List PromiseStep) :
    ((sessionCalls id steps).map (·.1)).Nodup := by
  induction steps with
  | nil => exact List.nodup_nil
  | cons step before ih =>
    by_cases here : step.promise = id
    · subst here
      have others : (((sessionCalls step.promise before).filter (·.1 ≠ step.call)).map (·.1)).Nodup :=
        (List.filter_sublist.map _).nodup ih
      rw [sessionCalls_cons_self]
      cases step.event.call? with
      | none => exact others
      | some call =>
        refine List.nodup_cons.mpr ⟨fun mem => ?_, others⟩
        obtain ⟨entry, mem, same⟩ := List.mem_map.mp mem
        exact of_decide_eq_true (List.mem_filter.mp mem).2 same
    · rwa [sessionCalls_cons_of_ne here]

/-- Every call that is known was begun by a step. -/
theorem exists_step_of_mem_sessionCalls (mem : (number, call) ∈ sessionCalls id steps) :
    ∃ step ∈ steps, step.call = number ∧ step.event.call? = some call := by
  induction steps with
  | nil => cases mem
  | cons step before ih =>
    have earlier (mem : (number, call) ∈ sessionCalls id before) :
        ∃ step' ∈ step :: before, step'.call = number ∧ step'.event.call? = some call := by
      obtain ⟨step', mem, found⟩ := ih mem
      exact ⟨step', List.mem_cons_of_mem _ mem, found⟩
    by_cases here : step.promise = id
    · subst here
      rw [sessionCalls_cons_self, List.mem_append] at mem
      rcases mem with mem | mem
      · obtain ⟨found, begun, same⟩ := Option.map_eq_some_iff.mp (Option.mem_toList.mp mem)
        obtain ⟨rfl, rfl⟩ := Prod.mk.inj same
        exact ⟨step, List.mem_cons_self, rfl, begun⟩
      · exact earlier (List.mem_filter.mp mem).1
    · rw [sessionCalls_cons_of_ne here] at mem
      exact earlier mem

/-- It runs a continuation. -/
theorem exists_running_of_mem_sessionCalls (mem : (number, call) ∈ sessionCalls id steps) :
    ∃ k behind result, call = .running k behind result := by
  obtain ⟨⟨promise, number, event⟩, -, -, begun⟩ := exists_step_of_mem_sessionCalls mem
  cases event with
  | ran k behind result => exact ⟨k, behind, result, (Option.some.inj begun).symm⟩
  | _ => cases begun

/-- A step of one call leaves the others where they are. -/
theorem mem_sessionCalls_cons (mem : (number, call) ∈ sessionCalls id steps)
    (apart : number ≠ step.call) :
    (number, call) ∈ sessionCalls id (step :: steps) := by
  by_cases here : step.promise = id
  · subst here
    rw [sessionCalls_cons_self]
    exact List.mem_append_right _ (List.mem_filter.mpr ⟨mem, decide_eq_true apart⟩)
  · rwa [sessionCalls_cons_of_ne here]

/-- A call and the others. -/
theorem sessionCalls_perm (mem : (number, call) ∈ sessionCalls id steps) :
    ((sessionCalls id steps).map (·.2)).Perm
      (call :: ((sessionCalls id steps).filter (·.1 ≠ number)).map (·.2)) := by
  have distinct := nodup_sessionCalls id steps
  obtain ⟨earlier, later, same⟩ := List.append_of_mem mem
  rw [same] at distinct ⊢
  have apart : ∀ entry ∈ earlier ++ later, entry.1 ≠ number := by
    have cons := (List.perm_middle.map Prod.fst).nodup_iff.mp distinct
    exact fun entry mem same =>
      (List.nodup_cons.mp cons).1 (same ▸ List.mem_map.mpr ⟨entry, mem, rfl⟩)
  have others : (earlier ++ (number, call) :: later).filter (·.1 ≠ number) = earlier ++ later := by
    simp only [List.filter_append, List.filter_cons, ne_eq, not_true_eq_false, decide_false,
      Bool.false_eq_true, if_false]
    rw [← List.filter_append]
    exact List.filter_eq_self.mpr fun entry mem => decide_eq_true (apart entry mem)
  rw [others]
  exact List.perm_middle.map Prod.snd

end

/-! ## Steps of calls -/

/-- From one world to another one, a call on a promise takes a step. -/
structure World.Advances (w w' : World) (step : PromiseStep) : Prop where
  steps : w'.promiseSteps = step :: w.promiseSteps
  size : w'.store.promises.size = w.store.promises.size
  bound : step.promise < w.store.promises.size
  others : ∀ id, id ≠ step.promise → w'.store.promise id = w.store.promise id
  old : step.call.serial ≤ w.promiseSteps.length

/-- Whatever is known of promises can have come about. -/
structure World.KeepsPromises (w : World) : Prop where
  sessions : ∀ id, ∃ label, (w.session id).Reached label
  below : ∀ step ∈ w.promiseSteps, step.promise < w.store.promises.size
  old : ∀ step ∈ w.promiseSteps, step.call.serial < w.promiseSteps.length

/-- So it can if a call that has some continuations to run is added. -/
structure World.Owes (w : World) (id : PromiseId) (number : PromiseCallId)
    (calls : List (Promise.Call Value Continuation)) : Prop where
  session : ∃ label,
    Session.Reached label { w.session id with calls := calls ++ (w.session id).calls }
  others : ∀ other, other ≠ id → ∃ label, (w.session other).Reached label
  below : ∀ step ∈ w.promiseSteps, step.promise < w.store.promises.size
  old : ∀ step ∈ w.promiseSteps, step.call.serial < w.promiseSteps.length
  absent : ∀ call, (number, call) ∉ sessionCalls id w.promiseSteps

section

variable {w w' : World} {id : PromiseId} {number : PromiseCallId} {t : TaskId}
  {step : PromiseStep} {k : Continuation} {behind : List Continuation}
  {result : Except Panic Value} {event : Promise.Event Value Continuation}

namespace World

/-- A step that leaves the promise as it is. -/
theorem advances_note (bound : step.promise < w.store.promises.size)
    (old : step.call.serial ≤ w.promiseSteps.length) : w.Advances (w.notePromise step) step where
  steps := if_pos bound
  size := rfl
  bound := bound
  others _ _ := rfl
  old := old

/-- The first step of a call that begins now. -/
theorem advances_touch (bound : id < w.store.promises.size) (after : Promise Value Continuation)
    (event : Promise.Event Value Continuation) :
    w.Advances (w.touchPromise id after event) ⟨id, w.nextPromiseCall, event⟩ where
  steps := if_pos (Array.size_setIfInBounds.symm ▸ bound)
  size := Array.size_setIfInBounds
  bound := bound
  others other apart := by
    simp [touchPromise, notePromise, Store.promise, Array.getD_eq_getD_getElem?, Ne.symm apart]
  old := Nat.le_refl _

theorem promise_touch (bound : id < w.store.promises.size) (after : Promise Value Continuation)
    (event : Promise.Event Value Continuation) :
    (w.touchPromise id after event).store.promise id = after := by
  simp [touchPromise, notePromise, Store.promise, Array.getD_eq_getD_getElem?, bound]

namespace Advances

theorem session_of_ne (h : w.Advances w' step) {other : PromiseId} (apart : other ≠ step.promise) :
    w'.session other = w.session other := by
  rw [session, session, h.others other apart, h.steps, sessionCalls_cons_of_ne (Ne.symm apart),
    sessionEvents_cons_of_ne (Ne.symm apart)]

theorem session_self (h : w.Advances w' step) : w'.session step.promise =
    ⟨w'.store.promise step.promise, step.event.call?.toList ++
      ((sessionCalls step.promise w.promiseSteps).filter (·.1 ≠ step.call)).map (·.2),
      (w.session step.promise).events ++ [step.event]⟩ := by
  rw [session, session, h.steps, sessionCalls_cons_self, sessionEvents_cons_self, List.map_append]
  cases step.event.call? <;> rfl

theorem below (h : w.Advances w' step)
    (below : ∀ step ∈ w.promiseSteps, step.promise < w.store.promises.size) :
    ∀ step ∈ w'.promiseSteps, step.promise < w'.store.promises.size := by
  rw [h.steps, h.size]
  exact List.forall_mem_cons.mpr ⟨h.bound, below⟩

theorem serials (h : w.Advances w' step)
    (old : ∀ step ∈ w.promiseSteps, step.call.serial < w.promiseSteps.length) :
    ∀ step ∈ w'.promiseSteps, step.call.serial < w'.promiseSteps.length := by
  rw [h.steps]
  refine List.forall_mem_cons.mpr ⟨Nat.lt_succ_of_le h.old, fun other mem => ?_⟩
  exact Nat.lt_succ_of_lt (old other mem)

end Advances

/-- A call that has nothing left to run is no longer there. -/
theorem Owes.keeps (h : w.Owes id number [.delivering [] result]) : w.KeepsPromises where
  sessions other := by
    by_cases here : other = id
    · subst here
      obtain ⟨label, reached⟩ := h.session
      have leaves := reached.act rfl
      rw [List.append_nil] at leaves
      exact ⟨label, leaves⟩
    · exact h.others other here
  below := h.below
  old := h.old

/-- Nor is one that has been given nothing to run. -/
theorem Owes.keeps_nil (h : w.Owes id number []) : w.KeepsPromises where
  sessions other := by
    by_cases here : other = id
    · exact here ▸ h.session
    · exact h.others other here
  below := h.below
  old := h.old

/-- A call that has a continuation to run begins with it. -/
theorem Owes.begin (h : w.Owes id number [.delivering (k :: behind) result])
    (advances : w.Advances w' ⟨id, number, .ran k behind result⟩)
    (same : w'.store.promise id = w.store.promise id) : w'.KeepsPromises where
  sessions other := by
    by_cases here : other = id
    · subst here
      obtain ⟨label, reached⟩ := h.session
      have kept : (sessionCalls other w.promiseSteps).filter (·.1 ≠ number) =
          sessionCalls other w.promiseSteps :=
        List.filter_eq_self.mpr fun entry mem =>
          decide_eq_true fun named => h.absent entry.2 (named ▸ mem)
      refine ⟨label, ?_⟩
      rw [advances.session_self, kept, same]
      exact reached.act rfl
    · rw [advances.session_of_ne here]
      exact h.others other here
  below := advances.below h.below
  old := advances.serials h.old

/-- When a continuation has returned, its call has those behind it to run. -/
theorem KeepsPromises.return (h : w.KeepsPromises)
    (advances : w.Advances w' ⟨id, number, .returned k⟩)
    (same : w'.store.promise id = w.store.promise id)
    (mem : (number, .running k behind result) ∈ sessionCalls id w.promiseSteps) :
    w'.Owes id number [.delivering behind result] where
  session := by
    obtain ⟨label, reached⟩ := h.sessions id
    refine ⟨label, ?_⟩
    rw [advances.session_self, same]
    exact (reached.order (sessionCalls_perm mem)).return
  others other apart := by
    rw [advances.session_of_ne apart]
    exact h.sessions other
  below := advances.below h.below
  old := advances.serials h.old
  absent call mem := by
    rw [advances.steps] at mem
    simp [sessionCalls, Promise.Event.call?] at mem

/-- A call that begins now has no number yet. -/
theorem KeepsPromises.absent (h : w.KeepsPromises) (id : PromiseId)
    (call : Promise.Call Value Continuation) :
    (w.nextPromiseCall, call) ∉ sessionCalls id w.promiseSteps := by
  intro mem
  obtain ⟨step, mem, same, -⟩ := exists_step_of_mem_sessionCalls mem
  have earlier := h.old step mem
  rw [same] at earlier
  exact Nat.lt_irrefl _ earlier

/-- A call touches a promise, and has to run what it has been given. -/
theorem KeepsPromises.touch (h : w.KeepsPromises)
    (advances : w.Advances w' ⟨id, w.nextPromiseCall, event⟩)
    {request : Promise.Request Value Continuation} {calls : List (Promise.Call Value Continuation)}
    (acts : (Promise.Call.entering request).act? (w.store.promise id) =
      some ([event], calls, w'.store.promise id))
    (none : event.call? = none) : w'.Owes id w.nextPromiseCall calls where
  session := by
    obtain ⟨label, reached⟩ := h.sessions id
    have kept : (sessionCalls id w.promiseSteps).filter (·.1 ≠ w.nextPromiseCall) =
        sessionCalls id w.promiseSteps :=
      List.filter_eq_self.mpr fun entry mem =>
        decide_eq_true fun named => h.absent id entry.2 (named ▸ mem)
    refine ⟨label, ?_⟩
    rw [advances.session_self, none, kept]
    exact (reached.enter request).act acts
  others other apart := by
    rw [advances.session_of_ne apart]
    exact h.sessions other
  below := advances.below h.below
  old := advances.serials h.old
  absent call mem := by
    rw [advances.steps] at mem
    simp [sessionCalls, none] at mem

end World

end

/-! ## Whose calls they are -/

/-- What a task knows of its calls on promises goes on to be true. -/
structure World.KeepsCallsOf (t : TaskId) (w w' : World) : Prop where
  size : w.store.promises.size ≤ w'.store.promises.size
  own (id : PromiseId) (number : PromiseCallId) (call : Promise.Call Value Continuation) :
    number.task = t → (number, call) ∈ sessionCalls id w.promiseSteps →
      (number, call) ∈ sessionCalls id w'.promiseSteps

section

variable {w w' w'' : World} {id : PromiseId} {number : PromiseCallId} {t : TaskId}
  {step : PromiseStep} {result : Except Panic Value}

namespace World

theorem KeepsCallsOf.refl (t : TaskId) (w : World) : w.KeepsCallsOf t w :=
  ⟨Nat.le_refl _, fun _ _ _ _ mem => mem⟩

theorem KeepsCallsOf.trans (h : w.KeepsCallsOf t w') (h' : w'.KeepsCallsOf t w'') :
    w.KeepsCallsOf t w'' :=
  ⟨Nat.le_trans h.size h'.size, fun id number call mine mem =>
    h'.own id number call mine (h.own id number call mine mem)⟩

theorem KeepsCallsOf.of_same (h : w.SamePromises w') : w.KeepsCallsOf t w' :=
  ⟨Nat.le_of_eq (by rw [h.promises]), fun _ _ _ _ mem => h.steps ▸ mem⟩

theorem KeepsPromises.of_same (h : w.KeepsPromises) (same : w.SamePromises w') :
    w'.KeepsPromises where
  sessions id := by
    rw [session, Store.promise, same.promises, same.steps]
    exact h.sessions id
  below := by
    rw [same.promises, same.steps]
    exact h.below
  old := by
    rw [same.steps]
    exact h.old

/-- A step of a call of one task leaves those of another one where they are. -/
theorem Advances.keepsCallsOf (h : w.Advances w' step) (apart : step.call.task ≠ t) :
    w.KeepsCallsOf t w' where
  size := Nat.le_of_eq h.size.symm
  own id number call mine mem := by
    rw [h.steps]
    exact mem_sessionCalls_cons mem fun same => apart (same ▸ mine)

/-- Nor is anything lost by a step of a call that has begun since. -/
theorem KeepsCallsOf.advance (h : w.KeepsCallsOf t w') (advances : w'.Advances w'' step)
    (begun : ∀ id call, (step.call, call) ∉ sessionCalls id w.promiseSteps) :
    w.KeepsCallsOf t w'' where
  size := Nat.le_trans h.size (Nat.le_of_eq advances.size.symm)
  own id number call mine mem := by
    rw [advances.steps]
    refine mem_sessionCalls_cons (h.own id number call mine mem) ?_
    rintro rfl
    exact begun id call mem

/-- Nothing has happened yet. -/
theorem keepsPromises_empty : World.empty.KeepsPromises where
  sessions _ := ⟨"", .fresh⟩
  below _ mem := absurd mem List.not_mem_nil
  old _ mem := absurd mem List.not_mem_nil

/-- Nothing has happened to a promise that is made. -/
theorem KeepsPromises.newPromise (h : w.KeepsPromises) (label : String) :
    (w.newPromise label).KeepsPromises where
  sessions id := by
    by_cases here : id = w.store.promises.size
    · have none : ∀ step ∈ w.promiseSteps, step.promise ≠ id :=
        fun step mem => Nat.ne_of_lt (here ▸ h.below step mem)
      obtain ⟨calls, events⟩ := eq_nil_of_untouched none
      have made : (w.newPromise label).store.promise id = .fresh label := by
        simp [World.newPromise, Store.newPromise, Store.promise, here]
      refine ⟨label, ?_⟩
      rw [session, made, show (w.newPromise label).promiseSteps = w.promiseSteps from rfl, calls,
        events]
      exact .fresh
    · have same : (w.newPromise label).store.promise id = w.store.promise id := by
        simp [World.newPromise, Store.newPromise, Store.promise, Array.getD_eq_getD_getElem?,
          Array.getElem?_push, here]
      rw [session, same]
      exact h.sessions id
  below step mem := by
    simp only [World.newPromise, Store.newPromise, Array.size_push]
    exact Nat.lt_succ_of_lt (h.below step mem)
  old := h.old

theorem keepsCallsOf_newPromise (w : World) (label : String) : w.KeepsCallsOf t (w.newPromise label) :=
  ⟨by simp [World.newPromise, Store.newPromise], fun _ _ _ _ mem => mem⟩

end World

end

/-! ## The discipline -/

/-- Worlds are to be accepted, and promises as they can have become. A task goes on with its own calls
only. -/
def Discipline.settling (t : TaskId) : Discipline where
  sound w := w.Accepted ∧ w.turn.task = t ∧ w.KeepsPromises
  rests w := w.Accepted ∧ w.KeepsPromises
  later w w' := w.Later w' ∧ w.KeepsCallsOf t w'
  yields w w' := w.Later w' ∧ ∀ other, other ≠ t → w.KeepsCallsOf other w'
  resumes _ w w' := w.Later w' ∧ w.KeepsCallsOf t w'
  imports := True
  roomy _ _ := True
  rests_of_sound sound := ⟨sound.1, sound.2.2⟩
  later_refl w := ⟨.refl w, .refl t w⟩
  later_trans h h' := ⟨h.1.trans h'.1, h.2.trans h'.2⟩
  yields_refl w := ⟨.refl w, fun other _ => .refl other w⟩
  yields_trans h h' :=
    ⟨h.1.trans h'.1, fun other apart => (h.2 other apart).trans (h'.2 other apart)⟩

section

variable {t : TaskId} {base now w w' : World} {id : PromiseId} {number : PromiseCallId}
  {result : Except Panic Value} {ks : List Continuation}

/-- Whatever leaves code and promises as they are. -/
theorem Discipline.leads_settling (sound : (settling t).sound w) (accepted : w'.Accepted)
    (later : w.Later w') (task : w'.turn.task = w.turn.task) (same : w.SamePromises w') :
    (settling t).Leads w w' :=
  ⟨⟨accepted, task.trans sound.2.1, sound.2.2.of_same same⟩, ⟨later, .of_same same⟩,
    ⟨later, fun _ _ => .of_same same⟩⟩

/-- A task that has begun a call since a base, and has some continuations to run for it, can do so. -/
theorem Discipline.delivers_settling (accepted : w.Accepted) (task : w.turn.task = t)
    (bound : id < w.store.promises.size) (old : number.serial ≤ w.promiseSteps.length)
    (owes : w.Owes id number [.delivering ks result]) (mine : number.task = t)
    (begun : ∀ other call, (number, call) ∉ sessionCalls other base.promiseSteps)
    (later : (settling t).later base w) (yields : (settling t).yields now w) :
    (settling t).Delivers base id number result ks now w := by
  induction ks generalizing now w with
  | nil => exact ⟨⟨accepted, task, owes.keeps⟩, later, yields⟩
  | cons k behind ih =>
    have note (w : World) (step : PromiseStep) : w.SameCode (w.notePromise step) :=
      (World.Quiet.withPromises w w.store.promises _ w.turn.rival).sameCode
    have apart {other : TaskId} (differs : other ≠ t) : number.task ≠ other :=
      fun same => differs (same.symm.trans mine)
    let inside := w.notePromise ⟨id, number, .ran k behind result⟩
    have begins : w.Advances inside ⟨id, number, .ran k behind result⟩ :=
      World.advances_note bound old
    have mem : (number, .running k behind result) ∈ sessionCalls id inside.promiseSteps := by
      rw [begins.steps]
      simp [sessionCalls, Promise.Event.call?]
    refine ⟨⟨⟨(note ..).accepted accepted, task, owes.begin begins rfl⟩,
      ⟨later.1.trans (note ..).later, later.2.advance begins begun⟩,
      yields.1.trans (note ..).later, fun other differs =>
        (yields.2 other differs).trans (begins.keepsCallsOf (apart differs))⟩, ?_⟩
    -- The call is where it was when the continuation has returned.
    intro w' sound' later'
    have mem' := later'.2.own id number _ mine mem
    have bound' : id < w'.store.promises.size := Nat.lt_of_lt_of_le bound later'.2.size
    have old' : number.serial ≤ w'.promiseSteps.length := by
      obtain ⟨step, there, rfl, -⟩ := exists_step_of_mem_sessionCalls mem'
      exact Nat.le_of_lt (sound'.2.2.old step there)
    have returns : w'.Advances (w'.notePromise ⟨id, number, .returned k⟩)
        ⟨id, number, .returned k⟩ := World.advances_note bound' old'
    refine ih ((note ..).accepted sound'.1) sound'.2.1 bound' ?_
      (sound'.2.2.return returns rfl mem') ?_ ?_
    · rw [returns.steps]
      exact Nat.le_succ_of_le old'
    · exact ⟨(later.1.trans (note ..).later).trans (later'.1.trans (note ..).later),
        ((later.2.advance begins begun).trans later'.2).advance returns begun⟩
    · exact ⟨(note ..).later, fun other differs => returns.keepsCallsOf (apart differs)⟩

section

variable {event : Promise.Event Value Continuation} {request : Promise.Request Value Continuation}

/-- A task that touches a promise leaves all calls that there were where they are. -/
theorem Discipline.touches_settling (sound : (settling t).sound w)
    (advances : w.Advances w' ⟨id, w.nextPromiseCall, event⟩) (code : w.SameCode w') :
    (settling t).later w w' ∧ (settling t).yields w w' := by
  refine ⟨⟨code.later, (World.KeepsCallsOf.refl t w).advance advances sound.2.2.absent⟩,
    code.later, fun other differs => advances.keepsCallsOf fun same => differs ?_⟩
  exact (sound.2.1.symm.trans same).symm

/-- That is all if it has been given nothing to run. -/
theorem Discipline.leads_touch (sound : (settling t).sound w)
    (advances : w.Advances w' ⟨id, w.nextPromiseCall, event⟩) (code : w.SameCode w')
    (task : w'.turn.task = w.turn.task) (acts : (Promise.Call.entering request).act?
      (w.store.promise id) = some ([event], [], w'.store.promise id))
    (none : event.call? = none) : (settling t).Leads w w' :=
  have touches := touches_settling sound advances code
  ⟨⟨code.accepted sound.1, task.trans sound.2.1, (sound.2.2.touch advances acts none).keeps_nil⟩,
    touches.1, touches.2⟩

/-- Otherwise it goes on to do so. -/
theorem Discipline.delivers_touch (sound : (settling t).sound w)
    (advances : w.Advances w' ⟨id, w.nextPromiseCall, event⟩) (code : w.SameCode w')
    (task : w'.turn.task = w.turn.task) (acts : (Promise.Call.entering request).act?
      (w.store.promise id) = some ([event], [.delivering ks result], w'.store.promise id))
    (none : event.call? = none) :
    (settling t).Delivers w id w.nextPromiseCall result ks w w' := by
  have touches := touches_settling sound advances code
  have old : w.nextPromiseCall.serial ≤ w'.promiseSteps.length := by
    rw [advances.steps]
    exact Nat.le_succ _
  exact delivers_settling (code.accepted sound.1) (task.trans sound.2.1)
    (advances.size ▸ advances.bound) old (sound.2.2.touch advances acts none) sound.2.1
    sound.2.2.absent touches.1 touches.2

end

/-- Nothing comes of a call on a promise that is not there. -/
theorem World.samePromises_touch (outside : ¬ id < w.store.promises.size)
    (after : Promise Value Continuation) (event : Promise.Event Value Continuation) :
    w.SamePromises (w.touchPromise id after event) := by
  have same : w.store.promises.setIfInBounds id after = w.store.promises :=
    Array.setIfInBounds_eq_of_size_le (Nat.le_of_not_lt outside)
  refine ⟨same, if_neg ?_⟩
  rw [same]
  exact outside

theorem Store.promise_of_size_le {s : Store} (outside : ¬ id < s.promises.size) :
    s.promise id = default := by
  rw [Store.promise, Array.getD_eq_getD_getElem?,
    Array.getElem?_eq_none (Nat.le_of_not_lt outside)]
  rfl

/-- A promise that has a result is there. -/
theorem Store.lt_size_of_settled {s : Store} (settled : (s.promise id).result? = some result) :
    id < s.promises.size := by
  refine Decidable.byContradiction fun outside => ?_
  rw [promise_of_size_le outside] at settled
  cases settled

/-- A task can make, settle and wait for promises, and run what is registered. -/
theorem Discipline.promising_settling (t : TaskId) : (settling t).Promising where
  make {w} label sound :=
    have same : w.SameCode (w.newPromise label) :=
      (World.Quiet.withPromises w _ w.promiseSteps w.turn.rival).sameCode
    have keeps (t : TaskId) : w.KeepsCallsOf t _ := World.keepsCallsOf_newPromise w label
    ⟨⟨same.accepted sound.1, sound.2.1, sound.2.2.newPromise label⟩, ⟨same.later, keeps t⟩,
      ⟨same.later, fun other _ => keeps other⟩⟩
  settle {w} id result sound := by
    obtain ⟨first, waiting, after, settles⟩ : ∃ first waiting after,
        (w.store.promise id).settle result = (first, waiting, after) := ⟨_, _, _, rfl⟩
    have unfolded : w.settle id result =
        (w.touchPromise id after (.offered result first)).withRival := by
      rw [World.settle, settles]
    have code : w.SameCode (w.touchPromise id after (.offered result first)).withRival :=
      (World.Quiet.withPromises w _ _ true).sameCode
    rw [unfolded, settles]
    by_cases bound : id < w.store.promises.size
    · have touches := World.advances_touch bound after (.offered result first)
      have advances : w.Advances (w.touchPromise id after (.offered result first)).withRival _ :=
        ⟨touches.steps, touches.size, touches.bound, touches.others, touches.old⟩
      have acts : (Promise.Call.entering (.settle result)).act? (w.store.promise id) =
          some ([.offered result first], [.delivering waiting result],
            (w.touchPromise id after (.offered result first)).withRival.store.promise id) := by
        have held : (w.touchPromise id after (.offered result first)).withRival.store.promise id =
          after := World.promise_touch bound after (.offered result first)
        rw [Promise.Call.act?, settles, held]
      exact delivers_touch sound advances code rfl acts rfl
    · have same := World.samePromises_touch bound after (.offered result first)
      have nothing : waiting = [] := by
        rw [Store.promise_of_size_le bound] at settles
        exact (congrArg (fun answer => answer.2.1) settles).symm
      rw [nothing]
      exact leads_settling sound (code.accepted sound.1) code.later rfl ⟨same.promises, same.steps⟩
  register {w id} k sound none := by
    have code : w.SameCode (w.register id k) :=
      (World.Quiet.withPromises w _ _ w.turn.rival).sameCode
    by_cases bound : id < w.store.promises.size
    · have held : (w.register id k).store.promise id = ((w.store.promise id).onSettle k).2 :=
        World.promise_touch bound ..
      have acts := Promise.Call.act?_onSettle none k
      rw [← held] at acts
      exact leads_touch sound (World.advances_touch bound _ _) code rfl acts rfl
    · exact leads_settling sound (code.accepted sound.1) code.later rfl
        (World.samePromises_touch bound _ _)
  registerLate {w id result} k sound settled := by
    have code : w.SameCode (w.register id k) :=
      (World.Quiet.withPromises w _ _ w.turn.rival).sameCode
    have bound := Store.lt_size_of_settled settled
    have held : (w.register id k).store.promise id = ((w.store.promise id).onSettle k).2 :=
      World.promise_touch bound ..
    have acts := Promise.Call.act?_onSettle_late settled k
    rw [← held] at acts
    exact delivers_touch sound (World.advances_touch bound _ _) code rfl acts rfl
  await {w id result} sound settled :=
    leads_touch sound (World.advances_note (Store.lt_size_of_settled settled) (Nat.le_refl _))
      (World.Quiet.withPromises w w.store.promises _ w.turn.rival).sameCode rfl
      (Promise.Call.act?_wait settled) rfl

instance (t : TaskId) : (Discipline.settling t).Permissive where
  imports := rfl
  roomy := fun _ _ => trivial
  stands := fun _ _ => trivial
  homes := fun _ _ => trivial
  accepted sound := sound.1
  world_later later := later.1
  change := fun sound accepted later same _ _ promises =>
    Discipline.leads_settling sound accepted later same.task promises
  suspend := fun {w w' _} sound rests resumes => by
    have same : w'.SameCode (w'.resume w) := .withTurn w' _ w'.clock
    have promises : w'.SamePromises (w'.resume w) := ⟨rfl, rfl⟩
    exact ⟨⟨same.accepted rests.1, sound.2.1, rests.2.of_same promises⟩,
      ⟨resumes.1.trans same.later, resumes.2.trans (.of_same promises)⟩,
      ⟨same.later, fun _ _ => .of_same promises⟩⟩
  call := fun sound _ => .of_leads
    (Discipline.leads_settling sound (sound.1.withCalls _ _) (fun _ has => has) rfl ⟨rfl, rfl⟩)
    ⟨.refl _, fun h => h, fun h => h⟩ fun sound =>
      Discipline.leads_settling sound (sound.1.withCalls _ _) (fun _ has => has) rfl ⟨rfl, rfl⟩
  interpreter := fun _ sound => .of_leads
    (Discipline.leads_settling sound (sound.1.withCalls _ _) (fun _ has => has) rfl ⟨rfl, rfl⟩)
    ⟨.refl _, fun h => h, fun h => h⟩ fun sound =>
      Discipline.leads_settling sound (sound.1.withCalls _ _) (fun _ has => has) rfl ⟨rfl, rfl⟩
  promising := Discipline.promising_settling t

end

/-! ## Tasks side by side -/

/-- Each task goes on with its own calls. -/
def Accord.settling : Accord where
  discipline := .settling
  rests w := w.Accepted ∧ w.KeepsPromises
  rely t w w' := w.Later w' ∧ w.KeepsCallsOf t w'
  accepts w job := job.task.Accepted w
  fresh _ _ := True
  rests_iff := .rfl
  rely_refl t w := ⟨.refl w, .refl t w⟩
  rely_trans h h' := ⟨h.1.trans h'.1, h.2.trans h'.2⟩
  yields apart yields := ⟨yields.1, yields.2 _ apart⟩
  resumes rely _ := rely
  turn turn clock rests := ⟨(World.SameCode.withTurn _ turn clock).accepted rests.1,
    rests.2.of_same ⟨rfl, rfl⟩⟩
  rely_turn t w turn clock := ⟨.refl w, .of_same ⟨rfl, rfl⟩⟩
  queue rests := ⟨⟨rests.1.withQueue nofun, rests.2.of_same ⟨rfl, rfl⟩⟩, rests.1.queue⟩
  rely_queue t w := ⟨.refl w, .of_same ⟨rfl, rfl⟩⟩
  accepts_rely rely accepted := accepted.later rely.1
  fresh_rely _ _ := trivial
  loses := fun {w} task lock rests => by
    have same : w.SameCode (w.lose task lock) := .lose w task lock
    obtain ⟨locks, history, changed⟩ := w.lose_eq task lock
    have promises : w.SamePromises (w.lose task lock) := changed ▸ ⟨rfl, rfl⟩
    exact ⟨⟨same.accepted rests.1, rests.2.of_same promises⟩,
      fun _ _ => ⟨same.later, .of_same promises⟩⟩
  sound := fun {t w} env rests _ task =>
    ⟨⟨rests.1.withCalls _ _, task, rests.2.of_same ⟨rfl, rfl⟩⟩,
      ⟨.refl w, fun _ _ => .of_same ⟨rfl, rfl⟩⟩⟩
  starts := fun {t w job} _ accepted _ _ => by
    have tame := Eval.tame_run_open (d := .settling t) Eval.levels
    exact Eval.tame_fulfil tame (Eval.tame_task_of_accepted tame (accepted.later (.refl w))
      fun _ _ _ => trivial)

/-! ## Engines -/

/-- A promise of a world is settled once, and each continuation is run once, unless it stands behind
one that has not returned. -/
structure World.Settles (w : World) (id : PromiseId) : Prop where
  /-- What has happened to it can come about from some calls, in some order. -/
  reached : ∃ label, (w.session id).Reached label
  /-- A call in progress runs a continuation, and no call has yet to begin with one. -/
  running : ∀ call ∈ (w.session id).calls, ∃ k behind result, call = .running k behind result
  /-- Once there is a result, a continuation that was registered has begun to run with it, or there is
  a call that is to run it and has begun to run one that was registered earlier. -/
  delivered : ∀ r, (w.store.promise id).result? = some r →
    ∀ k ∈ Promise.registered (w.session id).events, (k, r) ∈ Promise.runs (w.session id).events ∨
      ∃ earlier behind result, .running earlier behind result ∈ (w.session id).calls ∧ k ∈ behind ∧
        (earlier :: behind).Sublist (Promise.registered (w.session id).events)

/-- Where what is known of promises can have come about, it is as it should be. -/
theorem World.KeepsPromises.settles {w : World} (h : w.KeepsPromises) (id : PromiseId) :
    w.Settles id := by
  obtain ⟨label, reached⟩ := h.sessions id
  have settles := reached.settles
  have running : ∀ call ∈ (w.session id).calls, ∃ k behind result,
      call = .running k behind result := by
    intro call mem
    obtain ⟨⟨number, call⟩, known, rfl⟩ := List.mem_map.mp mem
    exact exists_running_of_mem_sessionCalls known
  refine ⟨⟨label, reached⟩, running, fun r settled k registered => ?_⟩
  have place := settles.accounted.mem_iff.mp registered
  rw [Promise.waiting_of_settled (p := (w.session id).promise) settled, List.nil_append,
    List.mem_append] at place
  rcases place with place | place
  · obtain ⟨⟨k, result⟩, toRun, rfl⟩ := List.mem_map.mp place
    obtain ⟨call, mem, waits⟩ := List.mem_flatMap.mp toRun
    obtain ⟨earlier, behind, result', rfl⟩ := running call mem
    obtain ⟨k, stands, same⟩ := List.mem_map.mp waits
    obtain ⟨rfl, -⟩ := Prod.mk.inj same
    exact .inr ⟨earlier, behind, result', mem, stands, settles.behind _ _ _ mem⟩
  · obtain ⟨⟨k, result⟩, ran, rfl⟩ := List.mem_map.mp place
    exact .inl (settles.runs r settled _ ran ▸ ran)

namespace Engine

variable {e : Engine}

theorem hosted_settling : Accord.settling.Hosted where
  empty := ⟨World.accepted_empty, World.keepsPromises_empty⟩
  fresh _ := trivial
  quiet rests quiet same := ⟨⟨quiet.sameCode.accepted rests.1, rests.2.of_same same⟩,
    fun _ => ⟨quiet.sameCode.later, .of_same same⟩⟩
  newEnvironment rests registered linked fresh :=
    have added := hosted_accepted.newEnvironment rests.1 registered linked fresh
    ⟨⟨added.1, rests.2.of_same ⟨rfl, rfl⟩⟩, fun t => ⟨added.2 t, .of_same ⟨rfl, rfl⟩⟩⟩
  program t _ _ _ _ := Eval.tame_program_open (d := .settling t)
  callHost t _ _ _ levels _ := (Eval.tame_run_open (d := .settling t) levels).callHost

/-- Whatever a host does, what is known of promises can have come about. -/
theorem Reached.keepsPromises (reached : e.Reached) : e.world.KeepsPromises :=
  (reached.keeps hosted_settling).world.2

/-- An engine that has run a source. -/
def ran (source : String) : Engine := ((start default).execute source []).2

theorem Reached.ran (source : String) : (ran source).Reached := .execute (.start default) source []

/-- Two functions are registered before there is a result, and one afterwards. -/
def hitsSample : String :=
  "var hits = 0; let p = async { sleep(50); 1 }; p.then(x => { hits += x }); " ++
    "p.then(x => { hits += x }); p.await(); p.then(x => { hits += x }); sleep(10); hits"

/-- What is left of it when the program has run. -/
def hit : Engine := ran hitsSample

/-- The first of two functions crashes. -/
def crashingSample : String :=
  "var hits = 0; let p = async { sleep(50); 1 }; " ++
    "p.then(x => \"text\".substring(3, to_num(\"nan\"))); p.then(x => { hits += 1 }); " ++
      "sleep(300); hits"

/-- What is left of it when the program has run. -/
def crashed : Engine := ran crashingSample

end Engine

end ScriptEngine
