import Mathlib.Data.List.Perm.Basic
import ScriptEngine.Store.Basic

/-!
# Promises under concurrent calls

Many calls on one promise may be in progress at the same time. Each of them touches the state of the
promise once, by one of the functions of `Promise`, and runs what it was given there afterwards, one
continuation after the other. A continuation need not return: it may crash, or go on for ever, and
then its call goes no further. Any order of steps is possible.

* `Promise.Session`: a promise, the calls in progress on it, and what has happened so far.
* `Promise.Session.Step`: one of the calls goes on.
* `Promise.Session.Reached`: what can come about, with new calls at any time.
* `Promise.Session.Sound`: what holds then; `Sound.acts` that a step keeps it.
* `Promise.Session.Settles`, `Promise.Session.Reached.settles`: a promise is settled once, and each
  continuation is run once, unless it stands behind one that does not return.
-/

namespace ScriptEngine.Promise

variable {α κ : Type}

/-! ## Calls in progress -/

/-- What can be asked of a promise. -/
inductive Request (α κ : Type)
  | settle (result : Except Panic α)
  | onSettle (continuation : κ)
  | wait

/-- A call in progress. -/
inductive Call (α κ : Type)
  /-- It has yet to touch the state. -/
  | entering (request : Request α κ)
  /-- It has touched the state and goes on to run these, one after another. -/
  | delivering (waiting : List κ) (result : Except Panic α)
  /-- It runs a continuation, and these come behind that. -/
  | running (continuation : κ) (waiting : List κ) (result : Except Panic α)

/-- The next step of a call: what it shows, how the call goes on, and the promise behind it. A wait
goes on only when there is a result. When a continuation returns, if it does, is not up to its
call. -/
def Call.act? (p : Promise α κ) :
    Call α κ → Option (List (Event α κ) × List (Call α κ) × Promise α κ)
  | .entering (.settle result) =>
    let (first, waiting, after) := p.settle result
    some ([.offered result first], [.delivering waiting result], after)
  | .entering (.onSettle continuation) =>
    match p.onSettle continuation with
    | (none, after) => some ([.registered continuation], [], after)
    | (some result, after) =>
      some ([.registered continuation], [.delivering [continuation] result], after)
  | .entering .wait => p.result?.map fun result => ([.waited result], [], p)
  | .delivering [] _ => some ([], [], p)
  | .delivering (continuation :: waiting) result =>
    some ([.ran continuation waiting result], [.running continuation waiting result], p)
  | .running _ _ _ => none

theorem Call.act?_onSettle {p : Promise α κ} (none : p.result? = none) (k : κ) :
    (Call.entering (.onSettle k)).act? p = some ([.registered k], [], (p.onSettle k).2) := by
  obtain ⟨label, state⟩ := p
  cases state with
  | pending waiting => rfl
  | settled result => cases none

theorem Call.act?_onSettle_late {p : Promise α κ} {result : Except Panic α}
    (settled : p.result? = some result) (k : κ) : (Call.entering (.onSettle k)).act? p =
      some ([.registered k], [.delivering [k] result], (p.onSettle k).2) := by
  obtain ⟨label, state⟩ := p
  cases state with
  | pending waiting => cases settled
  | settled found =>
    obtain rfl := Option.some.inj settled
    rfl

theorem Call.act?_wait {p : Promise α κ} {result : Except Panic α}
    (settled : p.result? = some result) :
    (Call.entering .wait).act? p = some ([.waited result], [], p) := by
  rw [act?, settled]
  rfl

/-- A promise, the calls in progress on it, and what has happened so far, the earliest first. -/
structure Session (α κ : Type) where
  promise : Promise α κ
  calls : List (Call α κ)
  events : List (Event α κ)

namespace Session

/-- One of the calls in progress goes on. -/
inductive Step : Session α κ → Session α κ → Prop
  | act {p after : Promise α κ} {call : Call α κ} {earlier later : List (Call α κ)}
    {calls : List (Call α κ)} {events shown : List (Event α κ)} :
    call.act? p = some (shown, calls, after) →
    Step ⟨p, earlier ++ call :: later, events⟩ ⟨after, earlier ++ calls ++ later, events ++ shown⟩
  | returns {p : Promise α κ} {earlier later : List (Call α κ)} {events : List (Event α κ)}
    (continuation : κ) (waiting : List κ) (result : Except Panic α) :
    Step ⟨p, earlier ++ .running continuation waiting result :: later, events⟩
      ⟨p, earlier ++ .delivering waiting result :: later, events ++ [.returned continuation]⟩

/-- What can come about from a fresh promise, with new calls at any time. The calls are in no
order. -/
inductive Reached (label : String) : Session α κ → Prop
  | fresh : Reached label ⟨.fresh label, [], []⟩
  | call {s : Session α κ} (request : Request α κ) : Reached label s →
    Reached label { s with calls := s.calls ++ [.entering request] }
  | step {s s' : Session α κ} : Reached label s → Step s s' → Reached label s'
  | order {s : Session α κ} {calls : List (Call α κ)} : Reached label s → s.calls.Perm calls →
    Reached label { s with calls }

section

variable {s : Session α κ} {p after : Promise α κ} {call : Call α κ} {later calls : List (Call α κ)}
  {events shown : List (Event α κ)} {label : String}

/-- A new call may come in front of the others. -/
theorem Reached.enter (h : Reached label s) (request : Request α κ) :
    Reached label { s with calls := .entering request :: s.calls } :=
  (h.call request).order (List.perm_append_singleton ..)

/-- The call in front goes on. -/
theorem Reached.act (h : Reached label ⟨p, call :: later, events⟩)
    (acts : call.act? p = some (shown, calls, after)) :
    Reached label ⟨after, calls ++ later, events ++ shown⟩ := by
  have step : Step ⟨p, [] ++ call :: later, events⟩
      ⟨after, [] ++ calls ++ later, events ++ shown⟩ := .act acts
  exact h.step step

/-- The continuation returns that the call in front runs. -/
theorem Reached.return {k : κ} {waiting : List κ} {result : Except Panic α}
    (h : Reached label ⟨p, .running k waiting result :: later, events⟩) :
    Reached label ⟨p, .delivering waiting result :: later, events ++ [.returned k]⟩ := by
  have step : Step ⟨p, [] ++ .running k waiting result :: later, events⟩
      ⟨p, [] ++ .delivering waiting result :: later, events ++ [.returned k]⟩ :=
    .returns k waiting result
  exact h.step step

end

end Session

/-! ## What has happened -/

/-- The results that were offered, each with the answer to its call. -/
def offers (events : List (Event α κ)) : List (Except Panic α × Bool) :=
  events.filterMap fun
    | .offered result first => some (result, first)
    | _ => none

/-- The continuations that were registered. -/
def registered (events : List (Event α κ)) : List κ :=
  events.filterMap fun
    | .registered continuation => some continuation
    | _ => none

/-- The continuations that began to run, each with the result it was given. -/
def runs (events : List (Event α κ)) : List (κ × Except Panic α) :=
  events.filterMap fun
    | .ran continuation _ result => some (continuation, result)
    | _ => none

/-- The continuations that have returned. -/
def returns (events : List (Event α κ)) : List κ :=
  events.filterMap fun
    | .returned continuation => some continuation
    | _ => none

/-- What waits have returned. -/
def waits (events : List (Event α κ)) : List (Except Panic α) :=
  events.filterMap fun
    | .waited result => some result
    | _ => none

/-- What waits for the result. -/
def waiting (p : Promise α κ) : List κ :=
  match p.state with
  | .pending waiting => waiting
  | .settled _ => []

/-- The continuations that a call has still to run, each with the result it will be given. -/
def Call.toRun : Call α κ → List (κ × Except Panic α)
  | .entering _ => []
  | .delivering waiting result | .running _ waiting result => waiting.map (·, result)

/-- The continuation that a call runs. -/
def Call.runs : Call α κ → List κ
  | .entering _ | .delivering _ _ => []
  | .running continuation _ _ => [continuation]

/-- The continuations of a call in the order of their turns. -/
def Call.line : Call α κ → List κ
  | .entering _ => []
  | .delivering waiting _ => waiting
  | .running continuation waiting _ => continuation :: waiting

/-! ## What a step does -/

/-- The steps there are, each with what it shows. -/
inductive Call.Acts : Promise α κ → Call α κ → List (Event α κ) → List (Call α κ) → Promise α κ →
    Prop
  | settleFirst {label : String} {waiting : List κ} (result : Except Panic α) :
    Acts ⟨label, .pending waiting⟩ (.entering (.settle result)) [.offered result true]
      [.delivering waiting result] ⟨label, .settled result⟩
  | settleAgain {label : String} {settled : Except Panic α} (result : Except Panic α) :
    Acts ⟨label, .settled settled⟩ (.entering (.settle result)) [.offered result false]
      [.delivering [] result] ⟨label, .settled settled⟩
  | register {label : String} {waiting : List κ} (k : κ) :
    Acts ⟨label, .pending waiting⟩ (.entering (.onSettle k)) [.registered k] []
      ⟨label, .pending (waiting ++ [k])⟩
  | registerLate {label : String} {settled : Except Panic α} (k : κ) :
    Acts ⟨label, .settled settled⟩ (.entering (.onSettle k)) [.registered k]
      [.delivering [k] settled] ⟨label, .settled settled⟩
  | wait {label : String} {settled : Except Panic α} :
    Acts ⟨label, .settled settled⟩ (.entering .wait) [.waited settled] [] ⟨label, .settled settled⟩
  | leave {p : Promise α κ} (result : Except Panic α) : Acts p (.delivering [] result) [] [] p
  | begin {p : Promise α κ} (k : κ) (waiting : List κ) (result : Except Panic α) :
    Acts p (.delivering (k :: waiting) result) [.ran k waiting result]
      [.running k waiting result] p
  | return {p : Promise α κ} (k : κ) (waiting : List κ) (result : Except Panic α) :
    Acts p (.running k waiting result) [.returned k] [.delivering waiting result] p

variable {p after : Promise α κ} {call : Call α κ} {shown : List (Event α κ)}
  {calls : List (Call α κ)} {s s' : Session α κ} {r : Except Panic α} {label : String}

theorem Call.acts_of_act? (h : call.act? p = some (shown, calls, after)) :
    call.Acts p shown calls after := by
  obtain ⟨label, state⟩ := p
  cases call with
  | running k waiting result => cases h
  | delivering waiting result => cases waiting <;> cases h <;> constructor
  | entering request => cases request <;> cases state <;> cases h <;> constructor

/-- A promise with a result stays as it is. -/
theorem Call.Acts.eq_of_settled (h : call.Acts p shown calls after) (settled : p.result? = some r) :
    after = p := by
  cases h with
  | settleFirst | register => cases settled
  | _ => rfl

/-- A result stays. -/
theorem Call.Acts.result? (h : call.Acts p shown calls after) (settled : p.result? = some r) :
    after.result? = some r := by
  rw [h.eq_of_settled settled, settled]

/-- Offers are made one at a time: the first one gives the result, and no other step changes it. -/
theorem Call.Acts.offers (h : call.Acts p shown calls after) :
    (∃ result, p.result? = none ∧ offers shown = [(result, true)] ∧ after.result? = some result) ∨
    (∃ result, p.result?.isSome ∧ offers shown = [(result, false)] ∧ after.result? = p.result?) ∨
    (offers shown = [] ∧ after.result? = p.result?) := by
  cases h with
  | settleFirst result => exact .inl ⟨result, rfl, rfl, rfl⟩
  | settleAgain result => exact .inr (.inl ⟨result, rfl, rfl, rfl⟩)
  | _ => exact .inr (.inr ⟨rfl, rfl⟩)

theorem waiting_of_settled (settled : p.result? = some r) : p.waiting = [] := by
  obtain ⟨label, state⟩ := p
  cases state with
  | pending waiting => cases settled
  | settled result => rfl

/-- What begins to run was there to be run. -/
theorem Call.Acts.runs (h : call.Acts p shown calls after) :
    ∀ run ∈ Promise.runs shown, run ∈ call.toRun := by
  cases h with
  | begin k waiting result =>
    intro run mem
    obtain rfl := List.mem_singleton.mp mem
    exact List.mem_cons_self
  | _ => exact fun _ mem => by cases mem

/-- A wait returns the result. -/
theorem Call.Acts.waits (h : call.Acts p shown calls after) :
    ∀ result ∈ Promise.waits shown, after.result? = some result := by
  cases h with
  | wait =>
    intro result mem
    rw [List.mem_singleton.mp mem]
    rfl
  | _ => exact fun _ mem => by cases mem

/-- What there is to be run behind a step was there before, or the promise now has its result. -/
theorem Call.Acts.toRun (h : call.Acts p shown calls after) :
    ∀ run ∈ calls.flatMap Call.toRun, after.result? = some run.2 ∨ run ∈ call.toRun := by
  intro run mem
  cases h with
  | settleFirst | registerLate =>
    simp only [List.flatMap_singleton, Call.toRun, List.mem_map] at mem
    obtain ⟨k, -, rfl⟩ := mem
    exact .inl rfl
  | begin k =>
    simp only [List.flatMap_singleton] at mem
    exact .inr (List.mem_cons_of_mem _ mem)
  | «return» k =>
    simp only [List.flatMap_singleton] at mem
    exact .inr mem
  | _ => cases mem

/-- A continuation that a step registers or finds to be run is among those that wait, those to be
run and those that began to run. -/
theorem Call.Acts.accounted (h : call.Acts p shown calls after) :
    (registered shown ++ (p.waiting ++ call.toRun.map (·.1))).Perm
      (after.waiting ++ (calls.flatMap Call.toRun).map (·.1) ++ (Promise.runs shown).map (·.1)) := by
  have names (waiting : List κ) (result : Except Panic α) :
      (waiting.map (·, result)).map (·.1) = waiting := by
    rw [List.map_map]
    exact List.map_id waiting
  cases h with
  | @register _ waiting k =>
    simpa [registered, Promise.runs, Promise.waiting, Call.toRun] using
      (List.perm_append_singleton k waiting).symm
  | begin k waiting =>
    simpa [registered, Promise.runs, Call.toRun, names] using
      (List.perm_append_singleton k waiting).symm.append_left p.waiting
  | _ => simp [registered, Promise.runs, waiting, Call.toRun, names]

/-- A continuation that begins to run goes on to do so until it returns. -/
theorem Call.Acts.running (h : call.Acts p shown calls after) :
    (call.runs ++ (Promise.runs shown).map (·.1)).Perm
      (calls.flatMap Call.runs ++ returns shown) := by
  cases h <;> simp [Call.runs, Promise.runs, returns]

/-- The lines of calls are as they were registered. -/
theorem Call.Acts.inLine (h : call.Acts p shown calls after) {names : List κ}
    (waiting : p.waiting.Sublist names) (line : call.line.Sublist names) :
    after.waiting.Sublist (names ++ registered shown) ∧
      ∀ other ∈ calls, other.line.Sublist (names ++ registered shown) := by
  have onward {ks : List κ} (sub : ks.Sublist names) : ks.Sublist (names ++ registered shown) :=
    sub.trans (List.sublist_append_left _ _)
  have only {ks : List κ} {only : Call α κ} (sub : ks.Sublist (names ++ registered shown))
      (same : only.line = ks) : ∀ other ∈ [only], other.line.Sublist (names ++ registered shown) :=
    fun other mem => List.mem_singleton.mp mem ▸ same ▸ sub
  cases h with
  | settleFirst result => exact ⟨List.nil_sublist _, only (onward waiting) rfl⟩
  | settleAgain result => exact ⟨List.nil_sublist _, only (List.nil_sublist _) rfl⟩
  | register k => exact ⟨waiting.append_right [k], nofun⟩
  | registerLate k => exact ⟨List.nil_sublist _, only (List.sublist_append_right names [k]) rfl⟩
  | wait => exact ⟨List.nil_sublist _, nofun⟩
  | leave => exact ⟨onward waiting, nofun⟩
  | begin k ks => exact ⟨onward waiting, only (onward line) rfl⟩
  | «return» k ks =>
    exact ⟨onward waiting, only (onward ((List.sublist_cons_self k ks).trans line)) rfl⟩

namespace Session

/-! ## What always holds -/

/-- All that is still to be run, with the results. -/
def toRun (s : Session α κ) : List (κ × Except Panic α) := s.calls.flatMap Call.toRun

/-- All that is being run. -/
def running (s : Session α κ) : List κ := s.calls.flatMap Call.runs

/-- A promise has the first result that was offered, that offer alone was answered with yes, what is
run or returned is that result, and each continuation is in one of three places. -/
structure Sound (s : Session α κ) : Prop where
  unsettled : s.promise.result? = none → offers s.events = []
  settled : ∀ r, s.promise.result? = some r →
    ∃ later, offers s.events = (r, true) :: later ∧ ∀ offer ∈ later, offer.2 = false
  runs : ∀ run ∈ runs s.events, s.promise.result? = some run.2
  waits : ∀ result ∈ waits s.events, s.promise.result? = some result
  toRun : ∀ run ∈ s.toRun, s.promise.result? = some run.2
  accounted : (registered s.events).Perm
    (s.promise.waiting ++ s.toRun.map (·.1) ++ (Promise.runs s.events).map (·.1))
  running : ((Promise.runs s.events).map (·.1)).Perm (s.running ++ returns s.events)
  waiting : s.promise.waiting.Sublist (registered s.events)
  lines : ∀ call ∈ s.calls, call.line.Sublist (registered s.events)

theorem Sound.fresh : Sound (⟨.fresh label, [], []⟩ : Session α κ) where
  unsettled := fun _ => rfl
  settled := fun _ same => by cases same
  runs := fun _ mem => by cases mem
  waits := fun _ mem => by cases mem
  toRun := fun _ mem => by cases mem
  accounted := .refl _
  running := .refl _
  waiting := List.nil_sublist _
  lines := fun _ mem => by cases mem

/-- A new call has nothing to run yet. -/
theorem Sound.asked (h : s.Sound) (request : Request α κ) :
    Sound { s with calls := s.calls ++ [.entering request] } := by
  have toRun : Session.toRun { s with calls := s.calls ++ [.entering request] } = s.toRun := by
    simp [Session.toRun, Call.toRun]
  have running : Session.running { s with calls := s.calls ++ [.entering request] } = s.running := by
    simp [Session.running, Call.runs]
  refine ⟨h.unsettled, h.settled, h.runs, h.waits, ?_, ?_, ?_, h.waiting, ?_⟩
  · rw [toRun]
    exact h.toRun
  · rw [toRun]
    exact h.accounted
  · rw [running]
    exact h.running
  · intro call mem
    rcases List.mem_append.mp mem with mem | mem
    · exact h.lines call mem
    · rw [List.mem_singleton.mp mem]
      exact List.nil_sublist _

section

variable {events : List (Event α κ)} {earlier remaining : List (Call α κ)}

theorem offers_append : offers (events ++ shown) = offers events ++ offers shown :=
  List.filterMap_append

theorem registered_append : registered (events ++ shown) = registered events ++ registered shown :=
  List.filterMap_append

theorem runs_append : Promise.runs (events ++ shown) = Promise.runs events ++ Promise.runs shown :=
  List.filterMap_append

theorem returns_append :
    Promise.returns (events ++ shown) = Promise.returns events ++ Promise.returns shown :=
  List.filterMap_append

theorem waits_append :
    Promise.waits (events ++ shown) = Promise.waits events ++ Promise.waits shown :=
  List.filterMap_append

theorem mem_toRun {run : κ × Except Panic α} (mem : run ∈ call.toRun) :
    run ∈ toRun ⟨p, earlier ++ call :: remaining, events⟩ :=
  List.mem_flatMap.mpr ⟨call, by simp, mem⟩

/-- A step keeps what holds. -/
theorem Sound.acts (h : Sound ⟨p, earlier ++ call :: remaining, events⟩)
    (acts : call.Acts p shown calls after) :
    Sound ⟨after, earlier ++ calls ++ remaining, events ++ shown⟩ := by
  obtain ⟨waiting, lines⟩ := acts.inLine h.waiting (h.lines call (by simp))
  constructor
  case unsettled =>
    intro none
    dsimp only at none ⊢
    rw [offers_append]
    rcases acts.offers with ⟨result, -, -, same⟩ | ⟨result, some, -, same⟩ | ⟨nothing, same⟩
    · rw [same] at none
      cases none
    · rw [← same, none] at some
      cases some
    · rw [nothing, h.unsettled (same ▸ none)]
      rfl
  case settled =>
    intro r some
    dsimp only at some ⊢
    rw [offers_append]
    rcases acts.offers with ⟨result, none, offer, same⟩ | ⟨result, -, offer, same⟩ | ⟨nothing, same⟩
    · obtain rfl := Option.some.inj (same.symm.trans some)
      exact ⟨[], by rw [offer, h.unsettled none]; rfl, fun _ mem => by cases mem⟩
    · obtain ⟨later, first, all⟩ := h.settled r (same ▸ some)
      refine ⟨later ++ [(result, false)], by rw [offer, first]; rfl, fun offer mem => ?_⟩
      rcases List.mem_append.mp mem with mem | mem
      · exact all offer mem
      · rw [List.mem_singleton.mp mem]
    · rw [nothing, List.append_nil]
      exact h.settled r (same ▸ some)
  case runs =>
    intro run mem
    rw [runs_append, List.mem_append] at mem
    rcases mem with mem | mem
    · exact acts.result? (h.runs run mem)
    · exact acts.result? (h.toRun run (mem_toRun (acts.runs run mem)))
  case waits =>
    intro result mem
    rw [waits_append, List.mem_append] at mem
    rcases mem with mem | mem
    · exact acts.result? (h.waits result mem)
    · exact acts.waits result mem
  case toRun =>
    intro run mem
    simp only [Session.toRun, List.flatMap_append, List.mem_append] at mem
    rcases mem with (mem | mem) | mem
    · exact acts.result? (h.toRun run (by simp [Session.toRun, mem]))
    · rcases acts.toRun run mem with same | before
      · exact same
      · exact acts.result? (h.toRun run (mem_toRun before))
    · exact acts.result? (h.toRun run (by simp [Session.toRun, mem]))
  case accounted =>
    classical
    refine List.perm_iff_count.mpr fun k => ?_
    have before := List.perm_iff_count.mp h.accounted k
    have step := List.perm_iff_count.mp acts.accounted k
    simp only [registered_append, runs_append, Session.toRun, List.flatMap_append, List.flatMap_cons,
      List.map_append, List.count_append] at before step ⊢
    omega
  case running =>
    classical
    refine List.perm_iff_count.mpr fun k => ?_
    have before := List.perm_iff_count.mp h.running k
    have step := List.perm_iff_count.mp acts.running k
    simp only [runs_append, returns_append, Session.running, List.flatMap_append, List.flatMap_cons,
      List.map_append, List.count_append] at before step ⊢
    omega
  case waiting => rwa [registered_append]
  case lines =>
    intro other mem
    rw [registered_append]
    simp only [List.mem_append] at mem
    rcases mem with (mem | mem) | mem
    · exact (h.lines other (by simp [mem])).trans (List.sublist_append_left _ _)
    · exact lines other mem
    · exact (h.lines other (by simp [mem])).trans (List.sublist_append_left _ _)

end

/-- A step is that of one call. -/
theorem Step.exists_acts (h : Step s s') : ∃ call earlier later calls shown,
    s.calls = earlier ++ call :: later ∧ s'.calls = earlier ++ calls ++ later ∧
      s'.events = s.events ++ shown ∧ call.Acts s.promise shown calls s'.promise := by
  cases h with
  | act acts => exact ⟨_, _, _, _, _, rfl, rfl, rfl, Call.acts_of_act? acts⟩
  | @returns p earlier later events k waiting result =>
    exact ⟨_, earlier, later, [.delivering waiting result], _, rfl, by simp, rfl,
      .return k waiting result⟩

theorem Step.sound (h : Step s s') (sound : s.Sound) : s'.Sound := by
  obtain ⟨p, _, events⟩ := s
  obtain ⟨after, _, _⟩ := s'
  obtain ⟨call, earlier, later, calls, shown, rfl, rfl, rfl, acts⟩ := h.exists_acts
  exact sound.acts acts

/-- The order of calls does not matter. -/
theorem Sound.perm (h : s.Sound) {calls : List (Call α κ)} (perm : s.calls.Perm calls) :
    Sound { s with calls } where
  unsettled := h.unsettled
  settled := h.settled
  runs := h.runs
  waits := h.waits
  toRun run mem := h.toRun run ((perm.flatMap_right Call.toRun).mem_iff.mpr mem)
  accounted := h.accounted.trans
    ((((perm.flatMap_right Call.toRun).map (·.1)).append_left _).append_right _)
  running := h.running.trans ((perm.flatMap_right Call.runs).append_right _)
  waiting := h.waiting
  lines call mem := h.lines call (perm.mem_iff.mpr mem)

theorem Reached.sound (h : Reached label s) : s.Sound := by
  induction h with
  | fresh => exact .fresh
  | call request _ ih => exact ih.asked request
  | step _ step ih => exact step.sound ih
  | order _ perm ih => exact ih.perm perm

/-! ## Once there is a result -/

theorem Step.promise_eq (h : Step s s') (settled : s.promise.result? = some r) :
    s'.promise = s.promise := by
  obtain ⟨_, _, _, _, _, -, -, -, acts⟩ := h.exists_acts
  exact acts.eq_of_settled settled

end Session

/-- A number that each step of a call brings down, once there is a result. -/
def Call.work : Call α κ → Nat
  | .entering _ => 4
  | .delivering waiting _ => 2 * waiting.length + 1
  | .running _ waiting _ => 2 * waiting.length + 2

/-- `Call.work` for all of some calls. -/
def workOf : List (Call α κ) → Nat
  | [] => 0
  | call :: calls => call.work + workOf calls

theorem workOf_append (calls calls' : List (Call α κ)) :
    workOf (calls ++ calls') = workOf calls + workOf calls' := by
  induction calls with
  | nil => rw [List.nil_append, workOf, Nat.zero_add]
  | cons call calls ih => rw [List.cons_append, workOf, workOf, ih, Nat.add_assoc]

theorem Call.Acts.work_lt (h : call.Acts p shown calls after) (settled : p.result? = some r) :
    workOf calls < call.work := by
  cases h with
  | settleFirst | register => cases settled
  | begin k waiting result =>
    simp only [workOf, work, List.length_cons]
    omega
  | _ => simp [workOf, work]

namespace Session

theorem Step.work_lt (h : Step s s') (settled : s.promise.result? = some r) :
    workOf s'.calls < workOf s.calls := by
  obtain ⟨call, earlier, later, calls, shown, before, after, -, acts⟩ := h.exists_acts
  have less := acts.work_lt settled
  rw [before, after]
  simp only [workOf_append, workOf]
  omega

/-- There are only so many steps. -/
theorem acc_of_settled (settled : s.promise.result? = some r) :
    Acc (fun after before : Session α κ => Step before after) s := by
  generalize size : workOf s.calls = n
  induction n using Nat.strongRecOn generalizing s with
  | ind n ih =>
    refine .intro s fun s' step => ih (workOf s'.calls) (size ▸ step.work_lt settled) ?_ rfl
    rw [step.promise_eq settled, settled]

/-- Once there is a result no call has to wait, but for the continuation that it runs. -/
theorem act?_of_settled (settled : p.result? = some r) (idle : call.runs = []) :
    (call.act? p).isSome := by
  obtain ⟨label, state⟩ := p
  cases state with
  | pending waiting => cases settled
  | settled result =>
    cases call with
    | entering request => cases request <;> rfl
    | delivering waiting result => cases waiting <;> rfl
    | running k waiting result => cases idle

/-! ## A promise is settled once -/

/-- A promise is settled once, and each continuation is run once, unless it stands behind one that
does not return. -/
structure Settles (s : Session α κ) : Prop where
  /-- No continuation is run before there is a result, and no wait returns. -/
  unsettled : s.promise.result? = none → offers s.events = [] ∧ Promise.runs s.events = [] ∧
    Promise.waits s.events = [] ∧ (registered s.events).Perm s.promise.waiting
  /-- The first result that is offered is that of the promise, and the only offer answered with
  yes. -/
  offers : ∀ r, s.promise.result? = some r →
    ∃ later, offers s.events = (r, true) :: later ∧ ∀ offer ∈ later, offer.2 = false
  waits : ∀ r, s.promise.result? = some r → ∀ result ∈ Promise.waits s.events, result = r
  runs : ∀ r, s.promise.result? = some r → ∀ run ∈ Promise.runs s.events, run.2 = r
  /-- Nothing changes it then. -/
  stays : ∀ r, s.promise.result? = some r → ∀ s', Step s s' → s'.promise = s.promise
  /-- A continuation that was registered waits, is to be run by a call in progress, or began to run:
  one of these, as often as it was registered. -/
  accounted : (registered s.events).Perm
    (s.promise.waiting ++ s.toRun.map (·.1) ++ (Promise.runs s.events).map (·.1))
  /-- One that began to run does so, or has returned. -/
  running : ((Promise.runs s.events).map (·.1)).Perm (s.running ++ returns s.events)
  /-- What a call has still to run was registered behind what it runs now. -/
  behind : ∀ k waiting result, .running k waiting result ∈ s.calls →
    (k :: waiting).Sublist (registered s.events)
  /-- Once there is a result, only so many steps are left. -/
  terminates : ∀ r, s.promise.result? = some r →
    Acc (fun after before : Session α κ => Step before after) s
  /-- A call only waits for the continuation that it runs then. -/
  ready : ∀ r, s.promise.result? = some r →
    ∀ call ∈ s.calls, call.runs = [] → (call.act? s.promise).isSome
  /-- When all calls have ended, each continuation was run as often as it was registered. -/
  complete : ∀ r, s.promise.result? = some r → s.calls = [] →
    ((Promise.runs s.events).map (·.1)).Perm (registered s.events)

/-- Whatever calls there are, and whatever order their steps come in. -/
theorem Reached.settles (h : Reached label s) : s.Settles := by
  have sound := h.sound
  constructor
  case unsettled =>
    intro none
    have runs : Promise.runs s.events = [] :=
      List.eq_nil_iff_forall_not_mem.mpr fun run mem => by cases none.symm.trans (sound.runs run mem)
    have toRun : s.toRun = [] :=
      List.eq_nil_iff_forall_not_mem.mpr fun run mem => by cases none.symm.trans (sound.toRun run mem)
    refine ⟨sound.unsettled none, runs, ?_, ?_⟩
    · exact List.eq_nil_iff_forall_not_mem.mpr fun result mem => by
        cases none.symm.trans (sound.waits result mem)
    · simpa [runs, toRun] using sound.accounted
  case offers => exact sound.settled
  case waits =>
    exact fun r settled result mem => Option.some.inj ((sound.waits result mem).symm.trans settled)
  case runs =>
    exact fun r settled run mem => Option.some.inj ((sound.runs run mem).symm.trans settled)
  case stays => exact fun r settled s' step => step.promise_eq settled
  case accounted => exact sound.accounted
  case running => exact sound.running
  case behind => exact fun k waiting result mem => sound.lines _ mem
  case terminates => exact fun r settled => acc_of_settled settled
  case ready => exact fun r settled call _ idle => act?_of_settled settled idle
  case complete =>
    intro r settled ended
    have all := sound.accounted
    rw [waiting_of_settled settled, toRun, ended] at all
    exact all.symm

end Session

end ScriptEngine.Promise
