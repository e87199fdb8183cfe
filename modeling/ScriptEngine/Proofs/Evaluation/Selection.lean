import ScriptEngine.Evaluation.Statement
import ScriptEngine.Proofs.Evaluation.Plain
import ScriptEngine.Proofs.Evaluation.Statements
import ScriptEngine.Proofs.Modules.Engines
import ScriptEngine.Proofs.Store.Matching
import ScriptEngine.Proofs.Store.Scoping

/-!
# The first arm that accepts a value

The arms of a match are judged in order. The pattern of an arm fits the value or not; if it does, the
names of the pattern are declared in a new frame, and the guard is evaluated there. The first arm that
is not rejected is taken, or else the match comes to the unit. What an arm binds that is rejected does
not matter to anything behind it.

* `Progress.Comes`: what an evaluation ends with, wherever it is continued in between.
* `Verdict`, `Judged`, `Judges`: what becomes of an arm, and of some arms in order.
* `selectArm_comes_iff`: which arm is selected.
* `MatchEnds`: what a match comes to.
* `SelectsFirst`, `Eval.selectArm_first`: all of this, and what frames of arms hold and hide.
* `Engine.Reached.unseen`: frames of arms are hidden in every engine.
-/

namespace ScriptEngine

/-! ## Ends -/

/-- An evaluation ends with a value or a stop, if it is continued where it waits, in worlds that others
may have made meanwhile. -/
def Progress.Comes {α : Type} (meanwhile : Wait → World → World → Prop) :
    Progress α → Except Stop α → World → Prop
  | .done value w, result, last => result = .ok value ∧ last = w
  | .stopped stop w, result, last => result = .error stop ∧ last = w
  | .waiting wait w resume, result, last =>
    ∃ w', meanwhile wait w w' ∧ (resume w').Comes meanwhile result last

section

variable {α β : Type} {meanwhile : Wait → World → World → Prop} {last : World}

/-- Two parts of an evaluation end with what the second one does, or where the first one stops. -/
theorem Progress.comes_bind {p : Progress α} {next : α → World → Progress β}
    {result : Except Stop β} : (p.bind next).Comes meanwhile result last ↔
      (∃ value w, p.Comes meanwhile (.ok value) w ∧ (next value w).Comes meanwhile result last) ∨
        ∃ stop, p.Comes meanwhile (.error stop) last ∧ result = .error stop := by
  induction p with
  | done value w => simp [bind, Comes]
  | stopped stop w => simp [bind, Comes, and_comm]
  | waiting wait w resume ih =>
    simp only [bind, Comes, ih]
    constructor
    · rintro ⟨w', resumes, ⟨value, w₁, first, second⟩ | ⟨stop, stops, same⟩⟩
      · exact .inl ⟨value, w₁, ⟨w', resumes, first⟩, second⟩
      · exact .inr ⟨stop, ⟨w', resumes, stops⟩, same⟩
    · rintro (⟨value, w₁, ⟨w', resumes, first⟩, second⟩ | ⟨stop, ⟨w', resumes, stops⟩, same⟩)
      · exact ⟨w', resumes, .inl ⟨value, w₁, first, second⟩⟩
      · exact ⟨w', resumes, .inr ⟨stop, stops, same⟩⟩

theorem Eval.comes_bind {x : Eval α} {next : α → Eval β} {env : EnvId} {w : World}
    {result : Except Stop β} : ((x >>= next) env w).Comes meanwhile result last ↔
      (∃ value w', (x env w).Comes meanwhile (.ok value) w' ∧
        (next value env w').Comes meanwhile result last) ∨
        ∃ stop, (x env w).Comes meanwhile (.error stop) last ∧ result = .error stop := by
  rw [bind_eq]
  exact Progress.comes_bind

/-- A signal that is attempted is a value. -/
theorem Progress.comes_attempt_ok {p : Progress α} {result : Except Signal α} :
    p.attempt.Comes meanwhile (.ok result) last ↔
      p.Comes meanwhile (result.mapError .signal) last := by
  induction p with
  | done value w => cases result <;> simp [attempt, Comes, Except.mapError]
  | stopped stop w => cases stop <;> cases result <;> simp [attempt, Comes, Except.mapError]
  | waiting wait w resume ih => exact exists_congr fun w' => and_congr_right fun _ => ih w'

/-- What is attempted only stops where it is not finished. -/
theorem Progress.comes_attempt_error {p : Progress α} {stop : Stop} :
    p.attempt.Comes meanwhile (.error stop) last ↔
      (∃ halt, stop = .unfinished halt) ∧ p.Comes meanwhile (.error stop) last := by
  induction p with
  | done value w => simp [attempt, Comes]
  | stopped found w =>
    cases found with
    | signal s =>
      constructor
      · exact fun ends => nomatch ends.1
      · rintro ⟨⟨_, rfl⟩, ⟨⟩, -⟩
    | unfinished halt =>
      simp only [attempt, Comes, Except.error.injEq]
      exact ⟨fun ends => ⟨⟨halt, ends.1⟩, ends⟩, fun ends => ends.2⟩
  | waiting wait w resume ih =>
    simp only [attempt, Comes, ih]
    exact ⟨fun ⟨w', resumes, same, ends⟩ => ⟨same, w', resumes, ends⟩,
      fun ⟨same, w', resumes, ends⟩ => ⟨w', resumes, same, ends⟩⟩

/-- An evaluation that follows a discipline, and is continued as that foresees, ends in a later
world. -/
theorem Progress.Follows.later_of_comes {d : Discipline} {base now : World}
    {post : α → World → Prop} {ends : Signal → Prop} {p : Progress α} {value : α}
    (follows : p.Follows d base now post ends)
    (comes : p.Comes (fun wait w w' => d.rests w' ∧ d.resumes wait w w') (.ok value) last) :
    d.later base last := by
  induction p generalizing now with
  | done value w =>
    obtain ⟨-, rfl⟩ := comes
    exact follows.1.later
  | stopped stop w => cases comes.1
  | waiting wait w resume ih =>
    obtain ⟨w', ⟨rests, resumes⟩, comes⟩ := comes
    exact ih w' (follows.2.2 w' rests resumes) comes

/-- It is left by no other signals than those that may leave it. -/
theorem Progress.Follows.ends_of_comes {d : Discipline} {base now : World}
    {post : α → World → Prop} {ends : Signal → Prop} {p : Progress α} {s : Signal}
    (follows : p.Follows d base now post ends)
    (comes : p.Comes (fun wait w w' => d.rests w' ∧ d.resumes wait w w') (.error (.signal s)) last) :
    ends s := by
  induction p generalizing now with
  | done value w => cases comes.1
  | stopped stop w =>
    cases comes.1
    exact follows.2
  | waiting wait w resume ih =>
    obtain ⟨w', ⟨rests, resumes⟩, comes⟩ := comes
    exact ih w' (follows.2.2 w' rests resumes) comes

end

/-! ## Arms in order -/

/-- The world with a new frame inside another one, in which some names have been declared. -/
def World.scope (w : World) (frame : FrameId) (names : List (String × Value)) : World :=
  { w with store.frames := w.store.frames.scope frame names }

/-- The number of the next frame. -/
def World.nextFrame (w : World) : FrameId := w.store.frames.frames.size

/-- What becomes of an arm. -/
inductive Verdict
  /-- Its pattern does not fit the value. -/
  | unfit
  /-- Its pattern fits the value, and it has no guard. What it binds is in a frame. -/
  | unguarded (inside : FrameId)
  /-- Its pattern fits the value, and its guard has been evaluated in a frame. -/
  | tried (guard : Expr) (inside : FrameId) (outcome : Except Stop Value)

namespace Verdict

/-- The next arm is judged. -/
def Rejects : Verdict → Prop
  | unfit => True
  | unguarded _ | tried _ _ (.error _) => False
  | tried _ _ (.ok value) => value.isTruthy = false

/-- The arm is taken, with what it binds in a frame. -/
def Accepts (frame : FrameId) : Verdict → Prop
  | unguarded inside => frame = inside
  | unfit | tried _ _ (.error _) => False
  | tried _ inside (.ok value) => frame = inside ∧ value.isTruthy = true

/-- Whether the pattern fits. -/
def fits : Verdict → Bool
  | unfit => false
  | unguarded _ | tried _ _ _ => true

/-- The guard that has been evaluated. -/
def guard? : Verdict → Option Expr
  | unfit | unguarded _ => none
  | tried guard _ _ => some guard

end Verdict

section

variable (m : Machine) (meanwhile : Wait → World → World → Prop) (value : Value) (frame : FrameId)
  (env : EnvId)

/-- What becomes of an arm in a world, and of the world. Nothing does if the pattern does not fit;
otherwise its names are declared in a new frame, and the guard is evaluated there. -/
inductive Judged (arm : Arm) (w : World) : Verdict → World → Prop
  | unfit : (∀ names, ¬ w.store.Fits arm.pattern value names) → Judged arm w .unfit w
  | unguarded {names : List (String × Value)} : w.store.Fits arm.pattern value names →
    arm.guard = none → Judged arm w (.unguarded w.nextFrame) (w.scope frame names)
  | tried {names : List (String × Value)} {guard : Expr} {outcome : Except Stop Value}
    {w' : World} : w.store.Fits arm.pattern value names → arm.guard = some guard →
    (Eval.eval m guard w.nextFrame env (w.scope frame names)).Comes meanwhile outcome w' →
    Judged arm w (.tried guard w.nextFrame outcome) w'

/-- What becomes of some arms one after the other. -/
inductive Judges : List Arm → List Verdict → World → World → Prop
  | nil (w : World) : Judges [] [] w w
  | cons {arm : Arm} {arms : List Arm} {verdict : Verdict} {verdicts : List Verdict}
    {w w' last : World} : Judged m meanwhile value frame env arm w verdict w' →
    Judges arms verdicts w' last → Judges (arm :: arms) (verdict :: verdicts) w last

/-- What the selection ends with if it ends with an arm: the arm with its frame, or the stop of its
guard. -/
def Verdict.Ends (arm : Arm) (verdict : Verdict) (result : Except Stop (Option (Arm × FrameId))) :
    Prop :=
  (∃ inside, verdict.Accepts inside ∧ result = .ok (some (arm, inside))) ∨
    ∃ guard inside stop, verdict = .tried guard inside (.error stop) ∧ result = .error stop

/-- All arms are rejected in order. -/
def Rejected (arms : List Arm) (w last : World) : Prop :=
  ∃ verdicts, Judges m meanwhile value frame env arms verdicts w last ∧
    ∀ verdict ∈ verdicts, verdict.Rejects

variable {m meanwhile value frame env} {arm : Arm} {arms before : List Arm} {verdict : Verdict}
  {verdicts : List Verdict} {w w' last : World}

theorem Rejected.nil (w : World) : Rejected m meanwhile value frame env [] w w :=
  ⟨[], .nil w, nofun⟩

theorem rejected_cons_iff : Rejected m meanwhile value frame env (arm :: arms) w last ↔
    ∃ verdict w', Judged m meanwhile value frame env arm w verdict w' ∧ verdict.Rejects ∧
      Rejected m meanwhile value frame env arms w' last := by
  constructor
  · rintro ⟨_, _ | ⟨judged, judges⟩, rejects⟩
    obtain ⟨first, others⟩ := List.forall_mem_cons.mp rejects
    exact ⟨_, _, judged, first, _, judges, others⟩
  · rintro ⟨verdict, w', judged, first, verdicts, judges, others⟩
    exact ⟨verdict :: verdicts, .cons judged judges, List.forall_mem_cons.mpr ⟨first, others⟩⟩

theorem Judges.length_eq (h : Judges m meanwhile value frame env arms verdicts w last) :
    arms.length = verdicts.length := by
  induction h with
  | nil => rfl
  | cons _ _ ih => exact congrArg Nat.succ ih

/-- Some arms and one more are judged one after the other. -/
theorem judges_concat_iff :
    Judges m meanwhile value frame env (before ++ [arm]) (verdicts ++ [verdict]) w last ↔
      ∃ w', Judges m meanwhile value frame env before verdicts w w' ∧
        Judged m meanwhile value frame env arm w' verdict last := by
  constructor
  · intro judges
    have length := judges.length_eq
    induction before generalizing verdicts w with
    | nil =>
      obtain rfl : verdicts = [] := by simpa using length
      obtain _ | ⟨judged, ⟨⟩⟩ := judges
      exact ⟨w, .nil w, judged⟩
    | cons first before ih =>
      obtain ⟨v, verdicts, rfl⟩ := List.exists_cons_of_length_pos
        (show 0 < verdicts.length by simp at length; omega)
      obtain _ | ⟨judged, judges⟩ := judges
      obtain ⟨w', others, last⟩ := ih judges (Nat.succ.inj length)
      exact ⟨w', .cons judged others, last⟩
  · rintro ⟨w', judges, judged⟩
    induction judges with
    | nil w => exact .cons judged (.nil last)
    | cons first _ ih => exact .cons first (ih judged)

/-- A guard is evaluated if the pattern fits, and not otherwise. -/
theorem Judged.guard?_eq (h : Judged m meanwhile value frame env arm w verdict w') :
    verdict.guard? = if verdict.fits then arm.guard else none := by
  cases h with
  | unfit no => rfl
  | unguarded fits none => exact none.symm
  | tried fits some comes => exact some.symm

theorem Judged.fits_iff (h : Judged m meanwhile value frame env arm w verdict w') :
    verdict.fits = true ↔ ∃ names, w.store.Fits arm.pattern value names := by
  cases h with
  | unfit no => exact ⟨nofun, fun ⟨names, fits⟩ => absurd fits (no names)⟩
  | unguarded fits _ => exact ⟨fun _ => ⟨_, fits⟩, fun _ => rfl⟩
  | tried fits _ _ => exact ⟨fun _ => ⟨_, fits⟩, fun _ => rfl⟩

/-- Of some arms the guards of those that fit are evaluated, in order. -/
theorem Judges.guards_eq (h : Judges m meanwhile value frame env arms verdicts w last) :
    verdicts.filterMap (·.guard?) =
      ((arms.zip verdicts).filter (·.2.fits)).filterMap (·.1.guard) := by
  induction h with
  | nil => rfl
  | @cons arm arms verdict verdicts w w' last judged _ ih =>
    rw [List.zip_cons_cons, List.filterMap_cons, judged.guard?_eq, List.filter_cons, ih]
    cases verdict.fits with
    | false => rfl
    | true => rw [if_pos rfl, if_pos rfl, List.filterMap_cons]

/-! ## Selecting -/

namespace Eval

theorem declareAll_eq (frame : FrameId) (names : List (String × Value)) (env : EnvId) (w : World) :
    declareAll frame names env w =
      .done () { w with store.frames := w.store.frames.declareAll frame names } := by
  induction names generalizing w with
  | nil => rfl
  | cons entry names ih => exact ih (w.declare frame entry.1 entry.2)

/-- Some names are declared in a new frame. -/
theorem scope_eq {α : Type} (frame : FrameId) (names : List (String × Value))
    (next : FrameId → Eval α) (env : EnvId) (w : World) :
    (do
      let inside ← childFrame frame
      declareAll inside names
      next inside) env w = next w.nextFrame env (w.scope frame names) := by
  have made : childFrame frame env w =
      .done w.nextFrame { w with store.frames := (w.store.frames.child frame).2 } := rfl
  rw [bind_eq, made]
  show (declareAll w.nextFrame names >>= fun _ => next w.nextFrame) env _ = _
  rw [bind_eq, declareAll_eq]
  rfl

/-- An arm is judged, and then it is taken, or the others are looked at. -/
theorem selectArm_cons (arm : Arm) (arms : List Arm) (w : World) :
    selectArm m value frame (arm :: arms) env w =
      match w.store.bindPattern arm.pattern value with
      | none => selectArm m value frame arms env w
      | some names =>
        match arm.guard with
        | none => .done (some (arm, w.nextFrame)) (w.scope frame names)
        | some guard =>
          (eval m guard w.nextFrame env (w.scope frame names)).bind fun result w' =>
            if result.isTruthy then .done (some (arm, w.nextFrame)) w'
            else selectArm m value frame arms env w' := by
  have asked : ask (·.bindPattern arm.pattern value) env w =
      .done (w.store.bindPattern arm.pattern value) w := rfl
  rw [selectArm, bind_eq, asked, Progress.bind]
  cases w.store.bindPattern arm.pattern value with
  | none => rfl
  | some names =>
    refine (scope_eq frame names _ env w).trans ?_
    cases arm.guard with
    | none => rfl
    | some guard =>
      refine (bind_eq ..).trans (congrArg _ (funext fun result => funext fun w' => ?_))
      cases result.isTruthy <;> rfl

/-- An arm is rejected, and then the selection ends as that of the others does, or it ends with the
arm. -/
theorem selectArm_comes_cons {result : Except Stop (Option (Arm × FrameId))} :
    (selectArm m value frame (arm :: arms) env w).Comes meanwhile result last ↔
      ∃ verdict w', Judged m meanwhile value frame env arm w verdict w' ∧
        ((verdict.Rejects ∧ (selectArm m value frame arms env w').Comes meanwhile result last) ∨
          (w' = last ∧ verdict.Ends arm result)) := by
  rw [selectArm_cons]
  cases found : w.store.bindPattern arm.pattern value with
  | none =>
    have no (names : List (String × Value)) : ¬ w.store.Fits arm.pattern value names := by
      rw [← Store.bindPattern_iff_fits, found]
      exact nofun
    constructor
    · exact fun comes => ⟨.unfit, w, .unfit no, .inl ⟨trivial, comes⟩⟩
    · rintro ⟨_, _, _ | ⟨fits, -⟩ | ⟨fits, -⟩, ends⟩
      · rcases ends with ⟨-, comes⟩ | ⟨-, ⟨_, ⟨⟩, -⟩ | ⟨_, _, _, ⟨⟩, -⟩⟩
        exact comes
      · exact absurd fits (no _)
      · exact absurd fits (no _)
  | some names =>
    have fits : w.store.Fits arm.pattern value names := Store.bindPattern_iff_fits _ _ _ |>.mp found
    have same {names' : List (String × Value)} (fits' : w.store.Fits arm.pattern value names') :
        names' = names :=
      Option.some.inj ((Store.bindPattern_iff_fits _ _ _ |>.mpr fits').symm.trans found)
    cases guarded : arm.guard with
    | none =>
      constructor
      · rintro ⟨taken, rfl⟩
        exact ⟨_, _, .unguarded fits guarded, .inr ⟨rfl, .inl ⟨_, rfl, taken⟩⟩⟩
      · rintro ⟨_, _, no | ⟨fits', -⟩ | ⟨-, some, -⟩, ends⟩
        · exact absurd fits (no _)
        · rcases ends with ⟨⟨⟩, -⟩ | ⟨rfl, ⟨_, rfl, taken⟩ | ⟨_, _, _, ⟨⟩, -⟩⟩
          exact ⟨taken, by rw [same fits']⟩
        · cases guarded.symm.trans some
    | some guard =>
      refine Progress.comes_bind.trans ?_
      constructor
      · rintro (⟨result', w', comes, next⟩ | ⟨stop, stops, rfl⟩)
        · refine ⟨_, w', .tried fits guarded comes, ?_⟩
          split at next
          · next truthy => exact .inr ⟨next.2.symm, .inl ⟨_, ⟨rfl, truthy⟩, next.1⟩⟩
          · next falsy => exact .inl ⟨Bool.eq_false_iff.mpr falsy, next⟩
        · exact ⟨_, last, .tried fits guarded stops, .inr ⟨rfl, .inr ⟨_, _, stop, rfl, rfl⟩⟩⟩
      · rintro ⟨_, w', no | ⟨-, none⟩ | @⟨_, _, outcome, _, fits', some, comes⟩, ends⟩
        · exact absurd fits (no _)
        · cases guarded.symm.trans none
        · obtain rfl := same fits'
          obtain rfl := Option.some.inj (guarded.symm.trans some)
          rcases ends with ⟨rejects, next⟩ | ⟨rfl, ⟨_, accepts, taken⟩ | ⟨_, _, stop, tried, rfl⟩⟩
          · cases outcome with
            | error stop => cases rejects
            | ok result' =>
              refine .inl ⟨result', w', comes, ?_⟩
              rwa [if_neg (Bool.eq_false_iff.mp rejects)]
          · cases outcome with
            | error stop => cases accepts
            | ok result' =>
              refine .inl ⟨result', w', comes, ?_⟩
              obtain ⟨rfl, truthy⟩ := accepts
              rw [if_pos truthy]
              exact ⟨taken, rfl⟩
          · cases tried
            exact .inr ⟨stop, comes, rfl⟩
/-- The selection ends with the first arm that is not rejected, or with none. -/
theorem selectArm_comes_iff {result : Except Stop (Option (Arm × FrameId))} :
    (selectArm m value frame arms env w).Comes meanwhile result last ↔
      (result = .ok none ∧ Rejected m meanwhile value frame env arms w last) ∨
      ∃ before arm after w' verdict, arms = before ++ arm :: after ∧
        Rejected m meanwhile value frame env before w w' ∧
        Judged m meanwhile value frame env arm w' verdict last ∧
        verdict.Ends arm result := by
  induction arms generalizing w with
  | nil =>
    constructor
    · rintro ⟨none, rfl⟩
      exact .inl ⟨none, .nil _⟩
    · rintro (⟨none, _, ⟨⟩, -⟩ | ⟨before, arm, after, -, -, split, -⟩)
      · exact ⟨none, rfl⟩
      · cases before <;> cases split
  | cons arm arms ih =>
    rw [selectArm_comes_cons]
    constructor
    · rintro ⟨verdict, w', judged, ⟨rejects, comes⟩ | ⟨rfl, ends⟩⟩
      · rcases ih.mp comes with ⟨none, others⟩ | ⟨before, picked, after, w₁, v, rfl, others, ends⟩
        · exact .inl ⟨none, rejected_cons_iff.mpr ⟨verdict, w', judged, rejects, others⟩⟩
        · exact .inr ⟨arm :: before, picked, after, w₁, v, rfl,
            rejected_cons_iff.mpr ⟨verdict, w', judged, rejects, others⟩, ends⟩
      · exact .inr ⟨[], arm, arms, w, verdict, rfl, .nil w, judged, ends⟩
    · rintro (⟨none, rejected⟩ | ⟨before, picked, after, w₁, v, split, rejected, judged, ends⟩)
      · obtain ⟨verdict, w', judged, rejects, others⟩ := rejected_cons_iff.mp rejected
        exact ⟨verdict, w', judged, .inl ⟨rejects, ih.mpr (.inl ⟨none, others⟩)⟩⟩
      · cases before with
        | nil =>
          obtain ⟨rfl, rfl⟩ := List.cons.inj split
          obtain ⟨_, ⟨⟩, -⟩ := rejected
          exact ⟨v, last, judged, .inr ⟨rfl, ends⟩⟩
        | cons first before =>
          obtain ⟨rfl, rfl⟩ := List.cons.inj split
          obtain ⟨verdict, w', judged', rejects, others⟩ := rejected_cons_iff.mp rejected
          exact ⟨verdict, w', judged', .inl ⟨rejects,
            ih.mpr (.inr ⟨before, picked, after, w₁, v, rfl, others, judged, ends⟩)⟩⟩

/-! ## Matches -/

/-- What the body of an arm comes to in an expression. -/
def armValue (m : Machine) (arm : Arm) (inside : FrameId) : Eval Value :=
  match arm.body with
  | .block body => blockValue m body inside
  | .expr value => eval m value inside

/-- What the body of an arm comes to in a statement. -/
def armEffect (m : Machine) (arm : Arm) (inside : FrameId) : Eval Unit :=
  match arm.body with
  | .block body => innerInside m body inside
  | .expr value => completeWith m value inside

end Eval

section

variable (m meanwhile frame env) {α : Type} (scrutinee : Expr) (arms : List Arm) (without : α)
  (body : Arm → FrameId → Eval α)

/-- What a match ends with: where its value or the guard of an arm stops, with nothing if no arm accepts
the value, or else with what the body of the arm does. -/
inductive MatchEnds (w : World) : Except Stop α → World → Prop
  | unevaluated {stop : Stop} {last : World} :
    (Eval.eval m scrutinee frame env w).Comes meanwhile (.error stop) last →
    MatchEnds w (.error stop) last
  | undecided {value : Value} {w' last : World} {stop : Stop} :
    (Eval.eval m scrutinee frame env w).Comes meanwhile (.ok value) w' →
    (Eval.selectArm m value frame arms env w').Comes meanwhile (.error stop) last →
    MatchEnds w (.error stop) last
  | unaccepted {value : Value} {w' last : World} :
    (Eval.eval m scrutinee frame env w).Comes meanwhile (.ok value) w' →
    (Eval.selectArm m value frame arms env w').Comes meanwhile (.ok none) last →
    MatchEnds w (.ok without) last
  | accepted {value : Value} {w' w'' last : World} {arm : Arm} {inside : FrameId}
    {result : Except Stop α} :
    (Eval.eval m scrutinee frame env w).Comes meanwhile (.ok value) w' →
    (Eval.selectArm m value frame arms env w').Comes meanwhile (.ok (some (arm, inside))) w'' →
    (body arm inside env w'').Comes meanwhile result last → MatchEnds w result last

end

namespace Eval

variable {α : Type} {scrutinee : Expr} {without : α} {body : Arm → FrameId → Eval α}

theorem match_comes_iff {result : Except Stop α} :
    ((do
      let value ← eval m scrutinee frame
      match ← selectArm m value frame arms with
      | none => return without
      | some (arm, inside) => body arm inside : Eval α) env w).Comes meanwhile result last ↔
      MatchEnds m meanwhile frame env scrutinee arms without body w result last := by
  rw [comes_bind]
  simp only [comes_bind]
  constructor
  · rintro (⟨value, w', evaluated, ⟨_ | ⟨arm, inside⟩, w'', selected, ends⟩ | ⟨stop, stops, rfl⟩⟩ |
      ⟨stop, stops, rfl⟩)
    · obtain ⟨rfl, rfl⟩ := ends
      exact .unaccepted evaluated selected
    · exact .accepted evaluated selected ends
    · exact .undecided evaluated stops
    · exact .unevaluated stops
  · rintro (stops | ⟨evaluated, stops⟩ | ⟨evaluated, selected⟩ | ⟨evaluated, selected, ends⟩)
    · exact .inr ⟨_, stops, rfl⟩
    · exact .inl ⟨_, _, evaluated, .inr ⟨_, stops, rfl⟩⟩
    · exact .inl ⟨_, _, evaluated, .inl ⟨_, _, selected, rfl, rfl⟩⟩
    · exact .inl ⟨_, _, evaluated, .inl ⟨_, _, selected, ends⟩⟩

theorem expression_matchOn (m : Machine) (id : Nat) (position : Position) (scrutinee : Expr)
    (arms : List Arm) (frame : FrameId) :
    expression m ⟨id, position, .matchOn scrutinee arms⟩ frame = (do
      let value ← eval m scrutinee frame
      match ← selectArm m value frame arms with
      | none => return .unit
      | some (arm, inside) => armValue m arm inside) := rfl

theorem statement_matchOn (m : Machine) (position : Position) (scrutinee : Expr)
    (arms : List Arm) (frame : FrameId) :
    statement m ⟨position, .matchOn scrutinee arms⟩ frame = (do
      let value ← eval m scrutinee frame
      match ← selectArm m value frame arms with
      | none => return ()
      | some (arm, inside) => armEffect m arm inside) := rfl

/-- While a guard is evaluated, frames are only added to those that are there. -/
theorem extends_of_guard {levels : Nat} {t : TaskId} {x : Slack} {site : Site} {guard : Expr}
    {names : List (String × Value)} (sound : (Discipline.modules t x).sound w)
    (fits : guard.Fits False site) (supports : w.Supports site frame)
    (comes : (eval ⟨fun goal => goal.run levels⟩ guard w.nextFrame env (w.scope frame names)).Comes
      (fun wait w w' => (Discipline.modules t x).rests w' ∧
        (Discipline.modules t x).resumes wait w w') (.ok value) last) :
    (w.scope frame names).store.frames.Extends last.store.frames := by
  let made : Eval FrameId := do
    let inside ← childFrame frame
    declareAll inside names
    pure inside
  have supported : (Discipline.modules t x).Supports w site frame := ⟨supports, trivial⟩
  have follows : made.Follows (.modules t x) env w
      (fun inside w' => (Discipline.modules t x).Supports w' site inside)
      (Signal.Within false false) :=
    (follows_childFrame supported).bind fun inside w' _ child =>
      Follows.bind (tame_declareAll child.2) fun _ w'' later _ => .ret fun _ later' =>
        (child.1.lasts later).lasts later'
  have run : made env w = .done w.nextFrame (w.scope frame names) := scope_eq frame names pure env w
  have leads := follows w sound (.refl ..)
  rw [run] at leads
  obtain ⟨⟨sound', -, -⟩, supports'⟩ := leads
  have tame := tame_run (d := .modules t x) (fun no => no.elim) levels
  have evaluates : (eval _ guard w.nextFrame).Tame _ env _ _ _ := tame_eval tame fits supports'
  have follows' := evaluates _ sound' (.refl ..)
  exact (follows'.later_of_comes comes).continues.frames

end Eval

/-! ## All together -/

/-- A match takes the first arm that accepts the value. -/
structure SelectsFirst (m : Machine) (meanwhile : Wait → World → World → Prop) (frame : FrameId)
    (env : EnvId) : Prop where
  /-- An arm is selected if those before it are rejected and it is not: its pattern fits, and its guard
  holds in the frame of the arm, if it has one. -/
  picks {value : Value} {arms : List Arm} {w last : World} {arm : Arm} {inside : FrameId} :
    (Eval.selectArm m value frame arms env w).Comes meanwhile (.ok (some (arm, inside))) last ↔
      ∃ before after verdicts verdict, arms = before ++ arm :: after ∧
        Judges m meanwhile value frame env (before ++ [arm]) (verdicts ++ [verdict]) w last ∧
        (∀ earlier ∈ verdicts, earlier.Rejects) ∧ verdict.Accepts inside
  /-- None is selected if all are rejected. -/
  passes {value : Value} {arms : List Arm} {w last : World} :
    (Eval.selectArm m value frame arms env w).Comes meanwhile (.ok none) last ↔
      ∃ verdicts, Judges m meanwhile value frame env arms verdicts w last ∧
        ∀ verdict ∈ verdicts, verdict.Rejects
  /-- A guard that stops ends the selection, if the arms before it are rejected. -/
  stops {value : Value} {arms : List Arm} {w last : World} {stop : Stop} :
    (Eval.selectArm m value frame arms env w).Comes meanwhile (.error stop) last ↔
      ∃ before arm after verdicts guard inside, arms = before ++ arm :: after ∧
        Judges m meanwhile value frame env (before ++ [arm])
          (verdicts ++ [.tried guard inside (.error stop)]) w last ∧
        ∀ earlier ∈ verdicts, earlier.Rejects
  /-- The guards that are evaluated are those of the arms that fit, in order, each of them once. -/
  tries {value : Value} {arms : List Arm} {verdicts : List Verdict} {w last : World} :
    Judges m meanwhile value frame env arms verdicts w last → arms.length = verdicts.length ∧
      verdicts.filterMap (·.guard?) =
        ((arms.zip verdicts).filter (·.2.fits)).filterMap (·.1.guard)
  fits {value : Value} {arm : Arm} {verdict : Verdict} {w w' : World} :
    Judged m meanwhile value frame env arm w verdict w' →
      (verdict.fits = true ↔ ∃ names, w.store.Fits arm.pattern value names)
  /-- A match in an expression comes to the unit if no arm is selected. -/
  expression {e scrutinee : Expr} {arms : List Arm} {w last : World} {result : Except Stop Value} :
    e.kind = .matchOn scrutinee arms → ((Eval.expression m e frame env w).Comes meanwhile result last ↔
      MatchEnds m meanwhile frame env scrutinee arms .unit (Eval.armValue m) w result last)
  /-- So does a match that is a statement. -/
  statement {s : Stmt} {scrutinee : Expr} {arms : List Arm} {w last : World}
    {result : Except Stop Unit} :
    s.kind = .matchOn scrutinee arms → ((Eval.statement m s frame env w).Comes meanwhile result last ↔
      MatchEnds m meanwhile frame env scrutinee arms () (Eval.armEffect m) w result last)
  /-- The frame of an arm is new, stands in that of the match, and has the names of the pattern and no
  others. Nothing else is changed. -/
  binds {arm : Arm} {value : Value} {w : World} {names : List (String × Value)} :
    w.store.Fits arm.pattern value names → names.map (·.1) = arm.pattern.bindings ∧
      w.store.frames.Encloses (w.scope frame names).store.frames frame w.nextFrame names
  /-- As long as frames are only added to those that are there, what the frame of an arm binds does not
  matter in that of the match, nor in those of later arms. -/
  hides {w w' : World} {names : List (String × Value)} :
    w.store.frames.Closed → frame < w.nextFrame →
    (w.scope frame names).store.frames.Extends w'.store.frames →
      w'.store.frames.Unseen w.nextFrame frame ∧
      ∀ (names' : List (String × Value)) (w'' : World),
        (w'.scope frame names').store.frames.Extends w''.store.frames →
          w''.store.frames.Unseen w.nextFrame w'.nextFrame

/-- The first arm that accepts the value is selected, whatever the guards do. Guards that have no
imports only add frames to those that are there, as long as other tasks do the same. -/
theorem Eval.selectArm_first (m : Machine) (meanwhile : Wait → World → World → Prop) (frame : FrameId)
    (env : EnvId) : SelectsFirst m meanwhile frame env ∧
      ∀ {levels : Nat} {t : TaskId} {x : Slack} {site : Site} {guard : Expr} {value : Value}
        {names : List (String × Value)} {w last : World}, (Discipline.modules t x).sound w →
        guard.Fits False site → w.Supports site frame →
        (eval ⟨fun goal => goal.run levels⟩ guard w.nextFrame env (w.scope frame names)).Comes
          (fun wait w w' => (Discipline.modules t x).rests w' ∧
            (Discipline.modules t x).resumes wait w w') (.ok value) last →
        (w.scope frame names).store.frames.Extends last.store.frames := by
  refine ⟨?_, extends_of_guard⟩
  constructor
  case picks =>
    intro value arms w last arm inside
    rw [selectArm_comes_iff]
    constructor
    · rintro (⟨⟨⟩, -⟩ | ⟨before, _, after, w', verdict, rfl, ⟨verdicts, judges, rejects⟩, judged,
        ⟨_, accepts, same⟩ | ⟨_, _, _, -, ⟨⟩⟩⟩)
      cases same
      exact ⟨before, after, verdicts, verdict, rfl, judges_concat_iff.mpr ⟨w', judges, judged⟩,
        rejects, accepts⟩
    · rintro ⟨before, after, verdicts, verdict, rfl, judges, rejects, accepts⟩
      obtain ⟨w', judges, judged⟩ := judges_concat_iff.mp judges
      exact .inr ⟨before, arm, after, w', verdict, rfl, ⟨verdicts, judges, rejects⟩, judged,
        .inl ⟨inside, accepts, rfl⟩⟩
  case passes =>
    intro value arms w last
    rw [selectArm_comes_iff]
    constructor
    · rintro (⟨-, rejected⟩ | ⟨_, _, _, _, _, -, -, -, ⟨_, -, ⟨⟩⟩ | ⟨_, _, _, -, ⟨⟩⟩⟩)
      exact rejected
    · exact fun rejected => .inl ⟨rfl, rejected⟩
  case stops =>
    intro value arms w last stop
    rw [selectArm_comes_iff]
    constructor
    · rintro (⟨⟨⟩, -⟩ | ⟨before, arm, after, w', _, rfl, ⟨verdicts, judges, rejects⟩, judged,
        ⟨_, -, ⟨⟩⟩ | ⟨guard, inside, _, rfl, ⟨⟩⟩⟩)
      exact ⟨before, arm, after, verdicts, guard, inside, rfl,
        judges_concat_iff.mpr ⟨w', judges, judged⟩, rejects⟩
    · rintro ⟨before, arm, after, verdicts, guard, inside, rfl, judges, rejects⟩
      obtain ⟨w', judges, judged⟩ := judges_concat_iff.mp judges
      exact .inr ⟨before, arm, after, w', _, rfl, ⟨verdicts, judges, rejects⟩, judged,
        .inr ⟨guard, inside, stop, rfl, rfl⟩⟩
  case tries => exact fun judges => ⟨judges.length_eq, judges.guards_eq⟩
  case fits => exact Judged.fits_iff
  case expression =>
    rintro ⟨id, position, _⟩ scrutinee arms w last result ⟨⟩
    rw [expression_matchOn]
    exact match_comes_iff
  case statement =>
    rintro ⟨position, _⟩ scrutinee arms w last result ⟨⟩
    rw [statement_matchOn]
    exact match_comes_iff
  case binds =>
    intro arm value w names fits
    exact ⟨w.store.names_bindPattern (Store.bindPattern_iff_fits _ _ _ |>.mpr fits),
      Frames.encloses_scope ..⟩
  case hides =>
    intro w w' names closed there later
    obtain ⟨around, beside⟩ := Frames.unseen_of_extends closed there later
    exact ⟨around, fun names' w'' => beside names' w''.store.frames⟩

/-- A world in which a frame binds `n`. -/
def World.bound : World :=
  { World.empty with store.frames := Frames.empty.root.2.declare 0 "n" (.bool true) }

/-- Arms that bind the value to `n` and to `m`, and are guarded by `n`. -/
def Arm.guarded (name : String) : Arm :=
  ⟨.bind name, some ⟨0, .nowhere, .name "n"⟩, .expr ⟨1, .nowhere, .name name⟩, .nowhere⟩

theorem World.closed_bound : World.bound.store.frames.Closed := by
  intro id f parent found around
  have root : World.bound.store.frames.frame? 0 = some ⟨[("n", 0)], none, none⟩ := rfl
  have first : id = 0 := Nat.lt_one_iff.mp (Frames.lt_size_of_frame? found)
  obtain rfl := Option.some.inj ((first ▸ found).symm.trans root)
  cases around

/-- No module has had to do with this world. -/
theorem World.modular_bound : World.bound.Modular := by
  have empty := modular_empty
  have extended : (Frames.empty.push none none).2.Extends bound.store.frames :=
    Frames.extends_declare fun _ => rfl
  have continues : World.empty.Continues bound :=
    ⟨.trans Frames.extends_push extended, List.suffix_refl _, Nat.le_refl _, fun _ _ => rfl⟩
  have ⟨functions, queue⟩ := empty.code continues rfl rfl
  exact empty.change continues functions queue (fun _ => rfl) empty.orderly empty.cache empty.guarded
    empty.chain .inl empty.bounded.push.declare
    ((empty.recorded.of_extends Frames.extends_push rfl rfl).declare fun _ => rfl) .inl .inl

/-- The guard of the first arm finds its own `n`, which does not hold, and that of the second one finds
the outer one: the frame of the first arm is not seen there. Frames were only added meanwhile. -/
theorem Eval.selectArm_first_bound :
    (∃ last, (selectArm ⟨fun goal => goal.run 3⟩ (.bool false) 0
        [Arm.guarded "n", Arm.guarded "m"] 0 .bound).Comes (fun _ _ _ => False)
          (.ok (some (Arm.guarded "m", 2))) last) ∧
      World.bound.store.frames.Closed ∧
        (World.bound.scope 0 [("n", .bool false)]).store.frames.Unseen 1 0 ∧
          ((World.bound.scope 0 [("n", .bool false)]).scope 0
            [("m", .bool false)]).store.frames.Unseen 1 2 ∧
      (Discipline.modules 0 ⟨none, none⟩).sound .bound ∧
        ∃ last, (eval ⟨fun goal => goal.run 3⟩ ⟨0, .nowhere, .name "n"⟩ World.bound.nextFrame 0
            (World.bound.scope 0 [("n", .bool false)])).Comes
              (fun wait w w' => (Discipline.modules 0 ⟨none, none⟩).rests w' ∧
                (Discipline.modules 0 ⟨none, none⟩).resumes wait w w') (.ok (.bool false)) last ∧
          (World.bound.scope 0 [("n", .bool false)]).store.frames.Extends last.store.frames := by
  have ⟨law, adds⟩ := selectArm_first ⟨fun goal => goal.run 3⟩ (fun _ _ _ => False) 0 0
  have hidden := law.hides World.closed_bound (Nat.lt_succ_self 0)
    (.refl (World.bound.scope 0 [("n", .bool false)]).store.frames)
  have sound : (Discipline.modules 0 ⟨none, none⟩).sound .bound :=
    ⟨World.modular_bound, rfl, fun _ => nofun⟩
  have fits : Expr.Fits False .top ⟨0, .nowhere, .name "n"⟩ := trivial
  have supports : World.bound.Supports .top 0 := nofun
  refine ⟨⟨_, rfl, rfl⟩, World.closed_bound, hidden.1, hidden.2 _ _ (.refl _), sound, ?_⟩
  exact ⟨_, ⟨rfl, rfl⟩, @adds 3 _ _ _ _ _ _ _ _ sound fits supports ⟨rfl, rfl⟩⟩

end

/-- Whatever an engine has run, what the frame of an arm binds does not matter in that of the match, nor
in those of later arms: the frames around frames are there. -/
theorem Engine.Reached.unseen {e : Engine} {frame : FrameId} {names : List (String × Value)}
    {w : World} (reached : e.Reached) (there : frame < e.world.nextFrame)
    (later : (e.world.scope frame names).store.frames.Extends w.store.frames) :
    w.store.frames.Unseen e.world.nextFrame frame ∧
      ∀ (names' : List (String × Value)) (w' : World),
        (w.scope frame names').store.frames.Extends w'.store.frames →
          w'.store.frames.Unseen e.world.nextFrame w.nextFrame :=
  have hidden := Frames.unseen_of_extends reached.grounded.closed there later
  ⟨hidden.1, fun names' w' => hidden.2 names' w'.store.frames⟩

end ScriptEngine
