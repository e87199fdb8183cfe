import ScriptEngine.Proofs.Evaluation.Regime

/-!
# How a task behaves among others

What a task knows must last while it waits and others go on, and what it does must leave the others
what they know. A discipline says both: how the world may change between the start and the end of an
evaluation, from one wait of the task to the next, and while it waits.

* `Discipline`: what a task can count on and what others can.
* `Progress.Follows`: an evaluation that keeps to a discipline however far it gets, and whatever
  happens while it waits.
* `Eval.Follows`: the same of an evaluation from any sound world later than a base. What is known
  of the base and lasts can be used throughout.
* `Follows.bind`, `Follows.attempt`, `Follows.loop`, `Follows.visit`: one rule for each way to
  compose evaluations.
* `Follows.onward`: what comes behind an evaluation may count from an earlier base.
* `Follows.through`: for a while a task may follow a weaker discipline.
* `Eval.Runs`: the same of an evaluation from sound worlds that a condition holds of.
* `Runs.frame`: a condition that lasts is kept.
-/

namespace ScriptEngine

/-- What a task can count on among others, and what the others can. -/
structure Discipline where
  /-- The worlds in which the task may go on. -/
  sound : World → Prop
  /-- The worlds in which it may wait. -/
  rests : World → Prop
  /-- What an evaluation has become of the world when it ends, whatever others did meanwhile. -/
  later : World → World → Prop
  /-- What the task makes of the world from one wait to the next. -/
  yields : World → World → Prop
  /-- What others may make of the world while the task waits for something. -/
  resumes : Wait → World → World → Prop
  /-- Whether imports may stand in its code. -/
  imports : Prop
  /-- The frames in which its code may declare names. -/
  roomy : World → FrameId → Prop
  /-- The frames in which its code may stand. -/
  stands : World → FrameId → Prop := fun _ _ => True
  /-- The entities to which these frames may belong. -/
  homes : World → EntityRef → Prop := fun _ _ => True
  rests_of_sound {w : World} : sound w → rests w
  later_refl (w : World) : later w w
  later_trans {a b c : World} : later a b → later b c → later a c
  yields_refl (w : World) : yields w w
  yields_trans {a b c : World} : yields a b → yields b c → yields a c

/-- An evaluation that began in one world, and went on in another one at last, gets to a world. -/
structure Discipline.Reaches (d : Discipline) (base now w : World) : Prop where
  sound : d.sound w
  later : d.later base w
  yields : d.yields now w

/-- The world that an evaluation has got to. -/
def Progress.world {α : Type} : Progress α → World
  | .done _ w | .stopped _ w | .waiting _ w _ => w

/-- Wherever an evaluation has got to, it has kept to the discipline since it began, and since it
went on at last; a value is as `post` says, and a signal as `ends` does. What waits may be continued
in any world that others may have made meanwhile. -/
def Progress.Follows {α : Type} (d : Discipline) (base now : World) (post : α → World → Prop)
    (ends : Signal → Prop) : Progress α → Prop
  | .done value w => d.Reaches base now w ∧ post value w
  | .stopped (.signal s) w => d.Reaches base now w ∧ ends s
  | .stopped (.unfinished _) w => d.rests w ∧ d.yields now w
  | .waiting wait w resume => d.rests w ∧ d.yields now w ∧
      ∀ w', d.rests w' → d.resumes wait w w' → (resume w').Follows d base w' post ends

/-- An evaluation in an environment follows a discipline from every sound world later than a base. -/
def Eval.Follows {α : Type} (d : Discipline) (env : EnvId) (base : World) (x : Eval α)
    (post : α → World → Prop) (ends : Signal → Prop) : Prop :=
  ∀ w, d.sound w → d.later base w → (x env w).Follows d w w post ends

/-- From every sound world that is as `pre` says an evaluation in an environment follows a
discipline. -/
def Eval.Runs {α : Type} (d : Discipline) (env : EnvId) (pre : World → Prop) (x : Eval α)
    (post : α → World → Prop) (ends : Signal → Prop) : Prop :=
  ∀ w, d.sound w → pre w → (x env w).Follows d w w post ends

/-- From one world a step of the task leads to another one. -/
abbrev Discipline.Leads (d : Discipline) (w w' : World) : Prop := d.Reaches w w w'

namespace Discipline

variable {d : Discipline} {a b c : World}

theorem Reaches.refl (h : d.sound a) : d.Leads a a := ⟨h, d.later_refl a, d.yields_refl a⟩

/-- What is reached from a later base is reached from an earlier one. -/
theorem Reaches.rebase {base base' now now' w : World} (h : d.Reaches base now w)
    (later : d.later base' base) (yields : d.yields now' now) : d.Reaches base' now' w :=
  ⟨h.sound, d.later_trans later h.later, d.yields_trans yields h.yields⟩

theorem Reaches.trans (h : d.Leads a b) (h' : d.Leads b c) : d.Leads a c :=
  h'.rebase h.later h.yields

end Discipline

/-- Two disciplines look the same from outside; the second one may leave a task with less that it can
count on. -/
structure Discipline.Weaker (d d' : Discipline) : Prop where
  sound (w : World) : d.sound w ↔ d'.sound w
  rests (w : World) : d.rests w ↔ d'.rests w
  yields {w w' : World} : d.yields w w' → d'.yields w w'
  resumes {wait : Wait} {w w' : World} : d'.resumes wait w w' → d.resumes wait w w'

theorem Discipline.Weaker.refl (d : Discipline) : d.Weaker d :=
  ⟨fun _ => .rfl, fun _ => .rfl, id, id⟩

namespace Progress

variable {α β : Type} {d : Discipline} {base now : World} {post : α → World → Prop}
  {ends : Signal → Prop}

theorem Follows.imp {post' : α → World → Prop} {ends' : Signal → Prop} {p : Progress α}
    (h : p.Follows d base now post ends) (values : ∀ v w, post v w → post' v w)
    (signals : ∀ s, ends s → ends' s) : p.Follows d base now post' ends' := by
  induction p generalizing now with
  | done value w => exact ⟨h.1, values _ _ h.2⟩
  | stopped stop w =>
    cases stop with
    | signal s => exact ⟨h.1, signals s h.2⟩
    | unfinished => exact h
  | waiting wait w resume ih =>
    exact ⟨h.1, h.2.1, fun w' rests resumes => ih w' (h.2.2 w' rests resumes)⟩

/-- What holds from a later base holds from an earlier one. -/
theorem Follows.rebase {base' now' : World} {p : Progress α} (h : p.Follows d base now post ends)
    (later : d.later base' base) (yields : d.yields now' now) :
    p.Follows d base' now' post ends := by
  induction p generalizing now now' with
  | done value w => exact ⟨h.1.rebase later yields, h.2⟩
  | stopped stop w =>
    cases stop with
    | signal s => exact ⟨h.1.rebase later yields, h.2⟩
    | unfinished => exact ⟨h.1, d.yields_trans yields h.2⟩
  | waiting wait w resume ih =>
    refine ⟨h.1, d.yields_trans yields h.2.1, fun w' rests resumes => ?_⟩
    exact ih w' (h.2.2 w' rests resumes) (d.yields_refl w')

/-- What has been done before an evaluation may count as part of it. -/
theorem Follows.behind {now' : World} {p : Progress α} (h : p.Follows d base now post ends)
    (yields : d.yields now' now) : p.Follows d base now' post ends := by
  cases p with
  | done value w => exact ⟨⟨h.1.sound, h.1.later, d.yields_trans yields h.1.yields⟩, h.2⟩
  | stopped stop w =>
    cases stop with
    | signal s => exact ⟨⟨h.1.sound, h.1.later, d.yields_trans yields h.1.yields⟩, h.2⟩
    | unfinished => exact ⟨h.1, d.yields_trans yields h.2⟩
  | waiting wait w resume => exact ⟨h.1, d.yields_trans yields h.2.1, h.2.2⟩

theorem Follows.bind {p : Progress α} {next : α → World → Progress β} {post' : β → World → Prop}
    (h : p.Follows d base now post ends)
    (h' : ∀ v w, d.sound w → d.later base w → post v w → (next v w).Follows d w w post' ends) :
    (p.bind next).Follows d base now post' ends := by
  induction p generalizing now with
  | done value w =>
    exact (h' value w h.1.sound h.1.later h.2).rebase h.1.later h.1.yields
  | stopped stop w =>
    cases stop with
    | signal s => exact h
    | unfinished => exact h
  | waiting wait w resume ih =>
    exact ⟨h.1, h.2.1, fun w' rests resumes => ih w' (h.2.2 w' rests resumes)⟩

/-- What comes behind an evaluation may count from an earlier base than that. -/
theorem Follows.onward {base' : World} {p : Progress α} {next : α → World → Progress β}
    {post' : β → World → Prop} (h : p.Follows d base now post ends) (later : d.later base' base)
    (h' : ∀ v w, d.sound w → d.later base w → post v w → (next v w).Follows d base' w post' ends) :
    (p.bind next).Follows d base' now post' ends := by
  induction p generalizing now with
  | done value w => exact (h' value w h.1.sound h.1.later h.2).behind h.1.yields
  | stopped stop w =>
    cases stop with
    | signal s => exact ⟨h.1.rebase later (d.yields_refl now), h.2⟩
    | unfinished => exact h
  | waiting wait w resume ih =>
    exact ⟨h.1, h.2.1, fun w' rests resumes => ih w' (h.2.2 w' rests resumes)⟩

/-- A signal that is attempted is a value. -/
theorem Follows.attempt {ends' : Signal → Prop} {p : Progress α}
    (h : p.Follows d base now post ends) :
    p.attempt.Follows d base now
      (fun result w => (∀ v, result = .ok v → post v w) ∧ ∀ s, result = .error s → ends s)
      ends' := by
  induction p generalizing now with
  | done value w =>
    refine ⟨h.1, fun v same => ?_, fun s same => ?_⟩
    · exact Except.ok.inj same ▸ h.2
    · cases same
  | stopped stop w =>
    cases stop with
    | signal s =>
      refine ⟨h.1, fun v same => ?_, fun s' same => ?_⟩
      · cases same
      · exact Except.error.inj same ▸ h.2
    | unfinished => exact h
  | waiting wait w resume ih =>
    exact ⟨h.1, h.2.1, fun w' rests resumes => ih w' (h.2.2 w' rests resumes)⟩

/-- A discipline is weaker than another one if it asks for less of the start and the end of an
evaluation, and is the same in all that others see. -/
theorem Follows.weaken {d' : Discipline} {base' : World} {p : Progress α}
    (h : p.Follows d base now post ends) (weaker : d.Weaker d')
    (later : ∀ w, d.later base w → d'.later base' w) :
    p.Follows d' base' now (fun v w => post v w ∧ d.later base w) ends := by
  induction p generalizing now with
  | done value w =>
    exact ⟨⟨(weaker.sound w).mp h.1.sound, later w h.1.later, weaker.yields h.1.yields⟩, h.2,
      h.1.later⟩
  | stopped stop w =>
    cases stop with
    | signal s =>
      exact ⟨⟨(weaker.sound w).mp h.1.sound, later w h.1.later, weaker.yields h.1.yields⟩, h.2⟩
    | unfinished => exact ⟨(weaker.rests w).mp h.1, weaker.yields h.2⟩
  | waiting wait w resume ih =>
    refine ⟨(weaker.rests w).mp h.1, weaker.yields h.2.1, fun w' rests resumes => ih w' ?_⟩
    exact h.2.2 w' ((weaker.rests w').mpr rests) (weaker.resumes resumes)

/-- What comes behind an evaluation that ends with a value may look back to where that began. -/
theorem Follows.through {d' : Discipline} {base' : World} {p : Progress α}
    {next : α → World → Progress β} {post' : β → World → Prop} {ends' : Signal → Prop}
    (h : p.Follows d base now post fun _ => False) (weaker : d.Weaker d')
    (h' : ∀ v w, d.sound w → d.later base w → post v w →
      (next v w).Follows d' base' w post' ends') :
    (p.bind next).Follows d' base' now post' ends' := by
  induction p generalizing now with
  | done value w =>
    exact (h' value w h.1.sound h.1.later h.2).behind (weaker.yields h.1.yields)
  | stopped stop w =>
    cases stop with
    | signal s => exact h.2.elim
    | unfinished => exact ⟨(weaker.rests w).mp h.1, weaker.yields h.2⟩
  | waiting wait w resume ih =>
    refine ⟨(weaker.rests w).mp h.1, weaker.yields h.2.1, fun w' rests resumes => ih w' ?_⟩
    exact h.2.2 w' ((weaker.rests w').mpr rests) (weaker.resumes resumes)

end Progress

namespace Eval

variable {α β : Type} {d : Discipline} {env : EnvId} {base : World} {post : α → World → Prop}
  {post' : β → World → Prop} {ends : Signal → Prop}

namespace Follows

theorem imp {x : Eval α} {post' : α → World → Prop} {ends' : Signal → Prop}
    (h : x.Follows d env base post ends) (values : ∀ v w, post v w → post' v w)
    (signals : ∀ s, ends s → ends' s) : x.Follows d env base post' ends' :=
  fun w sound later => (h w sound later).imp values signals

/-- What is followed from a base is followed from a later one. -/
theorem lift {base' : World} {x : Eval α} (h : x.Follows d env base post ends)
    (later : d.later base base') : x.Follows d env base' post ends :=
  fun w sound after => h w sound (d.later_trans later after)

theorem bind {x : Eval α} {f : α → Eval β} (h : x.Follows d env base post ends)
    (h' : ∀ v w, d.later base w → post v w → (f v).Follows d env w post' ends) :
    (x >>= f).Follows d env base post' ends := by
  intro w sound later
  rw [bind_eq]
  refine (h w sound later).bind fun v w' sound' later' value => ?_
  exact h' v w' (d.later_trans later later') value w' sound' (d.later_refl w')

/-- Nothing is used of the first value. -/
theorem andThen {x : Eval α} {f : α → Eval β} (h : x.Follows d env base post ends)
    (h' : ∀ v, (f v).Follows d env base post' ends) : (x >>= f).Follows d env base post' ends :=
  h.bind fun v _ later _ => (h' v).lift later

theorem ret {v : α} (h : ∀ w, d.later base w → post v w) :
    (pure v : Eval α).Follows d env base post ends :=
  fun w sound later => ⟨.refl sound, h w later⟩

theorem signal {s : Signal} (h : ends s) :
    (Eval.signal s : Eval α).Follows d env base post ends :=
  fun _ sound _ => ⟨.refl sound, h⟩

theorem unfinished : (Eval.unfinished : Eval α).Follows d env base post ends :=
  fun w sound _ => ⟨d.rests_of_sound sound, d.yields_refl w⟩

theorem crash : (Eval.crash : Eval α).Follows d env base post ends :=
  fun w sound _ => ⟨d.rests_of_sound sound, d.yields_refl w⟩

theorem attempt {x : Eval α} {ends' : Signal → Prop} (h : x.Follows d env base post ends) :
    (Eval.attempt x).Follows d env base
      (fun result w => (∀ v, result = .ok v → post v w) ∧ ∀ s, result = .error s → ends s)
      ends' :=
  fun w sound later => (h w sound later).attempt

theorem ite {c : Prop} [Decidable c] {x y : Eval α} (h : c → x.Follows d env base post ends)
    (h' : ¬ c → y.Follows d env base post ends) :
    (if c then x else y).Follows d env base post ends := by
  split
  · exact h ‹_›
  · exact h' ‹_›

/-- A question about the world changes nothing. -/
theorem query {f : EnvId → World → α} (h : ∀ w, d.sound w → d.later base w → post (f env w) w) :
    Eval.Follows d env base (fun env w => .done (f env w) w) post ends :=
  fun w sound later => ⟨.refl sound, h w sound later⟩

/-- A plain change leads from sound worlds to sound ones. -/
theorem update {f : World → World} {g : World → α}
    (h : ∀ w, d.sound w → d.later base w → d.Leads w (f w) ∧ post (g w) (f w)) :
    Eval.Follows d env base (fun _ w => .done (g w) (f w)) post ends :=
  fun w sound later => h w sound later

theorem loop {round : Eval Bool} {rounds : Nat}
    (h : round.Follows d env base (fun _ _ => True) ends) :
    (Eval.loop rounds round).Follows d env base (fun _ _ => True) ends := by
  induction rounds with
  | zero => exact unfinished
  | succ rounds ih =>
    rw [loop_succ]
    exact h.andThen fun again => .ite (fun _ => ih) fun _ => ret fun _ _ => trivial

theorem visit {f : Value → Nat → Eval Bool} {items : List Value} {position : Nat}
    (h : ∀ item position, (f item position).Follows d env base (fun _ _ => True) ends) :
    (Eval.visit f items position).Follows d env base (fun _ _ => True) ends := by
  induction items generalizing position with
  | nil => exact ret fun _ _ => trivial
  | cons item items ih =>
    rw [visit_cons]
    exact (h item position).andThen fun again => .ite (fun _ => ih) fun _ => ret fun _ _ => trivial

theorem mapM {f : α → Eval β} {items : List α}
    (h : ∀ item, (f item).Follows d env base (fun _ _ => True) ends) :
    (items.mapM f).Follows d env base (fun _ _ => True) ends := by
  suffices ∀ results,
      (List.mapM.loop f items results).Follows d env base (fun _ _ => True) ends from this []
  induction items with
  | nil => exact fun _ => ret fun _ _ => trivial
  | cons item items ih => exact fun results => (h item).andThen fun result => ih (result :: results)

theorem forM {f : α → Eval Unit} {items : List α}
    (h : ∀ item, (f item).Follows d env base (fun _ _ => True) ends) :
    (items.forM f).Follows d env base (fun _ _ => True) ends := by
  induction items with
  | nil => exact ret fun _ _ => trivial
  | cons item items ih => exact (h item).andThen fun _ => ih

end Follows

/-! ## Conditions -/

namespace Runs

variable {pre pre' : World → Prop}

theorem imp {x : Eval α} {post' : α → World → Prop} {ends' : Signal → Prop}
    (h : x.Runs d env pre post ends) (before : ∀ w, pre' w → pre w)
    (values : ∀ v w, post v w → post' v w) (signals : ∀ s, ends s → ends' s) :
    x.Runs d env pre' post' ends' :=
  fun w sound holds => (h w sound (before w holds)).imp values signals

theorem bind {x : Eval α} {f : α → Eval β} (h : x.Runs d env pre post ends)
    (h' : ∀ v, (f v).Runs d env (post v) post' ends) : (x >>= f).Runs d env pre post' ends := by
  intro w sound holds
  rw [bind_eq]
  exact (h w sound holds).bind fun v w' sound' _ value => h' v w' sound' value

theorem ret {v : α} (h : ∀ w, pre w → post v w) : (pure v : Eval α).Runs d env pre post ends :=
  fun w sound holds => ⟨.refl sound, h w holds⟩

theorem signal {s : Signal} (h : ends s) : (Eval.signal s : Eval α).Runs d env pre post ends :=
  fun _ sound _ => ⟨.refl sound, h⟩

theorem attempt {x : Eval α} {ends' : Signal → Prop} (h : x.Runs d env pre post ends) :
    (Eval.attempt x).Runs d env pre
      (fun result w => (∀ v, result = .ok v → post v w) ∧ ∀ s, result = .error s → ends s) ends' :=
  fun w sound holds => (h w sound holds).attempt

theorem update {f : World → World} {post : World → Prop}
    (h : ∀ w, d.sound w → pre w → d.Leads w (f w) ∧ post (f w)) :
    (modify f : Eval Unit).Runs d env pre (fun _ => post) ends :=
  h

/-- A condition that lasts under a discipline is kept where a weaker discipline is followed. -/
theorem frame {d' : Discipline} {x : Eval α} (h : x.Runs d env pre post ends)
    (weaker : d.Weaker d') (later : ∀ {a b}, d.later a b → d'.later a b)
    (keeps : ∀ {a b}, pre a → d.later a b → pre b) :
    x.Runs d' env pre (fun v w => post v w ∧ pre w) ends := by
  intro w sound holds
  refine ((h w ((weaker.sound w).mpr sound) holds).weaken weaker fun _ => later).imp ?_
    fun _ within => within
  exact fun _ _ ⟨value, after⟩ => ⟨value, keeps holds after⟩

end Runs

/-- What is followed from every base that a condition holds of is followed under the condition. -/
theorem Follows.runs {pre : World → Prop} {x : Eval α}
    (h : ∀ base, pre base → x.Follows d env base post ends) : x.Runs d env pre post ends :=
  fun w sound holds => h w holds w sound (d.later_refl w)

end Eval

end ScriptEngine
