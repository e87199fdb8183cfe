import ScriptEngine.Proofs.Evaluation.Confinement

/-!
# What evaluation leaves alone

What a name from outside means in an environment is a matter of its forest and of what the host
grants there. No code changes either of them, in no environment: they are the same from one wait of
a task to the next. While it waits, the host may grant what it likes.

A function value stands for the same function for good: whatever is evaluated, and whatever other tasks
do while it waits, functions are only added. Code may therefore hold on to a function, or to a call
that waits for more arguments, and make use of it at any later time.

* `Eval.lookupGlobal_eq`: what a name from outside means.
* `Discipline.binding`, `Discipline.keeping`: the tasks that leave bindings alone, and those that leave
  functions as they are, and count on it.
* `Goal.keepsBindings_run`, `Goal.keepsFunctions_run`: every evaluation leaves bindings alone, from one
  wait to the next, and functions as they are, also by its end.
* `Accord.binding`, `Accord.keeping`: all tasks do.
* `Accord.Passes.sameBindings`, `Accord.Passes.keepsFunctions`: so does a whole run of the host.
-/

namespace ScriptEngine

/-! ## Bindings -/

theorem World.SameBindings.resolve? {w w' : World} (same : w.SameBindings w') (env : EnvId)
    (name : String) : (w'.environment env).resolve? name = (w.environment env).resolve? name := by
  rw [Environment.resolve?, Environment.resolve?, same.grants, same.forest]

/-- A name from outside is looked up among the bindings of its environment first. -/
theorem Eval.lookupGlobal_eq (name : String) (env : EnvId) (w : World) :
    lookupGlobal name env w =
      ((w.environment env).resolve? name).elim (builtinNamed name) (bound name) env w := by
  unfold lookupGlobal environment
  dsimp only [Bind.bind]
  cases (w.environment env).resolve? name <;> rfl

/-- A task may change nothing about the forests and the grants of environments. Whoever goes on,
worlds are to be accepted, and frames to keep their entities. -/
def Discipline.binding : Discipline :=
  { Discipline.accepted with
    yields := fun w w' => w.Later w' ∧ w.SameBindings w'
    yields_refl := fun w => ⟨.refl w, .of_environments rfl⟩
    yields_trans := fun ab bc => ⟨ab.1.trans bc.1, ab.2.trans bc.2⟩ }

theorem World.SameCode.leads_binding {w w' : World} (h : w.SameCode w') (accepted : w.Accepted)
    (same : w.SameBindings w') : Discipline.binding.Leads w w' :=
  ⟨h.accepted accepted, h.later, h.later, same⟩

/-- The counting of calls has nothing to do with bindings. -/
theorem World.leads_withCalls {w : World} (accepted : w.Accepted) (turn : Turn)
    (calls : List CallEvent) : Discipline.binding.Leads w { w with turn, calls } :=
  (World.SameCode.withCalls w turn calls).leads_binding accepted (.of_environments rfl)

instance : Discipline.binding.Permissive where
  imports := rfl
  roomy := fun _ _ => trivial
  stands := fun _ _ => trivial
  homes := fun _ _ => trivial
  accepted := id
  world_later := id
  change := fun _ accepted later _ same _ _ => ⟨accepted, later, later, same⟩
  suspend := fun {w w' _} _ accepted later => by
    have same : w'.SameCode (w'.resume w) := .withTurn w' _ w'.clock
    exact ⟨same.accepted accepted, later.trans same.later, same.later, .of_environments rfl⟩
  call := fun accepted _ => .of_leads (World.leads_withCalls accepted _ _) ⟨.refl _, id, id⟩
    fun accepted => World.leads_withCalls accepted _ _
  interpreter := fun _ accepted => .of_leads (World.leads_withCalls accepted _ _)
    ⟨.refl _, id, id⟩ fun accepted => World.leads_withCalls accepted _ _
  promising := .of_leads fun _ _ _ accepted =>
    (World.Quiet.withPromises ..).sameCode.leads_binding accepted (.of_environments rfl)

/-- Wherever an evaluation has got to, every environment has the forest and the grants that it had
when the evaluation went on at last. While it waits the host may grant what it likes. -/
def Progress.KeepsBindings {α : Type} (now : World) : Progress α → Prop
  | .done _ w | .stopped _ w => now.SameBindings w
  | .waiting _ w resume => now.SameBindings w ∧
      ∀ w', w'.Accepted → w.Later w' → (resume w').KeepsBindings w'

theorem Progress.Follows.keepsBindings {α : Type} {base now : World} {post : α → World → Prop}
    {ends : Signal → Prop} {p : Progress α} (h : p.Follows .binding base now post ends) :
    p.KeepsBindings now := by
  induction p generalizing now with
  | done value w => exact h.1.yields.2
  | stopped stop w =>
    cases stop with
    | signal s => exact h.1.yields.2
    | unfinished => exact h.2.2
  | waiting wait w resume ih =>
    exact ⟨h.2.1.2, fun w' accepted later => ih w' (h.2.2 w' accepted later)⟩

/-- Whatever is evaluated leaves bindings alone. -/
theorem Goal.keepsBindings_run {α : Type} (goal : Goal α) {w : World} (levels : Nat) (env : EnvId)
    (suits : goal.Suits w) (accepted : w.Accepted) :
    (goal.run levels env w).KeepsBindings w :=
  (Eval.follows_goal (d := .binding) levels suits w accepted (.refl w)).keepsBindings

/-- All tasks follow this discipline, and as for the rest, that of accepted code. -/
def Accord.binding : Accord :=
  { Accord.accepted with
    discipline := fun _ => .binding
    rests_iff := .rfl
    yields := fun _ yields => yields.1
    resumes := fun later _ => later
    sound := fun {_ w} env accepted _ _ =>
      have leads := World.leads_withCalls accepted _ _
      ⟨leads.sound, leads.yields⟩
    starts := fun {_ _ _} accepted suits _ _ => by
      have tame := Eval.tame_run_open (d := .binding) Eval.levels
      exact Eval.tame_fulfil tame (Eval.tame_task_of_accepted tame (suits.later fun _ has => has)
        fun _ _ _ => trivial) }

/-- Whatever tasks do in their turns, every environment keeps its forest and its grants. -/
theorem Accord.Passes.sameBindings {w w' : World} (passes : Accord.binding.Passes w w') :
    w.SameBindings w' := by
  induction passes with
  | refl => exact .of_environments rfl
  | turn turn clock _ ih => exact ih.trans (.of_environments rfl)
  | queue _ ih => exact ih.trans (.of_environments rfl)
  | yields _ yields ih => exact ih.trans yields.2
  | @loses w'' task lock _ ih =>
    obtain ⟨locks, history, same⟩ := w''.lose_eq task lock
    exact same ▸ ih.trans (.of_environments rfl)

/-! ## Functions -/

/-- A world in which all code is accepted has become another one, in which frames have their entities
and function values stand for what they have stood for. -/
structure World.Keeps (w w' : World) : Prop where
  later : w.Later w'
  functions : w.KeepsFunctions w'

namespace World.Keeps

variable {w w' w'' : World}

theorem of_functions (later : w.Later w')
    (same : w'.store.functions = w.store.functions) : w.Keeps w' :=
  ⟨later, .of_functions same⟩

theorem refl (w : World) : w.Keeps w := .of_functions (.refl w) rfl

theorem trans (h : w.Keeps w') (h' : w'.Keeps w'') : w.Keeps w'' :=
  ⟨h.later.trans h'.later, h.functions.trans h'.functions⟩

end World.Keeps

/-- Functions may be added, but stand for what they have stood for. A task counts on that while it
waits. -/
def Discipline.keeping : Discipline :=
  { Discipline.accepted with
    later := World.Keeps
    yields := World.Keeps
    resumes := fun _ => World.Keeps
    later_refl := .refl
    later_trans := .trans
    yields_refl := .refl
    yields_trans := .trans }

/-- The counting of calls has nothing to do with functions. -/
theorem World.keeping_withCalls {w : World} (accepted : w.Accepted) (turn : Turn)
    (calls : List CallEvent) : Discipline.keeping.Leads w { w with turn, calls } :=
  have same := World.SameCode.withCalls w turn calls
  have keeps := World.Keeps.of_functions same.later rfl
  ⟨same.accepted accepted, keeps, keeps⟩

instance : Discipline.keeping.Permissive where
  imports := rfl
  roomy := fun _ _ => trivial
  stands := fun _ _ => trivial
  homes := fun _ _ => trivial
  accepted := id
  world_later := World.Keeps.later
  change := fun _ accepted later _ _ functions _ =>
    have keeps := ⟨later, functions⟩
    ⟨accepted, keeps, keeps⟩
  suspend := fun {w w' _} _ accepted keeps => by
    have same : w'.SameCode (w'.resume w) := .withTurn w' _ w'.clock
    have goesOn := World.Keeps.of_functions same.later rfl
    exact ⟨same.accepted accepted, keeps.trans goesOn, goesOn⟩
  call := fun accepted _ => .of_leads (World.keeping_withCalls accepted _ _) ⟨.refl _, id, id⟩
    fun accepted => World.keeping_withCalls accepted _ _
  interpreter := fun _ accepted => .of_leads (World.keeping_withCalls accepted _ _)
    ⟨.refl _, id, id⟩ fun accepted => World.keeping_withCalls accepted _ _
  promising := .of_leads fun {w} promises steps rival accepted =>
    have same := (World.Quiet.withPromises w promises steps rival).sameCode
    have keeps := World.Keeps.of_functions same.later rfl
    ⟨same.accepted accepted, keeps, keeps⟩

/-- Wherever an evaluation has got to since a world, function values stand for what they have stood for
there, as long as others leave that alone while it waits. -/
def Progress.KeepsFunctions {α : Type} (base : World) : Progress α → Prop
  | .done _ w | .stopped _ w => base.KeepsFunctions w
  | .waiting _ w resume => base.KeepsFunctions w ∧
      ∀ w', w'.Accepted → w.Keeps w' → (resume w').KeepsFunctions base

theorem Progress.Follows.keepsFunctions {α : Type} {base since now : World}
    {post : α → World → Prop} {ends : Signal → Prop} {p : Progress α}
    (h : p.Follows .keeping base now post ends) (before : since.KeepsFunctions now) :
    p.KeepsFunctions since := by
  induction p generalizing now with
  | done value w => exact before.trans h.1.yields.functions
  | stopped stop w =>
    cases stop with
    | signal s => exact before.trans h.1.yields.functions
    | unfinished => exact before.trans h.2.functions
  | waiting wait w resume ih =>
    have here := before.trans h.2.1.functions
    exact ⟨here, fun w' accepted keeps =>
      ih w' (h.2.2 w' accepted keeps) (here.trans keeps.functions)⟩

/-- Whatever is evaluated leaves functions as they are. -/
theorem Goal.keepsFunctions_run {α : Type} (goal : Goal α) {w : World} (levels : Nat) (env : EnvId)
    (suits : goal.Suits w) (accepted : w.Accepted) :
    (goal.run levels env w).KeepsFunctions w :=
  (Eval.follows_goal (d := .keeping) levels suits w accepted (.refl w)).keepsFunctions
    (.of_functions rfl)

/-- All tasks leave functions as they are, and count on each other. -/
def Accord.keeping : Accord :=
  { Accord.accepted with
    discipline := fun _ => .keeping
    rely := fun _ => World.Keeps
    rests_iff := .rfl
    rely_refl := fun _ => .refl
    rely_trans := .trans
    yields := fun _ keeps => keeps
    resumes := fun keeps _ => keeps
    rely_turn := fun _ _ _ _ => .of_functions (fun _ has => has) rfl
    rely_queue := fun _ _ => .of_functions (fun _ has => has) rfl
    accepts_rely := fun keeps accepted => accepted.later keeps.later
    fresh_rely := fun _ _ => trivial
    loses := fun {w} task lock accepted =>
      have same : w.SameCode (w.lose task lock) := .lose w task lock
      ⟨same.accepted accepted, fun _ _ => .of_functions same.later same.functions⟩
    sound := fun {_ w} env accepted _ _ =>
      have leads := World.keeping_withCalls accepted _ _
      ⟨leads.sound, leads.yields⟩
    starts := fun {_ _ _} accepted suits _ _ => by
      have tame := Eval.tame_run_open (d := .keeping) Eval.levels
      exact Eval.tame_fulfil tame (Eval.tame_task_of_accepted tame (suits.later fun _ has => has)
        fun _ _ _ => trivial) }

/-- Whatever tasks do in their turns, function values stand for what they have stood for. -/
theorem Accord.Passes.keepsFunctions {w w' : World} (passes : Accord.keeping.Passes w w') :
    w.KeepsFunctions w' := by
  induction passes with
  | refl => exact .of_functions rfl
  | turn turn clock _ ih => exact ih.trans (.of_functions rfl)
  | queue _ ih => exact ih.trans (.of_functions rfl)
  | yields _ yields ih => exact ih.trans yields.functions
  | loses task lock _ ih => exact ih.trans (.of_functions (World.SameCode.lose _ task lock).functions)

end ScriptEngine
