import ScriptEngine.Evaluation.Basic

/-!
# What evaluations uphold

An evaluation may wait, and goes on in a world that other tasks have changed meanwhile. What can be
said of it must therefore be upheld by every task: some worlds are sound, and from a world only
certain worlds can come later.

* `Regime`: which worlds are sound, and which ones can come later than others.
* `Progress.Upholds`: wherever an evaluation ends or waits the world is sound, whatever sound world
  it is continued in; its value and its signals are as given.
* `Eval.Upholds`: the same of an evaluation from any sound world later than a base.
* `Eval.bind_eq`, `Eval.loop_succ`, `Eval.visit_cons`: how evaluations are composed. They are a lawful
  monad.
-/

namespace ScriptEngine

/-- Which worlds are sound, and which ones can come later than others. -/
structure Regime where
  sound : World → Prop
  later : World → World → Prop
  refl (w : World) : later w w
  trans {a b c : World} : later a b → later b c → later a c

/-- Wherever an evaluation has got to, the world is sound and later than the base; a value is as
`post` says, and a signal as `ends` does. What waits may be continued in any sound world that comes
later, which is the base then. -/
def Progress.Upholds {α : Type} (r : Regime) (base : World) (post : α → World → Prop)
    (ends : Signal → Prop) : Progress α → Prop
  | .done value w => r.sound w ∧ r.later base w ∧ post value w
  | .stopped stop w => r.sound w ∧ r.later base w ∧ ∀ s, stop = .signal s → ends s
  | .waiting _ w resume => r.sound w ∧ r.later base w ∧
      ∀ w', r.sound w' → r.later w w' → (resume w').Upholds r w' post ends

/-- An evaluation upholds a regime from every sound world later than a base. -/
def Eval.Upholds {α : Type} (r : Regime) (base : World) (x : Eval α) (post : α → World → Prop)
    (ends : Signal → Prop) : Prop :=
  ∀ env w, r.sound w → r.later base w → (x env w).Upholds r w post ends

namespace Progress

variable {α β γ : Type}

theorem bind_done (p : Progress α) : p.bind done = p := by
  induction p with
  | done value w => rfl
  | stopped stop w => rfl
  | waiting wait w resume ih => exact congrArg (waiting wait w) (funext ih)

theorem bind_assoc (p : Progress α) (f : α → World → Progress β) (g : β → World → Progress γ) :
    (p.bind f).bind g = p.bind fun value w => (f value w).bind g := by
  induction p with
  | done value w => rfl
  | stopped stop w => rfl
  | waiting wait w resume ih => exact congrArg (waiting wait w) (funext ih)

end Progress

namespace Eval

variable {α β : Type}

/-- A sequence of evaluations goes on behind the first one, wherever that ends. -/
theorem bind_eq (x : Eval α) (f : α → Eval β) (env : EnvId) (w : World) :
    (x >>= f) env w = (x env w).bind fun v w => f v env w := by
  change (match x env w with
    | .done value w => f value env w
    | .stopped stop w => .stopped stop w
    | .waiting wait w resume => .waiting wait w fun w => (resume w).bind fun value => f value env) = _
  cases x env w <;> rfl

instance : LawfulMonad Eval := by
  refine .mk' Eval (fun x => ?_) (fun _ _ => rfl) fun x f g => ?_
  · funext env w
    exact (bind_eq x pure env w).trans (x env w).bind_done
  · funext env w
    simp only [bind_eq, Progress.bind_assoc]

/-- A round that is repeated. -/
theorem loop_succ (rounds : Nat) (round : Eval Bool) :
    loop (rounds + 1) round = (do if ← round then loop rounds round else pure ()) := by
  funext env w
  rw [bind_eq]
  simp only [loop]
  cases round env w with
  | done again w => cases again <;> rfl
  | stopped stop w => rfl
  | waiting wait w resume =>
    refine congrArg (Progress.waiting wait w) (funext fun w => congrArg _ ?_)
    funext again w
    cases again <;> rfl

/-- A visit of a list is a visit of its first item and of the others. -/
theorem visit_cons (f : Value → Nat → Eval Bool) (item : Value) (items : List Value)
    (position : Nat) :
    visit f (item :: items) position =
      (do if ← f item position then visit f items (position + 1) else pure ()) := by
  funext env w
  rw [bind_eq]
  simp only [visit]
  cases f item position env w with
  | done again w => cases again <;> rfl
  | stopped stop w => rfl
  | waiting wait w resume =>
    refine congrArg (Progress.waiting wait w) (funext fun w => congrArg _ ?_)
    funext again w
    cases again <;> rfl

end Eval

end ScriptEngine
