import ScriptEngine.Proofs.Evaluation.Counting
import ScriptEngine.Proofs.Modules.Engines

/-!
# The calls of engines

Whatever a host does with an engine, the counters of its interpreters have always been right, and
none has gone beyond the limit of its environment.

* `World.CallsCounted`: what the events of a world say of all counters.
* `Engine.Reached.calls_balanced`: it holds in every engine, and whatever is evaluated gives back the
  calls that it has used.
-/

namespace ScriptEngine

/-- Whenever an interpreter was made, or a call of a closure began or ended in one, its counter said
how many of its calls were in progress. When a call began there were no more of them than its
environment let be, and at no other time have there been more than when one began. No interpreter is
another one. -/
structure World.CallsCounted (w : World) : Prop where
  counter {event : CallEvent} {before : List CallEvent} : event :: before <:+ w.calls →
    (event.depth : Int) = callsInProgress event.interpreter (event :: before)
  limit {event : CallEvent} : event ∈ w.calls → event.change = .began → event.depth ≤ event.limit
  highest {event : CallEvent} {before : List CallEvent} : event :: before <:+ w.calls →
    0 < event.depth → ∃ call ∈ event :: before, call.interpreter = event.interpreter ∧
      call.change = .began ∧ event.depth ≤ call.depth
  new {event : CallEvent} {before : List CallEvent} : event :: before <:+ w.calls →
    event.change = .made → ∀ other ∈ before, other.interpreter ≠ event.interpreter

theorem Tallied.callsCounted {w : World} (tallied : Tallied w.calls) : w.CallsCounted where
  counter suffix := (tallied.of_suffix suffix).1.counter
  limit mem := by
    obtain ⟨later, before, same⟩ := List.append_of_mem mem
    exact (tallied.of_suffix ⟨later, same.symm⟩).1.limit
  highest {event before} suffix some := by
    have here := tallied.of_suffix suffix
    have counter := here.1.counter
    have positive : 0 < callsInProgress event.interpreter (event :: before) := by omega
    obtain ⟨call, mem, mine, began, le⟩ := here.exists_began positive
    exact ⟨call, mem, mine, began, by omega⟩
  new suffix made other mem := by
    have here := tallied.of_suffix suffix
    exact here.2.ne_of_length_le (Nat.le_of_eq (here.1.new made).symm) mem

namespace Engine

variable {e : Engine}

theorem hosted_counting : Accord.counting.Hosted where
  empty := ⟨World.accepted_empty, trivial⟩
  fresh _ := trivial
  quiet rests quiet _ := ⟨⟨quiet.sameCode.accepted rests.1, quiet.calls ▸ rests.2⟩,
    fun _ => ⟨quiet.sameCode.later, .of_calls quiet.calls⟩⟩
  newEnvironment rests registered linked fresh :=
    have added := hosted_accepted.newEnvironment rests.1 registered linked fresh
    ⟨⟨added.1, rests.2⟩, fun t => ⟨added.2 t, .of_calls rfl⟩⟩
  program t _ _ _ _ := Eval.tame_program_open (d := .counting t)
  callHost t _ _ _ levels _ := (Eval.tame_run_open (d := .counting t) levels).callHost

theorem Reached.tallied (reached : e.Reached) : Tallied e.world.calls :=
  (reached.keeps hosted_counting).world.2

/-- The calls of an engine are counted, whatever its host does: the counter of each interpreter has
always been the number of its calls that were in progress, and no more than the limit. A task that
goes on with a new interpreter counts its calls. Whatever is evaluated from there on, and whatever
others do while it waits, it ends with the interpreter and the counter that it has begun with, be it
with a value, by a return, break or continue, or by a panic. -/
theorem Reached.calls_balanced (reached : e.Reached) :
    e.world.CallsCounted ∧
      (∀ (turn : Turn) (env : EnvId),
        ({ e.world with turn }.newInterpreter env).Counts turn.task) ∧
      ∀ {α : Type} (goal : Goal α) (levels : Nat) (env : EnvId) (t : TaskId) (w : World),
        goal.Suits w → w.Accepted → w.Counts t →
          (goal.run levels env w).Balanced t w.turn.interpreter :=
  ⟨reached.tallied.callsCounted,
    fun turn env => World.counts_newInterpreter (w := { e.world with turn }) reached.tallied rfl env,
    fun _ levels env _ _ suits accepted counts => Goal.balanced_run levels env suits accepted counts⟩

/-- A program that runs into the limit twice: a function calls itself, and what comes of it is
contained. -/
def spiralling : List Module :=
  let spiral (id : Nat) : Stmt :=
    ⟨.nowhere, .expression ⟨id, .nowhere, .safe ⟨[⟨.nowhere, .expression
      ⟨id + 1, .nowhere, .call ⟨id + 2, .nowhere, .name "f"⟩
        [⟨id + 3, .nowhere, .literal (.bool true)⟩]⟩ false⟩], .nowhere⟩⟩ true⟩
  [⟨"main", ⟨[⟨.nowhere, .function ⟨some "f", ["x"], .expr ⟨0, .nowhere,
    .call ⟨1, .nowhere, .name "f"⟩ [⟨2, .nowhere, .name "x"⟩]⟩, .nowhere⟩⟩,
    spiral 3, spiral 7], .nowhere⟩⟩]

/-- An engine that lets two calls be in progress. -/
def shallow : Options := { (default : Options) with maxCallDepth := 2 }

/-- What is left of it when the program has run. -/
def spiralled : Engine := (runUnder shallow spiralling "main").2

/-- The second time there were as many calls to use as the first time. In an engine without modules, a
call of what is no function gives its calls back as well. -/
theorem calls_balanced_of_spiralling :
    spiralled.world.CallsCounted ∧
      (spiralled.world.calls.map (·.depth)).reverse = [0, 0, 1, 2, 1, 0, 1, 2, 1, 0] ∧
      ((Goal.call (.bool true) [] none).run 1 0 (World.empty.newInterpreter 0)).Balanced 0
        ⟨⟨0, 0⟩, 0⟩ := by
  have reached : spiralled.Reached := by
    rw [spiralled]
    exact .runUnder
  obtain ⟨-, begins, balanced⟩ := Reached.calls_balanced (.start shallow)
  have accepted : (World.empty.newInterpreter 0).Accepted := World.accepted_empty.withCalls _ _
  exact ⟨(Reached.calls_balanced reached).1, by decide +kernel,
    balanced (.call (.bool true) [] none) 1 0 0 _ trivial accepted (begins World.empty.turn 0)⟩

end Engine

end ScriptEngine
