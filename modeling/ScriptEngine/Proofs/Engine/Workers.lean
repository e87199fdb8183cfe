import ScriptEngine.Proofs.Engine.CallDepth
import ScriptEngine.Proofs.Evaluation.Currying
import ScriptEngine.Proofs.Evaluation.Nesting

/-!
# The calls on a worker

A worker runs one task at a time, and evaluates all calls of the task on one stack. Whatever a host does
with an engine, no more of them are in progress than may be, as long as no function is run at once for
a promise that has its result: such a function has an interpreter of its own, which does not count the
calls beneath.

* `Callable.Invokes`, `Goal.Enters`: the ways into a closure.
* `Goal.Enters.refused`: none of them is open when as many calls are in progress as may be.
* `World.CallsLimited`: what the events of a world say of the calls of each task.
* `Engine.Reached.calls_limited`: it holds in every engine.
-/

namespace ScriptEngine

/-! ## The ways into a closure -/

/-- A call with these arguments runs a closure: there are as many as it takes, with those that it has
been given before. -/
def Callable.Invokes : Callable → List Value → Prop
  | .closure definition _, args => args.length = definition.params.length
  | .curried target bound _, args => target.Invokes (bound ++ args)
  | .native _, _ | .method _ _, _ | .remote _ _, _ => False

instance Callable.decidableInvokes :
    (callable : Callable) → (args : List Value) → Decidable (callable.Invokes args)
  | .closure definition _, args =>
    inferInstanceAs (Decidable (args.length = definition.params.length))
  | .curried target bound _, args => decidableInvokes target (bound ++ args)
  | .native _, _ | .method _ _, _ | .remote _ _, _ => inferInstanceAs (Decidable False)

/-- The arguments for the first item with which a method of an array calls a function itself. -/
def ArrayMethod.firstCall? : ArrayMethod → List Value → List Value → Option (List Value)
  | .forEach, _, item :: _ | .map, _, item :: _ | .filter, _, item :: _ => some [item]
  | .reduce, [first, _], item :: _ => some [first, item]
  | .reduce, [_], first :: item :: _ => some [first, item]
  | _, _, _ => none

/-- What is evaluated comes to a call of a closure before anything else happens: it is such a call, a
method of an entity, a callback of an array or a function that a value is piped into. -/
inductive Goal.Enters (env : EnvId) (w : World) : Goal Value → Prop
  | call {id : FunctionId} {args : List Value} {this : Option EntityRef} :
    (w.store.function id).Invokes args → Enters env w (.call (.function id) args this)
  | method {entity : EntityRef} {name : String} {args : List Value} {viewer : Option EntityRef}
    {id : FunctionId} :
    (!isPrivateName name || viewer.any fun v => w.store.related v entity) = true →
    w.store.member? entity name = some (.function id) → (w.store.function id).Invokes args →
    Enters env w (.callMethod (.entity entity) name args viewer)
  | callback {array : ArrayId} {name : String} {args given : List Value}
    {viewer : Option EntityRef} {method : ArrayMethod} {id : FunctionId} :
    name ≠ Value.textMethod → ArrayMethod.ofName? name = some method →
    Eval.callback? method args = some (.function id) →
    method.firstCall? args (w.store.array array).toList = some given →
    (w.store.function id).Invokes given →
    Enters env w (.callMethod (.array array) name args viewer)
  | pipe {number : Nat} {position : Position} {value function : Expr} {frame : FrameId}
    {piped : Value} {id : FunctionId} :
    (∀ levels, (Goal.expr value frame).run (levels + 1) env w = .done piped w) →
    (∀ levels, (Goal.expr function frame).run (levels + 1) env w = .done (.function id) w) →
    (w.store.function id).Invokes [piped] →
    Enters env w (.expr ⟨number, position, .pipe value function⟩ frame)

/-- What a call fails with when as many are in progress as may be. -/
def World.overflow (w : World) (env : EnvId) : Panic :=
  ⟨.stackOverflow, "call depth exceeded " ++
    Decimal.natText (w.environment env).options.maxCallDepth⟩

section

variable {m : Machine} {env : EnvId} {w : World}

namespace Eval

/-- A part of an expression comes to what it comes to by itself. -/
theorem eval_of_run {e : Expr} {frame : FrameId} {levels : Nat} {p : Progress Value}
    (h : (Goal.expr e frame).run (levels + 1) env w = p) :
    eval ⟨fun goal => goal.run (levels + 1)⟩ e frame env w = p := by
  rw [run_expr] at h
  rw [← h]
  cases same : e.kind with
  | literal value => rw [eval, same, expression, same]
  | name name => rw [eval, same, expression, same]
  | _ =>
    rw [eval, same]
    rfl

/-- A closure is not run when as many calls are in progress as may be, however many of its arguments
were given before. -/
theorem callCallable_refused {callable : Callable} {args : List Value} {this : Option EntityRef}
    (invokes : callable.Invokes args)
    (full : (w.environment env).options.maxCallDepth ≤ w.turn.interpreter.depth) :
    callCallable m callable args this env w = panic (w.overflow env) env w := by
  induction callable generalizing args this with
  | closure definition captured =>
    have enough : args.length = definition.params.length := invokes
    rw [callCallable, withArity, if_neg (by omega), if_neg (by omega), invoke, counted_eq,
      if_pos full]
    rfl
  | curried target bound boundThis ih => exact ih invokes
  | native | method | remote => cases invokes

/-- A method of an array that calls a function is about the items which the array has now. -/
theorem arrayMethod_eq {method : ArrayMethod} {receiver : Value} {id : ArrayId}
    {args items given : List Value} {name : String}
    (first : method.firstCall? args items = some given) :
    arrayMethod m method receiver id name args env w =
      itemMethod m method receiver (w.store.array id).toList name args env w := by
  cases method with
  | forEach | map | filter | reduce => rfl
  | _ => cases first

/-- A method of an array fails when the first call of its callback does. -/
theorem itemMethod_refused {method : ArrayMethod} {receiver : Value} {items args given : List Value}
    {name : String} {id : FunctionId} {p : Panic}
    (callback : callback? method args = some (.function id))
    (first : method.firstCall? args items = some given)
    (refused : m.run (.call (.function id) given none) env w = panic p env w) :
    itemMethod m method receiver items name args env w = panic p env w := by
  -- Whatever is to be done with the result of the call, nothing of it is done.
  have fails {α : Type} (next : Value → Eval α) :
      (m.run (.call (.function id) given none) >>= next) env w = panic p env w := by
    rw [bind_eq, refused]
    rfl
  rw [itemMethod, callback]
  cases method with
  | forEach =>
    cases items with
    | nil => cases first
    | cons item items =>
      obtain rfl := Option.some.inj first
      show (eachItem m (.function id) (item :: items) >>= _) env w = _
      rw [bind_eq, eachItem, fails]
      rfl
  | map =>
    cases items with
    | nil => cases first
    | cons item items =>
      obtain rfl := Option.some.inj first
      show (mapItems m (.function id) (item :: items) #[] >>= _) env w = _
      rw [bind_eq, mapItems, fails]
      rfl
  | filter =>
    cases items with
    | nil => cases first
    | cons item items =>
      obtain rfl := Option.some.inj first
      show (filterItems m (.function id) (item :: items) #[] >>= _) env w = _
      rw [bind_eq, filterItems, fails]
      rfl
  | reduce =>
    rcases args with _ | ⟨start, _ | ⟨_, _ | ⟨_, _⟩⟩⟩
    · cases first
    · rcases items with _ | ⟨one, _ | ⟨item, items⟩⟩
      · cases first
      · cases first
      · obtain rfl := Option.some.inj first
        show foldItems m (.function id) (item :: items) one env w = _
        rw [foldItems, fails]
    · cases items with
      | nil => cases first
      | cons item items =>
        obtain rfl := Option.some.inj first
        show foldItems m (.function id) (item :: items) start env w = _
        rw [foldItems, fails]
    · cases first
  | _ => cases first

end Eval

/-- No way into a closure is open when as many calls are in progress as may be: it fails, and changes
nothing. -/
theorem Goal.Enters.refused {goal : Goal Value} (enters : goal.Enters env w)
    (full : (w.environment env).options.maxCallDepth ≤ w.turn.interpreter.depth) (levels : Nat) :
    goal.run (levels + 3) env w = .stopped (.signal (.panic (w.overflow env))) w := by
  have call {id : FunctionId} {args : List Value} (invokes : (w.store.function id).Invokes args)
      (this : Option EntityRef) (levels : Nat) :
      (Goal.call (.function id) args this).run (levels + 1) env w =
        Eval.panic (w.overflow env) env w :=
    Eval.callCallable_refused invokes full
  cases enters with
  | call invokes => exact call invokes _ _
  | method visible member invokes =>
    rw [Goal.run_callMethod_member visible member]
    exact call invokes _ _
  | @callback array name args given viewer method id named method' callback first invokes =>
    have items : Eval.itemMethod ⟨fun goal => goal.run (levels + 2)⟩ method (.array array)
        (w.store.array array).toList name args env w = Eval.panic (w.overflow env) env w :=
      Eval.itemMethod_refused callback first (call invokes none (levels + 1))
    show Eval.builtinMethod _ (.array array) name args env w = _
    have other : ¬ (name == Value.textMethod) = true := by
      rw [beq_iff_eq]
      exact named
    simp only [Eval.builtinMethod, other, method']
    exact (Eval.arrayMethod_eq first).trans items
  | @pipe number position value function frame piped id pipes calls invokes =>
    have first := Eval.eval_of_run (pipes (levels + 1))
    have second := Eval.eval_of_run (calls (levels + 1))
    show (Eval.eval _ value frame >>= _) env w = _
    rw [Eval.bind_eq, first]
    show (Eval.eval _ function frame >>= _) env w = _
    rw [Eval.bind_eq, second]
    exact call invokes none (levels + 1)

end

/-! ## The calls on a worker -/

/-- At every event, the calls in progress on the task of the interpreter were those that its counter
said and those that it was made over. Whenever calls were in progress on a task whose interpreters were
all made over none, there were no more of them than when one of them began, and then no more than its
environment let be. -/
structure World.CallsLimited (w : World) : Prop where
  stacked {event : CallEvent} {before : List CallEvent} : event :: before <:+ w.calls →
    callsOn event.interpreter.task (event :: before) =
      event.depth + callsBeneath event.interpreter (event :: before)
  limited {t : TaskId} {calls : List CallEvent} : calls <:+ w.calls → MadeApart t calls →
    0 < callsOn t calls → ∃ call ∈ calls, call.interpreter.task = t ∧ call.change = .began ∧
      callsOn t calls ≤ call.depth ∧ call.depth ≤ call.limit

namespace Engine

variable {e : Engine}

theorem hosted_nesting : Accord.nesting.Hosted where
  empty := ⟨hosted_counting.empty, trivial⟩
  fresh _ := trivial
  quiet rests quiet same := by
    obtain ⟨counted, relied⟩ := hosted_counting.quiet rests.1 quiet same
    exact ⟨⟨counted, quiet.calls ▸ rests.2⟩, fun t => ⟨relied t, .of_calls quiet.calls⟩⟩
  newEnvironment rests registered linked fresh := by
    obtain ⟨counted, relied⟩ := hosted_counting.newEnvironment rests.1 registered linked fresh
    exact ⟨⟨counted, rests.2⟩, fun t => ⟨relied t, .of_calls rfl⟩⟩
  program t _ _ _ _ := Eval.tame_program_open (d := .nesting t)
  callHost t _ _ _ levels _ := (Eval.tame_run_open (d := .nesting t) levels).callHost

theorem Reached.callsLimited (reached : e.Reached) : e.world.CallsLimited := by
  obtain ⟨⟨-, tallied⟩, stacked⟩ := (reached.keeps hosted_nesting).world
  refine ⟨?_, ?_⟩
  · intro event before suffix
    exact (stacked.of_suffix suffix).1
  · intro t calls suffix apart some
    exact (stacked.of_suffix suffix).exists_call (tallied.of_suffix suffix) apart some

/-- The calls in progress on a worker are limited, whatever the host of an engine does: there are never
more of them than may be, unless a function was run at once for a promise that had its result while
others were in progress. Where as many are in progress as may be, calls, methods, callbacks and pipes
fail, also those of functions that have some of their arguments. -/
theorem Reached.calls_limited (reached : e.Reached) :
    e.world.CallsLimited ∧
      ∀ (env : EnvId) (w : World) (goal : Goal Value) (levels : Nat), goal.Enters env w →
        (w.environment env).options.maxCallDepth ≤ w.turn.interpreter.depth →
        goal.run (levels + 3) env w = .stopped (.signal (.panic (w.overflow env))) w :=
  ⟨reached.callsLimited, fun _ _ _ levels enters full => enters.refused full levels⟩

/-- Two functions, each of which is run at once for a promise that has its result. -/
def chaining : List Module :=
  let onPromise (id : Nat) (method : String) (args : List Expr) : Expr :=
    ⟨id, .nowhere, .call ⟨id + 1, .nowhere, .member ⟨id + 2, .nowhere, .name "p"⟩ method⟩ args⟩
  let function (id : Nat) (param : String) (value : Expr) : Expr :=
    ⟨id, .nowhere, .function ⟨none, [param], .expr value, .nowhere⟩⟩
  [⟨"main", ⟨[
    ⟨.nowhere, .declare .letWord [⟨.bind "p", some ⟨0, .nowhere, .async ⟨[], .nowhere⟩⟩, .nowhere⟩]⟩,
    ⟨.nowhere, .expression (onPromise 1 "await" []) true⟩,
    ⟨.nowhere, .expression (onPromise 4 "then" [function 7 "x"
      (onPromise 8 "then" [function 11 "y" ⟨12, .nowhere, .name "y"⟩])]) true⟩], .nowhere⟩⟩]

/-- An engine that lets one call be in progress. -/
def narrow : Options := { (default : Options) with maxCallDepth := 1 }

/-- What is left of it when the program has run. -/
def chained : Engine := (runUnder narrow chaining "main").2

/-- One function runs inside the other, though no more than one call may be in progress, and the program
comes to its end. -/
theorem calls_unlimited_of_chaining :
    (runUnder narrow chaining "main").1.isOk = true ∧
      ∃ calls, calls <:+ chained.world.calls ∧ callsOn 1 calls = 2 ∧
        ∀ call ∈ calls, call.limit = 1 :=
  ⟨by decide +kernel, chained.world.calls.drop 2, List.drop_suffix 2 _, by decide +kernel,
    by decide +kernel⟩

/-- Where two calls may be in progress, a program has had two, and a third one would have failed. -/
theorem calls_limited_of_spiralling :
    (∃ calls, calls <:+ spiralled.world.calls ∧ callsOn 1 calls = 2 ∧
      ∃ call ∈ calls, call.interpreter.task = 1 ∧ call.change = .began ∧
        callsOn 1 calls ≤ call.depth ∧ call.depth ≤ call.limit) ∧
      (Goal.call (.function 0) [.bool true] none).run 3 0 (spiralled.world.withDepth 2) =
        .stopped (.signal (.panic ((spiralled.world.withDepth 2).overflow 0)))
          (spiralled.world.withDepth 2) := by
  have reached : spiralled.Reached := by
    rw [spiralled]
    exact .runUnder
  obtain ⟨limited, refused⟩ := Reached.calls_limited reached
  have suffix : spiralled.world.calls.drop 6 <:+ spiralled.world.calls := List.drop_suffix 6 _
  have two : callsOn 1 (spiralled.world.calls.drop 6) = 2 := by decide +kernel
  have full : ((spiralled.world.withDepth 2).environment 0).options.maxCallDepth ≤
      (spiralled.world.withDepth 2).turn.interpreter.depth := by decide +kernel
  have some : 0 < callsOn 1 (spiralled.world.calls.drop 6) := by
    rw [two]
    decide
  have fails (w : World) (invokes : (w.store.function 0).Invokes [.bool true])
      (full : (w.environment 0).options.maxCallDepth ≤ w.turn.interpreter.depth) :
      (Goal.call (.function 0) [.bool true] none).run 3 0 w =
        .stopped (.signal (.panic (w.overflow 0))) w :=
    refused 0 w _ 0 (.call invokes) full
  have apart := limited.limited suffix (by decide +kernel) some
  exact ⟨⟨_, suffix, two, apart⟩, fails _ (by decide +kernel) full⟩

end Engine

end ScriptEngine
