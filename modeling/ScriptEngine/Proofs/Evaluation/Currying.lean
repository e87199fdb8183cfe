import Mathlib.Data.List.Infix
import ScriptEngine.Proofs.Evaluation.Keeping

/-!
# Arguments in portions

A function that takes a number of arguments may be given them in portions, by one call after the other.
Until it has all of them nothing runs: each call makes a function that waits for the others, and that
is all it does. The call that brings the last ones is the call of the function with all of them, on the
entity of the first call that was made on one.

* `Callable.arity?`, `Callable.perform`: how many arguments a function waits for, and what it does then.
* `Portion`, `Eval.supply`: the arguments of some calls, and the calls one after the other.
* `World.Stands`: a function value that has been given some portions. Calls of it are calls of the
  function with these and more (`Stands.callValue_eq`), also in any later world (`Stands.later`):
  evaluation only adds functions (`World.KeepsFunctions`).
* `Goal.run_callMethod_member`, `Eval.invoke_congr`: what it is to call a function on an entity.
* `Eval.effects_callRemote`: a remote call is made once at most.
* `Curries`, `Callable.curries`: what comes of all ways to split the arguments of a function.
-/

namespace ScriptEngine

open Eval

/-! ## Functions that wait for all arguments -/

namespace Callable

/-- How many arguments a function waits for before it does anything. -/
def arity? : Callable → Option Nat
  | .closure definition _ => some definition.params.length
  | .native function => function.arity?
  | .remote _ spec => some spec.arity
  | .curried _ _ _ | .method _ _ => none

/-- What a function does when it has all its arguments. -/
def perform (m : Machine) (args : List Value) (this : Option EntityRef) : Callable → Eval Value
  | .closure definition captured => invoke m definition captured args this
  | .native function => builtin function args
  | .remote name spec => callRemote name spec args
  | callable => callCallable m callable args this

theorem callCallable_eq {m : Machine} {c : Callable} {arity : Nat} (takes : c.arity? = some arity)
    (args : List Value) (this : Option EntityRef) :
    callCallable m c args this = withArity c arity args this (c.perform m args this) := by
  cases c with
  | closure definition captured =>
    obtain rfl := Option.some.inj takes
    rfl
  | curried target bound boundThis => cases takes
  | native function =>
    have fixed : function.arity? = some arity := takes
    rw [callCallable, fixed]
    rfl
  | method receiver name => cases takes
  | remote name spec =>
    obtain rfl := Option.some.inj takes
    rfl

/-- With exactly as many arguments as it waits for, a function does what it does. -/
theorem callCallable_of_length {m : Machine} {c : Callable} {arity : Nat}
    (takes : c.arity? = some arity) {args : List Value} (all : args.length = arity)
    (this : Option EntityRef) : callCallable m c args this = c.perform m args this := by
  rw [c.callCallable_eq takes, withArity, if_neg (by omega), if_neg (by omega)]

/-- A function that waits for arguments is one that was put into the store. -/
theorem ne_default_of_arity? {c : Callable} {arity : Nat} (takes : c.arity? = some arity) :
    c ≠ default := by
  rintro rfl
  cases takes

end Callable

/-! ## Portions -/

/-- The arguments that one call gives to a function, and the entity that it is made on. -/
structure Portion where
  args : List Value
  this : Option EntityRef

namespace Portion

/-- All arguments of some calls. -/
def allArgs (portions : List Portion) : List Value := portions.flatMap (·.args)

/-- The entity of the first call that is made on one. -/
def entity? (portions : List Portion) : Option EntityRef := portions.findSome? (·.this)

variable (portions : List Portion) (portion : Portion)

theorem allArgs_append_singleton :
    allArgs (portions ++ [portion]) = allArgs portions ++ portion.args := by
  simp [allArgs]

theorem entity?_append_singleton :
    entity? (portions ++ [portion]) = (entity? portions).orElse fun _ => portion.this := by
  simp only [entity?, List.findSome?_append, List.findSome?_cons, List.findSome?_nil,
    Option.or_eq_orElse]
  cases portion.this <;> rfl

theorem length_allArgs_append_singleton :
    (allArgs (portions ++ [portion])).length =
      (allArgs portions).length + portion.args.length := by
  rw [allArgs_append_singleton, List.length_append]

end Portion

open Portion (allArgs entity?)

/-- The function that waits when some portions have been given. -/
def Callable.waiting (c : Callable) (portions : List Portion) : Callable :=
  .curried c (allArgs portions) (entity? portions)

theorem Callable.waiting_ne_default (c : Callable) (portions : List Portion) :
    c.waiting portions ≠ default :=
  nofun

/-- Gives a function portions of its arguments: each call is one of what the call before it gave. -/
def Eval.supply (m : Machine) : Value → List Portion → Eval Value
  | function, [] => pure function
  | function, portion :: portions => do
    supply m (← callValue m function portion.args portion.this) portions

/-- The world when some portions have been given: there is a function that waits for each call. -/
def World.supplied (w : World) (c : Callable) (portions : List Portion) : World :=
  { w with store.functions :=
      w.store.functions ++ (portions.inits.tail.map c.waiting).toArray }

/-- A function value stands for a function that has been given some portions. -/
inductive World.Stands (w : World) (c : Callable) : List Portion → Value → Prop
  | whole {id : FunctionId} : w.store.function id = c → Stands w c [] (.function id)
  | part {id : FunctionId} {portions : List Portion} :
    w.store.function id = c.waiting portions → Stands w c portions (.function id)

namespace World

variable {w w' : World} {c : Callable} {portions : List Portion} {function : Value}

@[simp] theorem supplied_nil : w.supplied c [] = w := by
  simp [supplied]

theorem supplied_append_singleton (portion : Portion) :
    w.supplied c (portions ++ [portion]) =
      (w.supplied c portions).pushFunction (c.waiting (portions ++ [portion])) := by
  have initials : (portions ++ [portion]).inits.tail =
      portions.inits.tail ++ [portions ++ [portion]] := by
    have nonempty : portions.inits ≠ [] :=
      List.ne_nil_of_mem ((List.mem_inits [] portions).mpr List.nil_prefix)
    rw [List.inits_append, List.tail_append_of_ne_nil nonempty]
    rfl
  simp only [supplied, pushFunction, Store.newFunction, initials, List.map_append, List.map_cons,
    List.map_nil, ← List.append_toArray, Array.push_eq_append, Array.append_assoc]

theorem keepsFunctions_supplied : w.KeepsFunctions (w.supplied c portions) := ⟨_, rfl⟩

/-- A function stands under its number in every later world. -/
theorem KeepsFunctions.function_eq {id : FunctionId} (keeps : w.KeepsFunctions w')
    (there : w.store.function id ≠ default) : w'.store.function id = w.store.function id := by
  obtain ⟨more, added⟩ := keeps
  have inside : id < w.store.functions.size := by
    by_contra outside
    exact there (by simp [Store.function, outside])
  simp [Store.function, added, Array.getD_eq_getD_getElem?, Array.getElem?_append, inside]

theorem function_pushFunction (w : World) (c : Callable) :
    (w.pushFunction c).store.function w.store.functions.size = c := by
  simp [pushFunction, Store.newFunction, Store.function]

namespace Stands

theorem later {arity : Nat} (takes : c.arity? = some arity) (stands : w.Stands c portions function)
    (keeps : w.KeepsFunctions w') : w'.Stands c portions function := by
  cases stands with
  | whole holds =>
    have there := holds ▸ c.ne_default_of_arity? takes
    exact .whole ((keeps.function_eq there).trans holds)
  | part holds =>
    have there := holds ▸ c.waiting_ne_default portions
    exact .part ((keeps.function_eq there).trans holds)

/-- To call a function that has been given some portions is to call the function with these and one
more. -/
theorem callValue_eq (m : Machine) (stands : w.Stands c portions function) (portion : Portion)
    (env : EnvId) :
    callValue m function portion.args portion.this env w =
      callCallable m c (allArgs (portions ++ [portion])) (entity? (portions ++ [portion])) env w := by
  rw [Portion.allArgs_append_singleton, Portion.entity?_append_singleton]
  cases stands with
  | @whole id holds =>
    show callCallable m (w.store.function id) portion.args portion.this env w = _
    rw [holds]
    rfl
  | @part id portions holds =>
    show callCallable m (w.store.function id) portion.args portion.this env w = _
    rw [holds]
    rfl

end Stands

end World

/-! ## Calls one after the other -/

section

variable {m : Machine} {w w' : World} {c : Callable} {id : FunctionId} {arity : Nat}
  {portions : List Portion}

namespace Eval

theorem supply_append (function : Value) (portions more : List Portion) :
    supply m function (portions ++ more) =
      supply m function portions >>= fun given => supply m given more := by
  induction portions generalizing function with
  | nil => rfl
  | cons portion portions ih => simp only [List.cons_append, supply, ih, bind_assoc]

theorem supply_singleton (function : Value) (portion : Portion) :
    supply m function [portion] = callValue m function portion.args portion.this :=
  bind_pure _

end Eval

/-- A call that leaves arguments missing makes the function that waits for them. -/
theorem World.Stands.callValue_of_lt {function : Value} (takes : c.arity? = some arity)
    (stands : w.Stands c portions function) {portion : Portion}
    (few : (allArgs (portions ++ [portion])).length < arity) (env : EnvId) :
    callValue m function portion.args portion.this env w =
      .done (.function w.store.functions.size)
        (w.pushFunction (c.waiting (portions ++ [portion]))) := by
  rw [stands.callValue_eq, c.callCallable_eq takes, withArity, if_pos few]
  rfl

/-- As long as arguments are missing, calls make the functions that wait for them and nothing else. -/
theorem Callable.supply_of_lt (takes : c.arity? = some arity) (holds : w.store.function id = c)
    (few : (allArgs portions).length < arity) (env : EnvId) :
    ∃ given, supply m (.function id) portions env w = .done given (w.supplied c portions) ∧
      (w.supplied c portions).Stands c portions given := by
  induction portions using List.reverseRecOn with
  | nil => exact ⟨.function id, by rw [World.supplied_nil]; rfl, .whole (by rwa [World.supplied_nil])⟩
  | append_singleton portions portion ih =>
    have fewer : (allArgs portions).length < arity := by
      rw [Portion.length_allArgs_append_singleton] at few
      omega
    obtain ⟨given, done, stands⟩ := ih fewer
    refine ⟨.function (w.supplied c portions).store.functions.size, ?_, .part ?_⟩
    · rw [supply_append, bind_eq, done, World.supplied_append_singleton]
      show supply m given [portion] env _ = _
      rw [supply_singleton, stands.callValue_of_lt takes few]
    · rw [World.supplied_append_singleton, World.function_pushFunction]

/-- Behind calls that leave arguments missing comes a call of the function with theirs and its own, and
the others are calls of what that gives. -/
theorem Callable.supply_cons_of_lt (takes : c.arity? = some arity)
    (holds : w.store.function id = c) (few : (allArgs portions).length < arity) (portion : Portion)
    (rest : List Portion) (env : EnvId) :
    supply m (.function id) (portions ++ portion :: rest) env w =
      (callCallable m c (allArgs (portions ++ [portion])) (entity? (portions ++ [portion])) env
        (w.supplied c portions)).bind fun result => supply m result rest env := by
  obtain ⟨given, done, stands⟩ := c.supply_of_lt takes holds few env
  rw [supply_append, bind_eq, done, ← stands.callValue_eq m portion env]
  exact bind_eq ..

/-- If some portions are too many, but none of their initial parts is exact, then one of them brings too
many where arguments were missing. -/
theorem Portion.exists_exceeding (many : arity < (allArgs portions).length)
    (apart : ∀ initial, initial <+: portions → (allArgs initial).length ≠ arity) :
    ∃ before last rest, portions = before ++ last :: rest ∧ (allArgs before).length < arity ∧
      arity < (allArgs (before ++ [last])).length := by
  induction portions using List.reverseRecOn with
  | nil => cases many
  | append_singleton portions portion ih =>
    have inside := List.prefix_append portions [portion]
    rcases Nat.lt_trichotomy (allArgs portions).length arity with few | exact | many'
    · exact ⟨portions, portion, [], rfl, few, many⟩
    · exact absurd exact (apart portions inside)
    · obtain ⟨before, last, rest, rfl, few, exceeds⟩ :=
        ih many' fun initial initially => apart initial (initially.trans inside)
      exact ⟨before, last, rest ++ [portion], by simp, few, exceeds⟩

end

/-! ## Remote calls -/

/-- The world in which a remote call has been made, or not. -/
def World.asking (w : World) (request? : Option RemoteRequest) : World :=
  { w with effects := request?.toList.map .asked ++ w.effects }

theorem Eval.askRemote_cases (name : String) (spec : RemoteSpec) (args : List HostValue) (env : EnvId)
    (w : World) :
    (∃ p, askRemote name spec args env w = .stopped (.signal (.panic p)) w) ∨
      ∃ result request?, askRemote name spec args env w = .done result (w.asking request?) := by
  cases spec with
  | brokered target arity =>
    cases employed : (w.environment env).broker with
    | none =>
      refine .inl ⟨.remoteFailure ("no fit broker for '" ++ name ++ "'"), ?_⟩
      simp only [askRemote, bind_eq, environment, Progress.bind, employed]
      rfl
    | some broker =>
      refine .inr ⟨broker w.requests target args, some (.brokered target args), ?_⟩
      simp only [askRemote, bind_eq, environment, Progress.bind, employed]
      rfl
  | http url method =>
    cases made : HttpRequest.make w.store.hostTypeName (w.environment env).options.httpTimeout url
      method args with
    | error e =>
      refine .inr ⟨.error e, none, ?_⟩
      simp only [askRemote, bind_eq, environment, ask, Progress.bind, made]
      rfl
    | ok call =>
      refine .inr ⟨call.answer ((w.environment env).agent w.requests call), some (.http call), ?_⟩
      simp only [askRemote, bind_eq, environment, ask, Progress.bind, made]
      rfl

theorem Eval.demand_eq {α : Type} (f : Store → Except Panic α) (env : EnvId) (w : World) :
    demand f env w = ofExcept (f w.store) env w := rfl

/-- When a remote call has all its arguments, it is made once, or it fails before. -/
theorem Eval.effects_callRemote (name : String) (spec : RemoteSpec) (args : List Value) (env : EnvId)
    (w : World) : ∃ request? : Option RemoteRequest,
      (callRemote name spec args env w).world.effects = request?.toList.map .asked ++ w.effects := by
  rw [callRemote, bind_eq, demand_eq]
  cases w.store.allToHost args with
  | error p => exact ⟨none, rfl⟩
  | ok args =>
    show ∃ request? : Option RemoteRequest,
      ((askRemote name spec args >>= _) env w).world.effects = _
    rw [bind_eq]
    rcases askRemote_cases name spec args env w with ⟨p, refused⟩ | ⟨result, request?, asked⟩
    · rw [refused]
      exact ⟨none, rfl⟩
    · rw [asked]
      cases result <;> exact ⟨request?, rfl⟩

/-! ## Calls on entities -/

/-- A call of a method of an entity that the viewer may see is a call of its member on the entity. -/
theorem Goal.run_callMethod_member {entity : EntityRef} {name : String} {viewer : Option EntityRef}
    {member : Value} {w : World}
    (visible : (!isPrivateName name || viewer.any fun v => w.store.related v entity) = true)
    (found : w.store.member? entity name = some member) (args : List Value) (levels : Nat)
    (env : EnvId) :
    (Goal.callMethod (.entity entity) name args viewer).run (levels + 2) env w =
      (Goal.call member args (some entity)).run (levels + 1) env w := by
  have allowed : checkPrivate entity name viewer env w = .done () w := by
    show (if (!(!isPrivateName name || viewer.any fun v => w.store.related v entity)) = true then
      Eval.panic _ else pure () : Eval Unit) env w = _
    rw [visible]
    rfl
  have asked : ask (·.member? entity name) env w = .done (some member) w := by
    show Progress.done (w.store.member? entity name) w = _
    rw [found]
  show (checkPrivate entity name viewer >>= _) env w = _
  rw [bind_eq, allowed]
  show (ask (·.member? entity name) >>= _) env w = _
  rw [bind_eq, asked]
  rfl

/-- The body of a closure, in the frame of a call. -/
def FunctionDef.goal (definition : FunctionDef) (frame : FrameId) : Goal Value :=
  match definition.body with
  | .block body => .block body frame
  | .expr value => .expr value frame

theorem Eval.invoke_eq (m : Machine) (definition : FunctionDef) (captured : FrameId)
    (args : List Value) (this : Option EntityRef) :
    invoke m definition captured args this = counted (do
      tick
      let around ← this? captured
      let frame ← newFrame (some captured) (this.orElse fun _ => around)
      declareAll frame (definition.params.zip args)
      boundary (m.run (definition.goal frame))) := by
  obtain ⟨name, params, body, position⟩ := definition
  cases body <;> rfl

/-- Names can always be declared, and frames keep their entities. -/
theorem Eval.declareAll_done (frame : FrameId) (names : List (String × Value)) (env : EnvId)
    (w : World) : ∃ w', declareAll frame names env w = .done () w' ∧
      ∀ other, w'.store.frames.this? other = w.store.frames.this? other := by
  induction names generalizing w with
  | nil => exact ⟨w, rfl, fun _ => rfl⟩
  | cons entry names ih =>
    obtain ⟨name, value⟩ := entry
    obtain ⟨w', done, belongs⟩ := ih (w.declare frame name value)
    exact ⟨w', done, fun other => (belongs other).trans (Frames.this?_declare ..)⟩

/-- The body of a closure that is called on an entity runs in a frame of that entity: nothing else that
could become of the body matters. -/
theorem Eval.invoke_congr {m m' : Machine} {definition : FunctionDef} {entity : EntityRef}
    (agree : ∀ frame env w, w.store.frames.this? frame = some entity →
      m.run (definition.goal frame) env w = m'.run (definition.goal frame) env w)
    (captured : FrameId) (args : List Value) :
    invoke m definition captured args (some entity) =
      invoke m' definition captured args (some entity) := by
  rw [invoke_eq, invoke_eq]
  refine congrArg counted (congrArg (tick >>= ·) (funext fun _ => ?_))
  funext env w
  -- The frame is made for the entity, and still belongs to it when the parameters are declared.
  let frame := (w.store.frames.push (some captured) (some entity)).1
  obtain ⟨w', done, belongs⟩ :=
    declareAll_done frame (definition.params.zip args) env (w.pushFrame captured (some entity))
  have inside : w'.store.frames.this? frame = some entity :=
    (belongs frame).trans (Frames.this?_push ..)
  have runs (m : Machine) : (declareAll frame (definition.params.zip args) >>= fun _ =>
      boundary (m.run (definition.goal frame))) env (w.pushFrame captured (some entity)) =
      boundary (m.run (definition.goal frame)) env w' := by
    rw [bind_eq, done]
    rfl
  have same : boundary (m.run (definition.goal frame)) env w' =
      boundary (m'.run (definition.goal frame)) env w' := by
    rw [boundary, boundary, bind_eq, bind_eq, attempt, attempt, agree _ _ _ inside]
  exact (runs m).trans (same.trans (runs m').symm)

/-! ## All ways to split the arguments -/

/-- A function that waits for a number of arguments may be given them in portions. -/
structure Curries (m : Machine) (w : World) (id : FunctionId) (c : Callable) (arity : Nat) : Prop where
  /-- As long as arguments are missing, calls make the functions that wait for them and nothing else. -/
  waits {portions : List Portion} (few : (allArgs portions).length < arity) (env : EnvId) :
    ∃ given, supply m (.function id) portions env w = .done given (w.supplied c portions) ∧
      (w.supplied c portions).Stands c portions given
  /-- The call that brings the last ones comes to what the call with all of them would come to there. -/
  completes {before : List Portion} {last : Portion} (brings : last.args ≠ [])
    (all : (allArgs (before ++ [last])).length = arity) (env : EnvId) :
    supply m (.function id) (before ++ [last]) env w =
      callValue m (.function id) (allArgs (before ++ [last])) (entity? (before ++ [last])) env
        (w.supplied c before)
  /-- Other calls behind it are calls of what it gives. -/
  continues {before rest : List Portion} {last : Portion} (brings : last.args ≠ [])
    (all : (allArgs (before ++ [last])).length = arity) (env : EnvId) :
    supply m (.function id) (before ++ last :: rest) env w =
      (callValue m (.function id) (allArgs (before ++ [last])) (entity? (before ++ [last])) env
        (w.supplied c before)).bind fun result => supply m result rest env
  /-- A call that brings too many fails before anything runs. -/
  refuses {portions : List Portion} (many : arity < (allArgs portions).length)
    (apart : ∀ initial, initial <+: portions → (allArgs initial).length ≠ arity) (env : EnvId) :
    ∃ before last rest, portions = before ++ last :: rest ∧ (allArgs before).length < arity ∧
      supply m (.function id) portions env w =
        .stopped (.signal (.panic (.argumentMismatch (c.name?.getD "function" ++ " takes " ++
          Decimal.natText arity ++ " arguments but " ++
          Decimal.natText (allArgs (before ++ [last])).length ++ " were given"))))
          (w.supplied c before)
  /-- What waits may be called at any later time, and what the call comes to is the same as if the
  function were called then with all that it has been given. -/
  lasts {portions : List Portion} {given : Value} {w₁ w₂ : World} (since : w.KeepsFunctions w₁)
    (stands : w₁.Stands c portions given) (keeps : w₁.KeepsFunctions w₂) (portion : Portion)
    (env : EnvId) :
    callValue m given portion.args portion.this env w₂ =
      callValue m (.function id) (allArgs (portions ++ [portion])) (entity? (portions ++ [portion]))
        env w₂
  /-- Calls that leave arguments missing write no line, and ask neither a broker nor a URL. -/
  silent (portions : List Portion) : (w.supplied c portions).effects = w.effects
  /-- A remote function asks once at most, when it has all arguments. -/
  asks {name : String} {spec : RemoteSpec} {w' : World} {args : List Value} : c = .remote name spec →
    w.KeepsFunctions w' → args.length = arity → ∀ (this : Option EntityRef) (env : EnvId),
    ∃ request? : Option RemoteRequest, (callValue m (.function id) args this env w').world.effects =
      request?.toList.map .asked ++ w'.effects
  /-- With all arguments at once the function does what it does. -/
  performs {w' : World} {args : List Value} (keeps : w.KeepsFunctions w') (all : args.length = arity)
    (this : Option EntityRef) (env : EnvId) :
    callValue m (.function id) args this env w' = c.perform m args this env w'
  /-- If the first call was made on an entity, the function belongs to that when it has all arguments,
  on whatever entity the last call is made. -/
  belongs {entity : EntityRef} {first : List Value} {rest : List Portion} {given : Value}
    {w₁ w₂ : World} (stands : w₁.Stands c (⟨first, some entity⟩ :: rest) given)
    (keeps : w₁.KeepsFunctions w₂) (last : Portion)
    (all : (allArgs (⟨first, some entity⟩ :: rest ++ [last])).length = arity) (env : EnvId) :
    callValue m given last.args last.this env w₂ =
      c.perform m (allArgs (⟨first, some entity⟩ :: rest ++ [last])) (some entity) env w₂

/-- Arguments are missing until the last call that brings some. -/
theorem Portion.length_allArgs_lt {before : List Portion} {last : Portion} {arity : Nat}
    (brings : last.args ≠ []) (all : (allArgs (before ++ [last])).length = arity) :
    (allArgs before).length < arity := by
  have positive := List.length_pos_iff.mpr brings
  rw [length_allArgs_append_singleton] at all
  omega

/-- A world with a function of two arguments, which gives the entity that it is called on, one of a
single argument, which gives another function, and a remote one of two arguments, for which a broker
answers. All code stands in an entity. -/
def World.currying : World :=
  let owner : FunctionDef := ⟨some "owner", ["a", "b"], .expr ⟨0, .nowhere, .this⟩, .nowhere⟩
  let same : FunctionDef := ⟨none, ["b"], .expr ⟨1, .nowhere, .name "b"⟩, .nowhere⟩
  let choose : FunctionDef := ⟨some "choose", ["a"], .expr ⟨2, .nowhere, .function same⟩, .nowhere⟩
  let listing : Broker := fun _ args => .ok (.list args)
  { World.empty with
    store.functions := #[.closure owner 0, .closure choose 0,
      .remote "pair" (.brokered "list.make" 2)]
    store.frames := (Frames.empty.push none (some ⟨0, 0⟩)).2
    environments := #[{ (default : Environment) with broker := some listing }] }

theorem World.accepted_currying : World.currying.Accepted where
  functions := by
    have inside : World.currying.Supports ⟨false, true⟩ 0 := fun _ => rfl
    intro callable mem
    simp only [currying, List.mem_toArray, List.mem_cons, List.not_mem_nil, or_false] at mem
    rcases mem with rfl | rfl | rfl
    · exact ⟨⟨false, true⟩, rfl, inside⟩
    · exact ⟨⟨false, true⟩, trivial, inside⟩
    · trivial
  queue := fun _ mem => absurd mem List.not_mem_nil
  modules := by
    intro e mem
    obtain rfl := Array.mem_singleton.mp mem
    exact fun _ mem => absurd mem List.not_mem_nil
  clean := rfl

/-- The value of an evaluation that has ended with one. -/
def Progress.value? {α : Type} : Progress α → Option α
  | .done value _ => some value
  | .stopped _ _ | .waiting _ _ _ => none

/-- Two truth values can be given to the host. -/
theorem Store.allToHost_bools (s : Store) (a b : Bool) :
    s.allToHost [.bool a, .bool b] = .ok [.bool a, .bool b] := by
  simp only [allToHost, marshalItems, marshalFrom]
  rfl

end ScriptEngine
