import ScriptEngine.Evaluation.Call
import ScriptEngine.Proofs.Evaluation.Methods

/-!
# Calls are tame

A closure runs in a frame that belongs to the entity of the call, or else to that of the frame where
it was made. So its code finds there what the site of its definition promises, and nothing but
panics comes out of its body, however it is called.

* `tame_callHost`, `tame_callMethod`: calls of methods.
* `tame_counted`, `tame_invoke`: a call of a closure.
* `tame_callValue`: calls of values, also with arguments that have waited for others.
-/

set_option linter.unusedSectionVars false

namespace ScriptEngine.Eval

variable {α : Type} {m : Machine} {d : Discipline} [d.Lawful] {env : EnvId} {base : World}
  {returns loop : Bool}

open Discipline (Lawful)

/-! ## Host objects -/

theorem tame_callEntity {entity : EntityRef} {name : String} {args : List HostValue} :
    (callEntity entity name args).Tame d env base returns loop := by
  refine Tame.andThen (.mapM fun _ => tame_fromHost) fun args => ?_
  have fits : (Task.method entity name args).Fits d base := trivial
  exact (tame_enqueue fits).andThen fun promise => tame_await.andThen fun _ =>
    tame_ask.andThen fun _ => tame_pure

theorem tame_callProxy (tame : m.Tame d) {proxy : ScriptProxy} {name : String}
    {args : List HostValue} : (callProxy m proxy name args).Tame d env base returns loop := by
  refine .ite (fun _ => tame_pure) fun _ => tame_ask.andThen fun member? => ?_
  split
  · exact tame_callEntity
  · refine tame_ask.andThen fun ref? => ?_
    split
    · exact tame.callHost.weaken
    · exact tame_pure

theorem tame_callHost (tame : m.Tame d) {ref : HostRef} {name : String}
    {args : List HostValue} : (callHost m ref name args).Tame d env base returns loop := by
  refine tame_ask.andThen fun answer? => ?_
  match answer? with
  | some (.ok (value, object)) =>
    exact Tame.andThen (tame_change fun _ => .of_arenas rfl rfl rfl rfl) fun _ => tame_pure
  | some (.error e) => exact tame_pure
  | none =>
    refine tame_ask.andThen fun object? => ?_
    split
    · exact tame_callProxy tame
    · exact tame_pure

theorem tame_answer {result : Except HostError HostValue} :
    (answer result).Tame d env base returns loop := by
  cases result with
  | ok value => exact tame_fromHost
  | error e => exact tame_panic

theorem tame_callHostMethod (tame : m.Tame d) {ref : HostRef} {receiver : Value}
    {name : String} {args : List Value} :
    (callHostMethod m ref receiver name args).Tame d env base returns loop := by
  refine tame_ask.andThen fun arity? => .ite (fun _ => ?_) fun _ => ?_
  · exact tame_newFunction ⟨trivial, fun entity mem => absurd mem (Option.not_mem_none entity)⟩
  · refine tame_demand.andThen fun args => ?_
    exact Tame.andThen tame.callHost.weaken fun _ => tame_answer

theorem tame_callClass {ref : ClassRef} {name : String} {args : List Value} :
    (callClass ref name args).Tame d env base returns loop := by
  refine tame_demand.andThen fun args => tame_ask.andThen fun answer? => ?_
  match answer? with
  | some (.ok (.value value)) => exact tame_fromHost
  | some (.ok (.created object)) => exact tame_newHost.andThen fun _ => tame_pure
  | some (.error e) => exact tame_panic
  | none => exact tame_panic

/-! ## Methods -/

theorem tame_callEntityMethod (tame : m.Tame d) {entity : EntityRef} {name : String}
    {args : List Value} {viewer : Option EntityRef} :
    (callEntityMethod m entity name args viewer).Tame d env base returns loop := by
  have asked : (ask (·.member? entity name)).Follows d env base
      (fun member? w => member?.isSome → d.homes w entity) (Signal.Within returns loop) :=
    .query fun _ sound _ has =>
      have ⟨_, found⟩ := Option.isSome_iff_exists.mp has
      Lawful.homing.member sound found
  refine tame_checkPrivate.andThen fun _ => asked.bind fun member? w later home => ?_
  cases member? with
  | some member => exact (tame.call fun _ same => Option.some.inj same ▸ home rfl).weaken
  | none =>
    refine tame_ask.andThen fun ref? => ?_
    cases ref? with
    | some ref => exact tame_callHostMethod tame
    | none => exact tame_builtinMethod tame

theorem tame_callMethod (tame : m.Tame d) {receiver : Value} {name : String}
    {args : List Value} {viewer : Option EntityRef} :
    (callMethod m receiver name args viewer).Tame d env base returns loop := by
  unfold callMethod
  cases receiver with
  | entity entity => exact tame_callEntityMethod tame
  | external ref => exact tame_callHostMethod tame
  | hostClass ref => exact tame_callClass
  | space space => exact tame_spaceMember.andThen fun _ => tame.callAlone.weaken
  | map id =>
    refine .ite (fun _ => tame_builtinMethod tame) fun _ => ?_
    refine tame_ask.andThen fun member? => ?_
    cases member? with
    | some member => exact tame.callAlone.weaken
    | none => exact tame_panic
  | null | unit | bool | number | string | array | tuple | function | promise | safe =>
    exact tame_builtinMethod tame

/-! ## Functions -/

/-- What counting a call comes to. -/
theorem counted_eq {call : Eval Value} {w : World} :
    counted call env w =
      if (w.environment env).options.maxCallDepth ≤ w.turn.interpreter.depth then
        panic ⟨.stackOverflow, "call depth exceeded " ++
          Decimal.natText (w.environment env).options.maxCallDepth⟩ env w
      else
        (contain call env (w.beginCall env)).bind fun result w' =>
          ofExcept result env (w'.endCall env) := by
  change (if _ then _ else _ : Eval Value) env w = _
  split
  · rfl
  · change (contain call >>= _) env (w.beginCall env) = _
    rw [bind_eq]
    rfl

/-- A call that is counted runs in the world in which it has begun. -/
theorem tame_counted {call : Eval Value}
    (h : ∀ w, d.Lasting base w → call.Tame d env w false false) :
    (counted call).Tame d env base returns loop := by
  intro w sound later
  rw [counted_eq]
  split
  · exact ⟨.refl sound, trivial⟩
  · next free =>
    have encloses := Lawful.call sound (Nat.lt_of_not_le free)
    have lasting := (Lawful.lasting later).trans encloses.lasting
    refine (h _ lasting).enclosed encloses fun result w' reaches => ?_
    cases result with
    | ok value => exact ⟨reaches, trivial⟩
    | error cause => exact ⟨reaches, trivial⟩

/-- The code of a closure finds an entity wherever it was promised one: the frame of the call belongs
to that of the frame around, unless the call brings one along. -/
theorem tame_invoke (tame : m.Tame d) {definition : FunctionDef} {captured : FrameId}
    {args : List Value} {this : Option EntityRef} {t : Site} (fits : definition.Fits d.imports t)
    (supports : d.Supports base t captured) (home : ∀ entity ∈ this, d.homes base entity) :
    (invoke m definition captured args this).Tame d env base returns loop := by
  obtain ⟨name, params, body, position⟩ := definition
  refine tame_counted fun start lasting => tame_tick.andThen fun _ => ?_
  refine follows_this?.bind fun around w later belongs => ?_
  have supported := (supports.later lasting).lasts later
  have chosen : ∀ entity ∈ this.orElse fun _ => around, d.homes w entity := by
    cases this with
    | some entity =>
      exact fun _ mem => (Lawful.lasting later).homes (lasting.homes (home _ mem))
    | none => exact belongs.2
  refine (follows_newFrame supported.stands chosen).bind fun frame w' later' made => ?_
  have inside : d.Supports w' t.body frame := by
    refine ⟨fun inEntity => ?_, made.2.2⟩
    have has := supported.entity inEntity
    rw [made.1, ← belongs.1] at *
    cases this with
    | some entity => rfl
    | none => exact has
  refine (tame_declareAll made.2.1).andThen fun _ => Tame.boundary ?_
  cases body with
  | block body => exact tame.block fits inside fun _ => made.2.1
  | expr value =>
    refine (tame.expr fits inside).imp (fun _ _ value => value) fun s within =>
      within.imp (fun no => by cases no) fun inLoop => inLoop

theorem tame_request {call : RemoteRequest} : (request call).Tame d env base returns loop :=
  tame_get.map.andThen fun _ => tame_effect.andThen fun _ => tame_pure

theorem tame_askRemote {name : String} {spec : RemoteSpec} {args : List HostValue} :
    (askRemote name spec args).Tame d env base returns loop := by
  cases spec with
  | brokered target arity =>
    refine tame_environment.andThen fun environment => ?_
    cases environment.broker with
    | none => exact tame_panic
    | some broker => exact tame_request.andThen fun _ => tame_pure
  | http url method =>
    refine tame_environment.andThen fun environment => tame_ask.andThen fun call => ?_
    cases call with
    | error e => exact tame_pure
    | ok call => exact tame_request.andThen fun _ => tame_pure

theorem tame_callRemote {name : String} {spec : RemoteSpec} {args : List Value} :
    (callRemote name spec args).Tame d env base returns loop := by
  refine tame_demand.andThen fun args => tame_askRemote.andThen fun result => ?_
  cases result with
  | ok value => exact tame_fromHost
  | error e => exact tame_panic

/-- What waits for more arguments is accepted as the function itself is. -/
theorem tame_withArity {callable : Callable} {arity : Nat} {args : List Value}
    {this : Option EntityRef} {run : Eval Value} (fits : d.Admits base callable)
    (home : ∀ entity ∈ this, d.homes base entity) (h : run.Tame d env base returns loop) :
    (withArity callable arity args this run).Tame d env base returns loop :=
  .ite (fun _ => tame_newFunction ⟨fits, home⟩) fun _ =>
    .ite (fun _ => tame_panic) fun _ => h

theorem tame_callCallable (tame : m.Tame d) {callable : Callable} {args : List Value}
    {this : Option EntityRef} (fits : d.Admits base callable)
    (home : ∀ entity ∈ this, d.homes base entity) :
    (callCallable m callable args this).Tame d env base returns loop := by
  induction callable generalizing args this with
  | closure definition captured =>
    obtain ⟨t, fits, supports⟩ := fits
    exact tame_withArity ⟨t, fits, supports⟩ home (tame_invoke tame fits supports home)
  | curried target bound boundThis ih =>
    refine ih fits.1 ?_
    cases boundThis with
    | some entity => exact fits.2
    | none => exact home
  | native function =>
    rw [callCallable]
    cases function.arity? with
    | none => exact tame_builtin
    | some arity => exact tame_withArity trivial home tame_builtin
  | method receiver name => exact tame.callMethod.weaken
  | remote name spec => exact tame_withArity trivial home tame_callRemote

/-- What stands under a number is an accepted function, also if nothing was put there. -/
theorem follows_function (id : FunctionId) {ends : Signal → Prop} :
    (ask (·.function id)).Follows d env base (fun callable w => d.Admits w callable) ends :=
  .query fun _ sound _ => Discipline.Lawful.function id sound

theorem tame_callValue (tame : m.Tame d) {function : Value} {args : List Value}
    {this : Option EntityRef} (home : ∀ entity ∈ this, d.homes base entity) :
    (callValue m function args this).Tame d env base returns loop := by
  cases function with
  | function id =>
    exact (follows_function id).bind fun _ _ later fits =>
      tame_callCallable tame fits fun entity mem => (Lawful.lasting later).homes (home entity mem)
  | null | unit | bool | number | string | array | tuple | map | entity | external | hostClass
    | promise | safe | space => exact tame_panic

end ScriptEngine.Eval
