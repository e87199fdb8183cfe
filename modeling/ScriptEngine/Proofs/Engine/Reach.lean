import ScriptEngine.Engine.Basic
import ScriptEngine.Proofs.Analysis.Acceptance
import ScriptEngine.Proofs.Evaluation.Confinement
import ScriptEngine.Proofs.Forest.Linking
import ScriptEngine.Proofs.Host.Bindings

/-!
# What engines come to

A host makes an engine, binds names for it, loads modules that the analysis accepts, and runs them
as often as it likes, with any arguments.

* `Engine.Reached`: the engines that come of it, whatever the host does and in whatever order.
* `Accord.Hosted`: what a host does leaves the tasks of an accord as they have to be.
* `Engine.Reached.execute`, `Engine.Reached.implement`: operations that are made of others.
* `Engine.Reached.keeps`: then they are so in every engine.
* `Engine.Reached.accepted`: the world of such an engine is accepted.
* `Engine.Reached.grounded`: what the code in it refers to is there.
* `Engine.Reached.control_stays`: return, break and continue do not leave what they belong to.
* `Engine.Reached.this_bound`: `this` is always bound where it may stand.
-/

namespace ScriptEngine

/-- A world without anything holds no code. -/
theorem World.accepted_empty : World.empty.Accepted where
  functions := fun _ mem => absurd mem (Array.not_mem_empty _)
  queue := fun _ mem => absurd mem List.not_mem_nil
  modules := fun _ mem => absurd mem (Array.not_mem_empty _)
  clean := rfl

/-- An environment over modules that the analysis has accepted. -/
theorem World.Accepted.newEnvironment {w : World} {environment : Environment}
    (accepted : w.Accepted)
    (suit : ∀ m ∈ environment.forest.modules, m.tree.body.Suits .top) :
    w.Later (w.newEnvironment environment).2 ∧ (w.newEnvironment environment).2.Accepted := by
  have later : w.Later (w.newEnvironment environment).2 := fun _ has => has
  refine ⟨later, fun callable mem => (accepted.functions callable mem).later later,
    fun job mem => (accepted.queue job mem).later later, fun e mem => ?_, accepted.clean⟩
  rcases Array.mem_push.mp mem with mem | rfl
  · exact accepted.modules e mem
  · exact suit

/-- A world without anything refers to nothing. -/
theorem World.grounded_empty : World.empty.Grounded where
  frames := fun _ mem => absurd mem (Array.not_mem_empty _)
  functions := fun _ mem => absurd mem (Array.not_mem_empty _)
  queue := fun _ mem => absurd mem List.not_mem_nil

/-- An environment more takes nothing away. -/
theorem World.grows_newEnvironment (w : World) (environment : Environment) :
    w.store.Grows (w.newEnvironment environment).2.store := by
  refine ⟨Nat.le_refl _, fun env => Nat.le_of_eq (congrArg Arena.size ?_)⟩
  simp only [newEnvironment, Store.arena, Array.getD_eq_getD_getElem?, Array.getElem?_push]
  split
  · next last => rw [last, Array.getElem?_size]; rfl
  · rfl

/-- The tasks of an accord go on well whatever the host of an engine does. What it changes by itself
is quiet and leaves promises alone, adds an environment over a linked forest, or is evaluated as tasks
do. -/
structure Accord.Hosted (a : Accord) : Prop where
  empty : a.rests .empty
  fresh (t : TaskId) : a.fresh .empty t
  quiet {w w' : World} : a.rests w → w.Quiet w' → w.SamePromises w' →
    a.rests w' ∧ ∀ t, a.rely t w w'
  newEnvironment {w : World} {b : ForestBuilder} {environment : Environment} : a.rests w →
    b.Registered → b.finish = .ok environment.forest → environment.modules = [] →
    a.rests (w.newEnvironment environment).2 ∧ ∀ t, a.rely t w (w.newEnvironment environment).2
  program (t : TaskId) (env : EnvId) (name : String) (args : List Value) (base : World) :
    (Eval.program name args).Tame (a.discipline t) env base false false
  callHost (t : TaskId) (ref : HostRef) (name : String) (args : List HostValue) (levels : Nat)
    (base : World) :
    ((Goal.callHost ref name args).run levels).Tame (a.discipline t) 0 base false false

namespace Engine

/-! ## Reached engines -/

/-- The engines that a host can come to. Modules get into them through a builder that has registered
and linked them; what is made in the store from outside is no code. -/
inductive Reached : Engine → Prop
  | start (options : Options) : Reached (.start options)
  | grant {e : Engine} (name : String) (binding : Binding) : Reached e → Reached (e.grant name binding)
  | grantClass {e e' : Engine} {name : String} {ref : ClassRef} :
    Reached e → e.grantClass name ref = .ok e' → Reached e'
  | setBroker {e : Engine} (broker : Brokerage) : Reached e → Reached (e.setBroker broker)
  | connect {e : Engine} (agent : HttpAgent) : Reached e → Reached (e.connect agent)
  | grantIn {e : Engine} (env : EnvId) (name : String) (binding : Binding) :
    Reached e → Reached (e.grantIn env name binding)
  | grantClassIn {e e' : Engine} {env : EnvId} {name : String} {ref : ClassRef} :
    Reached e → e.grantClassIn env name ref = .ok e' → Reached e'
  | setBrokerIn {e : Engine} (env : EnvId) (broker : Brokerage) :
    Reached e → Reached (e.setBrokerIn env broker)
  | make {e : Engine} {α : Type} {f : Store → α × Store} :
    Reached e → (∀ s, (f s).2.functions = s.functions) → (∀ s, (f s).2.frames = s.frames) →
    Reached (e.make f).2
  | newEnvironment {e : Engine} {b : ForestBuilder} {forest : Forest} (entry : Option String) :
    Reached e → b.Registered → b.finish = .ok forest → Reached (e.newEnvironment forest entry).2
  | runModule {e : Engine} (env : EnvId) (name : String) (args : List Value) :
    Reached e → Reached (e.runModule env name args).2
  | callHost {e : Engine} (ref : HostRef) (name : String) (args : List HostValue) :
    Reached e → Reached (e.callHost ref name args).2

variable {e e' : Engine}

/-- Running an environment runs one of its modules. -/
theorem Reached.run (reached : e.Reached) (env : EnvId) (args : List Value) :
    (e.run env args).2.Reached := by
  unfold Engine.run
  dsimp only
  split
  · exact reached.runModule env _ args
  · exact reached

/-- Loading a source makes an environment over its module alone. -/
theorem exists_of_load {source : String} {env : EnvId} (loaded : e.load source = .ok (env, e')) :
    ∃ b forest, e.forestBuilder.addSource mainModule source = .ok b ∧ b.finish = .ok forest ∧
      e.newEnvironment forest (some mainModule) = (env, e') := by
  unfold Engine.load at loaded
  split at loaded
  · next forest built =>
    unfold forestOf at built
    cases added : e.forestBuilder.addSource mainModule source with
    | error error => rw [added] at built; cases built
    | ok b =>
      rw [added] at built
      dsimp only [Bind.bind, Except.bind] at built
      split at built
      · next linked =>
        obtain rfl := Except.ok.inj built
        exact ⟨b, _, rfl, linked, Except.ok.inj loaded⟩
      · cases built
  · cases loaded

theorem Reached.load (reached : e.Reached) {source : String} {env : EnvId}
    (loaded : e.load source = .ok (env, e')) : e'.Reached := by
  obtain ⟨b, forest, added, linked, made⟩ := exists_of_load loaded
  obtain rfl := congrArg Prod.snd made
  exact reached.newEnvironment _ (.addSource (.start _ _) added) linked

/-- Loading a source and running it. -/
theorem Reached.execute (reached : e.Reached) (source : String) (args : List Value) :
    (e.execute source args).2.Reached := by
  unfold Engine.execute
  split
  · next loaded => exact (reached.load loaded).run _ args
  · exact reached

/-- Making a host object of the entity that a source comes to. -/
theorem Reached.implement (reached : e.Reached) (shape : InterfaceShape) (fallback : Option HostRef)
    (source : String) : (e.implement shape fallback source).2.Reached := by
  have executed := reached.execute source []
  unfold Engine.implement
  split
  · next entity e' done =>
    rw [done] at executed
    change (e'.make (·.newHost (.script ⟨shape, entity, fallback⟩))).2.Reached
    exact Reached.make executed (fun _ => rfl) fun _ => rfl
  · next done => rw [done] at executed; exact executed
  · next done => rw [done] at executed; exact executed

/-- To grant a class is to grant a name. -/
theorem eq_grant_of_grantClass {name : String} {ref : ClassRef}
    (granted : e.grantClass name ref = .ok e') : e' = e.grant name (.hostClass ref) := by
  unfold Engine.grantClass at granted
  cases bound : e.bindings.bindClass name ref with
  | ok bindings =>
    rw [bound] at granted
    obtain rfl := Except.ok.inj granted
    rw [grant, Bindings.eq_bind_of_bindClass bound]
  | error error =>
    rw [bound] at granted
    cases granted

theorem eq_grantIn_of_grantClassIn {env : EnvId} {name : String} {ref : ClassRef}
    (granted : e.grantClassIn env name ref = .ok e') : e' = e.grantIn env name (.hostClass ref) := by
  unfold Engine.grantClassIn at granted
  cases bound : (e.world.environment env).grants.bindClass name ref with
  | ok grants =>
    rw [bound] at granted
    obtain rfl := Except.ok.inj granted
    obtain rfl := Bindings.eq_bind_of_bindClass bound
    dsimp only [grantIn]
    congr 1
    exact World.modifyEnvironment_congr rfl
  | error error =>
    rw [bound] at granted
    cases granted

/-! ## Invariants -/

/-- Tasks may wait in the world of an engine, and those that do go on well. -/
structure Keeps (a : Accord) (e : Engine) : Prop where
  world : a.rests e.world
  pool : e.pool.Keeps a e.world

variable {a : Accord}

theorem Keeps.of_rely {w : World} (keeps : e.Keeps a)
    (h : a.rests w ∧ ∀ t, a.rely t e.world w) : Keeps a { e with world := w } :=
  ⟨h.1, keeps.pool.rely h.2⟩

/-- What the host evaluates goes on well. -/
theorem Keeps.evaluate {α : Type} {x : Eval α} {env : EnvId} (keeps : e.Keeps a)
    (h : ∀ t base, x.Tame (a.discipline t) env base false false) : (e.evaluate env x).2.Keeps a :=
  have ran := keeps.pool.run keeps.world (h _)
  ⟨ran.1, ran.2.1⟩

/-- Nothing else becomes of the world than what tasks make of it. -/
theorem Keeps.passes_evaluate {α : Type} {x : Eval α} {env : EnvId} (keeps : e.Keeps a)
    (h : ∀ t base, x.Tame (a.discipline t) env base false false) :
    a.Passes e.world (e.evaluate env x).2.world :=
  (keeps.pool.run keeps.world (h _)).2.2

theorem evaluate_of_runModule (env : EnvId) (name : String) (args : List Value) :
    (e.runModule env name args).2 = (e.evaluate env (Eval.program name args)).2 := by
  unfold runModule
  split <;> next same => rw [same]

/-- Whatever a host does, the tasks of its engines go on well. -/
theorem Reached.keeps (hosted : a.Hosted) (reached : e.Reached) : e.Keeps a := by
  have bound {e : Engine} (keeps : e.Keeps a) (env : EnvId) {f : Environment → Environment}
      (forest : ∀ e, (f e).forest = e.forest) (modules : ∀ e, (f e).modules = e.modules) :
      Keeps a { e with world := e.world.modifyEnvironment env f } :=
    keeps.of_rely (hosted.quiet keeps.world (.modifyEnvironment forest modules) ⟨rfl, rfl⟩)
  induction reached with
  | start options => exact ⟨hosted.empty, .empty hosted.fresh⟩
  | grant name binding _ ih => exact ⟨ih.world, ih.pool⟩
  | grantClass _ granted ih =>
    obtain rfl := eq_grant_of_grantClass granted
    exact ⟨ih.world, ih.pool⟩
  | setBroker _ _ ih | connect _ _ ih => exact ⟨ih.world, ih.pool⟩
  | grantIn env name binding _ ih => exact bound ih env (fun _ => rfl) fun _ => rfl
  | grantClassIn _ granted ih =>
    obtain rfl := eq_grantIn_of_grantClassIn granted
    exact bound ih _ (fun _ => rfl) fun _ => rfl
  | setBrokerIn env broker _ ih => exact bound ih env (fun _ => rfl) fun _ => rfl
  | make _ functions frames ih =>
    exact ih.of_rely (hosted.quiet ih.world
      (.of_store (.of_arenas (functions _) (frames _) rfl rfl)) ⟨rfl, rfl⟩)
  | newEnvironment entry _ registered linked ih =>
    exact ih.of_rely (hosted.newEnvironment ih.world registered linked rfl)
  | runModule env name args _ ih =>
    rw [evaluate_of_runModule]
    exact ih.evaluate fun t => hosted.program t env name args
  | callHost ref name args _ ih =>
    exact ih.evaluate fun t => hosted.callHost t ref name args Eval.levels

/-! ## Accepted worlds -/

theorem hosted_accepted : Accord.accepted.Hosted where
  empty := World.accepted_empty
  fresh _ := trivial
  quiet accepted quiet _ := ⟨quiet.sameCode.accepted accepted, fun _ => quiet.sameCode.later⟩
  newEnvironment {w b environment} accepted registered linked _ := by
    refine have added := World.Accepted.newEnvironment accepted ?_
      ⟨added.2, fun _ => added.1⟩
    intro m mem
    obtain ⟨same, -⟩ := ForestBuilder.eq_of_finish linked
    rw [same] at mem
    obtain ⟨_, _, analysed⟩ := registered.analysed m mem
    exact Module.suits_of_analyze analysed
  program _ _ _ _ _ := Eval.tame_program_open (d := .accepted)
  callHost _ _ _ _ levels _ := (Eval.tame_run_open (d := .accepted) levels).callHost

/-- Whatever a host does, the worlds of its engines are accepted. -/
theorem Reached.accepted (reached : e.Reached) : e.world.Accepted :=
  (reached.keeps hosted_accepted).world

/-! ## Grounded worlds -/

theorem hosted_grounded : Accord.grounded.Hosted where
  empty := ⟨World.accepted_empty, World.grounded_empty⟩
  fresh _ := trivial
  quiet rests quiet promises :=
    ⟨⟨quiet.sameCode.accepted rests.1,
        rests.2.same quiet.frames quiet.functions quiet.queue quiet.grows⟩,
      fun _ => ⟨quiet.sameCode.later, quiet.grows⟩⟩
  newEnvironment {w b environment} rests registered linked opened := by
    have added := hosted_accepted.newEnvironment rests.1 registered linked opened
    have grows := w.grows_newEnvironment environment
    exact ⟨⟨added.1, rests.2.same rfl rfl rfl grows⟩, fun t => ⟨added.2 t, grows⟩⟩
  program _ _ _ _ _ := Eval.tame_program_open (d := .grounded)
  callHost _ _ _ _ levels _ := (Eval.tame_run_open (d := .grounded) levels).callHost

/-- Whatever a host does, what the code of its engines refers to is there: the frames around frames
and functions, and the entities that these belong to. -/
theorem Reached.grounded (reached : e.Reached) : e.world.Grounded :=
  (reached.keeps hosted_grounded).world.2

/-! ## Control and `this` -/

/-- Loop control and returns never leave the construct that they belong to, whatever a host does with
an engine. No return, break or continue has come to the end of a program, an imported module, a
function, a body of `async` or `safe`, or a callback. The modules suit the top level, around which
there is no loop. Wherever a part of them is evaluated from now on, an expression is never left by a
return, and neither an expression nor a block by a break or continue, unless a loop of the same body
is around it. -/
theorem Reached.control_stays (reached : e.Reached) :
    Incident.strayControl ∉ e.world.incidents ∧
      (∀ env, ∀ m ∈ (e.world.environment env).forest.modules, m.tree.body.Suits .top) ∧
        ∀ (levels : Nat) (t : Site) (frame : FrameId), e.world.Supports t frame →
          (∀ expr : Expr, expr.Suits t →
            ((Goal.expr expr frame).run levels).Confined e.world false t.inLoop) ∧
          ∀ body : Block, body.Suits t →
            ((Goal.block body frame).run levels).Confined e.world true t.inLoop := by
  have accepted := reached.accepted
  refine ⟨?_, accepted.environment, fun levels t frame supports => ?_⟩
  · rw [accepted.clean]
    exact List.not_mem_nil
  · have confined := Eval.confined_run levels
    exact ⟨fun expr suits => confined.expr suits supports,
      fun body suits => confined.block suits supports⟩

/-- A function that leaves one loop by a break and another one by a return. -/
def leavingSample : String :=
  "func f() { while (true) { break; } var i = 0; while (true) { if (i > 2) { return i; } i++; } } f()"

/-- The program comes to its value, and nothing has left what it belongs to on the way. -/
theorem control_stays_of_return :
    (((start default).execute leavingSample []).1.toOption.map
      ((start default).execute leavingSample []).2.store.display) = some "3" ∧
    Incident.strayControl ∉ ((start default).execute leavingSample []).2.world.incidents :=
  ⟨by decide +kernel, (Reached.control_stays ((Reached.start default).execute _ [])).1⟩

/-- `this` is always bound where it may stand, whatever a host does with an engine. No evaluation of
`this` has missed its entity: wherever one would, it leaves an incident behind. Every function that
was ever made keeps a frame which belongs to an entity if its code stands in one. In such a frame
`this` is the entity of the frame, in every world to come. -/
theorem Reached.this_bound (reached : e.Reached) :
    Incident.unboundThis ∉ e.world.incidents ∧
      (∀ (levels id : Nat) (position : Position) (frame : FrameId) (env : EnvId) (w : World),
        (∃ entity, (Goal.expr ⟨id, position, .this⟩ frame).run (levels + 1) env w =
          .done (.entity entity) w) ∨
        ∃ stop, (Goal.expr ⟨id, position, .this⟩ frame).run (levels + 1) env w =
          .stopped stop (w.note .unboundThis)) ∧
      (∀ callable ∈ e.world.store.functions, callable.Accepted e.world) ∧
      ∀ (levels id : Nat) (position : Position) (t : Site) (frame : FrameId) (env : EnvId)
        (w : World), (ExprKind.this).Suits t → e.world.Supports t frame → e.world.Later w →
        ∃ entity, w.store.frames.this? frame = some entity ∧
          (Goal.expr ⟨id, position, .this⟩ frame).run (levels + 1) env w =
            .done (.entity entity) w := by
  have accepted := reached.accepted
  refine ⟨?_, fun levels id position frame env w => ?_, accepted.functions,
    fun levels id position t frame env w suits supports later => ?_⟩
  · rw [accepted.clean]
    exact List.not_mem_nil
  · rw [Eval.run_expr]
    cases belongs : w.store.frames.this? frame with
    | some entity => exact .inl ⟨entity, Eval.expression_this belongs⟩
    | none => exact .inr ⟨_, Eval.expression_this_unbound belongs⟩
  · obtain ⟨entity, belongs⟩ := Option.isSome_iff_exists.mp (supports.later later suits)
    rw [Eval.run_expr]
    exact ⟨entity, belongs, Eval.expression_this belongs⟩

/-- A function that is taken out of its entity and called on its own. -/
theorem this_bound_of_pipe :
    Incident.unboundThis ∉ ((start default).execute
      "let o = {v: 10, f: (x) => this.v + x}; 1 >> o.f" []).2.world.incidents :=
  (Reached.this_bound ((Reached.start default).execute _ [])).1

end Engine

end ScriptEngine
