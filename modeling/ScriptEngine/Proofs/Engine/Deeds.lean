import Mathlib.Logic.Function.Basic
import Mathlib.Logic.Relation
import ScriptEngine.Proofs.Engine.Lifecycle
import ScriptEngine.Proofs.Engine.Reach
import ScriptEngine.Proofs.Evaluation.Keeping

/-!
# What hosts do with several engines

A host binds names in several engines, opens builders, makes environments over what was built, of
the engine that built it or of another one, binds names in these, and runs scripts, in any order.

* `Engine.Works`: what is done with an engine that binds no names and makes no environments.
* `Engine.Works.sameBindings`, `Engine.Works.keepsFunctions`: bindings stay as they are, and functions
  stand for what they have stood for.
* `Engines`, `Deed`: several engines, and a record of what was done.
* `Engines.Step`, `Engines.Reached`: one thing that a host does, and whatever comes of many.
-/

namespace ScriptEngine

open Relation (ReflTransGen)

theorem hosted_binding : Accord.binding.Hosted where
  empty := Engine.hosted_accepted.empty
  fresh _ := trivial
  quiet := Engine.hosted_accepted.quiet
  newEnvironment := Engine.hosted_accepted.newEnvironment
  program _ _ _ _ _ := Eval.tame_program_open (d := .binding)
  callHost _ _ _ _ levels _ := (Eval.tame_run_open (d := .binding) levels).callHost

theorem hosted_keeping : Accord.keeping.Hosted where
  empty := Engine.hosted_accepted.empty
  fresh _ := trivial
  quiet accepted quiet promises :=
    ⟨(Engine.hosted_accepted.quiet accepted quiet promises).1,
      fun _ => .of_functions quiet.sameCode.later quiet.functions⟩
  newEnvironment accepted registered linked opened :=
    have added := Engine.hosted_accepted.newEnvironment accepted registered linked opened
    ⟨added.1, fun t => .of_functions (added.2 t) rfl⟩
  program _ _ _ _ _ := Eval.tame_program_open (d := .keeping)
  callHost _ _ _ _ levels _ := (Eval.tame_run_open (d := .keeping) levels).callHost

/-! ## One engine -/

namespace Engine

variable {e e' : Engine}

/-- What is done with an engine that binds no names and makes no environments. -/
inductive Works (e : Engine) : Engine → Prop
  | setBroker (broker : Brokerage) : Works e (e.setBroker broker)
  | setBrokerIn (env : EnvId) (broker : Brokerage) : Works e (e.setBrokerIn env broker)
  | connect (agent : HttpAgent) : Works e (e.connect agent)
  | make {α : Type} {f : Store → α × Store} : (∀ s, (f s).2.functions = s.functions) →
    (∀ s, (f s).2.frames = s.frames) → Works e (e.make f).2
  | runModule (env : EnvId) (name : String) (args : List Value) :
    Works e (e.runModule env name args).2
  | callHost (ref : HostRef) (name : String) (args : List HostValue) :
    Works e (e.callHost ref name args).2

theorem Works.reached (works : e.Works e') (reached : e.Reached) : e'.Reached := by
  cases works with
  | setBroker broker => exact reached.setBroker broker
  | setBrokerIn env broker => exact reached.setBrokerIn env broker
  | connect agent => exact reached.connect agent
  | make functions frames => exact reached.make functions frames
  | runModule env name args => exact reached.runModule env name args
  | callHost ref name args => exact reached.callHost ref name args

theorem Works.bindings (works : e.Works e') : e'.bindings = e.bindings := by
  cases works with
  | runModule env name args =>
    rw [evaluate_of_runModule]
    rfl
  | _ => rfl

/-- Nothing is bound in any environment. -/
theorem Works.sameBindings (works : e.Works e') (reached : e.Reached) :
    e.world.SameBindings e'.world := by
  have keeps := reached.keeps hosted_binding
  cases works with
  | setBroker _ | connect _ => exact .of_environments rfl
  | setBrokerIn env broker => exact .modifyEnvironment (fun _ => rfl) fun _ => rfl
  | make functions frames => exact .of_environments rfl
  | runModule env name args =>
    rw [evaluate_of_runModule]
    exact (keeps.passes_evaluate fun t => hosted_binding.program t env name args).sameBindings
  | callHost ref name args =>
    exact (keeps.passes_evaluate fun t =>
      hosted_binding.callHost t ref name args Eval.levels).sameBindings

/-- Whatever scripts have kept of functions, these are still the same. -/
theorem Works.keepsFunctions (works : e.Works e') (reached : e.Reached) :
    e.world.KeepsFunctions e'.world := by
  have keeps := reached.keeps hosted_keeping
  cases works with
  | setBroker _ | setBrokerIn _ _ | connect _ => exact .of_functions rfl
  | make functions frames => exact .of_functions (functions _)
  | runModule env name args =>
    rw [evaluate_of_runModule]
    exact (keeps.passes_evaluate fun t => hosted_keeping.program t env name args).keepsFunctions
  | callHost ref name args =>
    exact (keeps.passes_evaluate fun t =>
      hosted_keeping.callHost t ref name args Eval.levels).keepsFunctions

end Engine

/-! ## One builder -/

namespace ScriptBuilder

theorem forest_register (b : ScriptBuilder) (name source : String) :
    (b.register name source).2.forest = b.forest := by
  unfold register
  split
  · rfl
  · split <;> rfl

/-- What is left to be linked when a module has been taken, or not. -/
theorem exists_of_pending_register {b : ScriptBuilder} {name source : String} {c' : ForestBuilder}
    (found : (b.register name source).2.pending = some c') :
    ∃ c, b.pending = some c ∧ c'.bindings = c.bindings ∧ (c.Registered → c'.Registered) := by
  obtain ⟨pending, forest, last, attempts⟩ := b
  cases pending with
  | none => cases found
  | some c =>
    refine ⟨c, rfl, ?_⟩
    unfold register at found
    dsimp only at found
    split at found
    · next ran =>
      obtain rfl := Option.some.inj found
      have added := ForestBuilder.after_eq_ok.mpr ran
      obtain ⟨m, -, added'⟩ := ForestBuilder.addSource_eq_ok added
      obtain ⟨-, analysis, -, rfl⟩ := ForestBuilder.add_eq_ok added'
      exact ⟨rfl, fun registered => registered.addSource added⟩
    · next error _ ran =>
      obtain rfl := Option.some.inj found
      have same : (Registration.run c (.source name source)).2 = c :=
        ForestBuilder.unchanged_of_error (congrArg Prod.fst ran)
      obtain rfl := (congrArg Prod.snd ran).symm.trans same
      exact ⟨rfl, id⟩

/-- Linking changes nothing, or it takes what was to be linked. -/
theorem link_cases (b : ScriptBuilder) :
    b.link.2 = b ∨ ∃ c, b.pending = some c ∧ b.link.2.pending = none ∧
      b.link.2.forest = c.finish.toOption := by
  rcases b with ⟨_ | c, _ | forest, last, attempts⟩
  · exact .inl rfl
  · exact .inl rfl
  · refine .inr ⟨c, rfl, ?_⟩
    rw [link_collecting]
    cases c.finish <;> exact ⟨rfl, rfl⟩
  · exact .inl rfl

end ScriptBuilder

/-! ## Several engines -/

/-- An environment of one of several engines. -/
@[ext]
structure Place where
  engine : Nat
  env : EnvId
deriving DecidableEq

/-- What is done with several engines, as far as names are concerned. -/
inductive Deed
  /-- A name is bound in an engine. -/
  | granted (engine : Nat) (name : String) (binding : Binding)
  /-- An engine opens a builder, which gets a number. -/
  | opened (builder engine : Nat)
  /-- An environment is made over a forest of that builder. -/
  | made (place : Place) (builder : Nat)
  /-- A name is bound in an environment. -/
  | grantedIn (place : Place) (name : String) (binding : Binding)
  | other

/-- Engines, each with a number, the builders that they have opened, in this order, and a record of
what was done, the latest first. -/
structure Engines where
  engine : Nat → Engine
  builders : List ScriptBuilder
  log : List Deed

namespace Engines

variable {s s' : Engines} {i k : Nat} {name : String} {place : Place}

/-- Engines that nothing was done with. -/
def start (options : Nat → Options) : Engines := ⟨fun i => .start (options i), [], []⟩

/-- One of the environments. -/
def environment (s : Engines) (place : Place) : Environment :=
  (s.engine place.engine).world.environment place.env

/-- How many environments an engine has. -/
def size (s : Engines) (i : Nat) : Nat := (s.engine i).world.environments.size

/-- Something is done with one engine. -/
def withEngine (s : Engines) (i : Nat) (e : Engine) (deed : Deed) : Engines :=
  ⟨Function.update s.engine i e, s.builders, deed :: s.log⟩

/-- A builder is opened, with the bindings that an engine has. -/
def withOpening (s : Engines) (i : Nat) : Engines :=
  ⟨s.engine, s.builders ++ [.start (s.engine i)], .opened s.builders.length i :: s.log⟩

/-- Something is done with one builder. -/
def withBuilder (s : Engines) (k : Nat) (b : ScriptBuilder) : Engines :=
  ⟨s.engine, s.builders.set k b, .other :: s.log⟩

/-- An environment is made over a forest of a builder. -/
def withEnvironment (s : Engines) (i : Nat) (forest : Forest) (entry : Option String) (k : Nat) :
    Engines :=
  let (env, e) := (s.engine i).newEnvironment forest entry
  s.withEngine i e (.made ⟨i, env⟩ k)

/-- A forest of a builder is at hand, in the builder itself or in an environment. -/
inductive Gives (s : Engines) (k : Nat) : Forest → Prop
  | linked {b : ScriptBuilder} {forest : Forest} :
    s.builders[k]? = some b → b.forest = some forest → Gives s k forest
  | shared {place : Place} : .made place k ∈ s.log → Gives s k (s.environment place).forest

/-- What a host does with several engines. To bind a class is to bind a name
(`Engine.eq_grant_of_grantClass`), and to load a source is to open a builder, to load and link a module
in it and to make an environment (`Engine.exists_of_load`). -/
inductive Step (s : Engines) : Engines → Prop
  | grant (i : Nat) (name : String) (binding : Binding) :
    Step s (s.withEngine i ((s.engine i).grant name binding) (.granted i name binding))
  | grantIn (place : Place) (name : String) (binding : Binding) :
    place.env < s.size place.engine →
    Step s (s.withEngine place.engine ((s.engine place.engine).grantIn place.env name binding)
      (.grantedIn place name binding))
  | work (i : Nat) {e : Engine} : (s.engine i).Works e → Step s (s.withEngine i e .other)
  | opening (i : Nat) : Step s (s.withOpening i)
  | load {k : Nat} {b : ScriptBuilder} (name source : String) :
    s.builders[k]? = some b → Step s (s.withBuilder k (b.register name source).2)
  | link {k : Nat} {b : ScriptBuilder} :
    s.builders[k]? = some b → Step s (s.withBuilder k b.link.2)
  | environment (i : Nat) {k : Nat} {forest : Forest} (entry : Option String) : s.Gives k forest →
    Step s (s.withEnvironment i forest entry k)

/-- What a host comes to with several engines that have these options. -/
def Reached (options : Nat → Options) (s : Engines) : Prop := ReflTransGen Step (start options) s

/-! ## One engine among several -/

theorem engine_withEngine (e : Engine) (deed : Deed) (j : Nat) :
    (s.withEngine i e deed).engine j = if j = i then e else s.engine j :=
  Function.update_apply ..

theorem environment_withEngine (e : Engine) (deed : Deed) (place : Place) :
    (s.withEngine i e deed).environment place =
      if place.engine = i then e.world.environment place.env else s.environment place := by
  rw [environment, engine_withEngine]
  split <;> rfl

theorem size_withEngine (e : Engine) (deed : Deed) (j : Nat) :
    (s.withEngine i e deed).size j = if j = i then e.world.environments.size else s.size j := by
  rw [size, engine_withEngine]
  split <;> rfl

end Engines

end ScriptEngine
