import ScriptEngine.Engine.Basic
import ScriptEngine.Proofs.Evaluation.Plain
import ScriptEngine.Proofs.Forest.Registration

/-!
# Script builders link once

A script builder takes modules until it is linked, for its forest or for an environment. From then
on it gives this forest for ever, or fails for ever if the modules did not fit together.

* `ScriptBuilder.Call`, `ScriptBuilder.Call.run`: what is asked of a builder.
* `ScriptBuilder.Reached`: what calls answer and leave, whatever they are.
* `ScriptBuilder.Stage`: the builder is open, linked, or spent, as the answers so far say.
* `ScriptBuilder.Reached.links_once`: what the next call can answer.
-/

namespace ScriptEngine.ScriptBuilder

/-- What is asked of a builder. The engine of an environment is as it is then. -/
inductive Call
  | load (name source : String)
  | done
  | newEnvironment (e : Engine)

/-- What is given. -/
inductive Answer
  | loaded
  | forest (forest : Forest)
  | environment (environment : Environment)

/-- The answer to a call, and the builder that it leaves. -/
def Call.run (b : ScriptBuilder) : Call → Except ScriptError Answer × ScriptBuilder
  | .load name source =>
    let (result, b) := b.register name source
    (result.map fun _ => .loaded, b)
  | .done =>
    let (result, b) := b.link
    (result.map .forest, b)
  | .newEnvironment e =>
    let (result, b, e) := b.newEnvironment e
    (result.map fun env => .environment (e.world.environment env), b)

/-- A call with its answer. -/
structure Exchange where
  call : Call
  answer : Except ScriptError Answer

namespace Exchange

/-- The name of the module that is loaded. -/
def loaded? : Exchange → Option String
  | ⟨.load name _, .ok _⟩ => some name
  | _ => none

/-- The forest that is given or used, or why there is none, if one is asked for. -/
def linked? : Exchange → Option (Except ScriptError Forest)
  | ⟨.load .., _⟩ | ⟨_, .ok .loaded⟩ => none
  | ⟨_, .ok (.forest forest)⟩ => some (.ok forest)
  | ⟨_, .ok (.environment environment)⟩ => some (.ok environment.forest)
  | ⟨_, .error error⟩ => some (.error error)

end Exchange

/-- What is left by calls, one after another, of a builder that an engine has made, with what they
have answered, the latest first. -/
inductive Reached (e : Engine) : List Exchange → ScriptBuilder → Prop
  | start : Reached e [] (.start e)
  | call {log : List Exchange} {b : ScriptBuilder} (call : Call) : Reached e log b →
    Reached e (⟨call, (call.run b).1⟩ :: log) (call.run b).2

/-- The name of the module that was loaded last. -/
def lastLoaded (log : List Exchange) : Option String := log.findSome? (·.loaded?)

variable {b : ScriptBuilder} {log : List Exchange} {e : Engine}

/-! ## Single calls -/

theorem link_collecting (builder : ForestBuilder) (last : Option String)
    (attempts : List (Except LinkError Forest)) :
    link ⟨some builder, none, last, attempts⟩ =
      match builder.finish with
      | .ok forest => (.ok forest, ⟨none, some forest, last, .ok forest :: attempts⟩)
      | .error error =>
        (.error (.load (.link error)), ⟨none, none, last, .error error :: attempts⟩) := by
  unfold link
  dsimp only
  cases builder.finish <;> rfl

theorem last_link (b : ScriptBuilder) : b.link.2.last = b.last := by
  obtain ⟨pending, forest, last, attempts⟩ := b
  cases forest with
  | some forest => rfl
  | none =>
    cases pending with
    | none => rfl
    | some builder =>
      rw [link_collecting]
      cases builder.finish <;> rfl

/-- An environment is made over the forest that the builder gives, and runs the module that was
loaded last. -/
theorem run_newEnvironment (b : ScriptBuilder) (e : Engine) :
    (Call.newEnvironment e).run b =
      (b.link.1.map fun forest =>
        .environment ⟨forest, b.last, .empty, e.broker, e.agent, e.options, [], none⟩, b.link.2) := by
  rw [Call.run, newEnvironment, ← last_link b]
  obtain ⟨result, b'⟩ := b.link
  cases result with
  | error error => rfl
  | ok forest =>
    have made := (e.world.environment_newEnvironment
      ⟨forest, b'.last, .empty, e.broker, e.agent, e.options, [], none⟩ e.world.environments.size).trans
      (if_pos rfl)
    exact Prod.ext (congrArg (Except.ok ∘ Answer.environment) made) rfl

/-- A module that cannot be loaded changes nothing. -/
theorem unchanged_of_register_error {name source : String} {error : ScriptError}
    (failed : (b.register name source).1 = .error error) : (b.register name source).2 = b := by
  obtain ⟨pending, forest, last, attempts⟩ := b
  cases pending with
  | none => rfl
  | some builder =>
    have same (error : LoadError)
        (failed : (Registration.run builder (.source name source)).1 = .error error) :
        (Registration.run builder (.source name source)).2 = builder :=
      ForestBuilder.unchanged_of_error failed
    simp only [Registration.run] at same
    unfold register at failed ⊢
    dsimp only at failed ⊢
    split at failed
    · cases failed
    · next error' builder' ran =>
      rw [ran] at same
      obtain rfl : builder' = builder := same error' rfl
      rfl

/-! ## Stages -/

/-- How far a builder is. It takes modules; or it has been linked, and the forest is what was given
whenever one was asked for; or it has not been linked although it was tried, and none was given. -/
inductive Stage (log : List Exchange) : ScriptBuilder → Prop
  | collecting {builder : ForestBuilder} :
    (∀ name, lastLoaded log = some name → name ∈ builder.names) →
    (∀ x ∈ log, x.linked? = none) → Stage log ⟨some builder, none, lastLoaded log, []⟩
  | linked {forest : Forest} :
    (∀ name, lastLoaded log = some name → ∃ m, forest.module? name = some m) →
    (∀ x ∈ log, ∀ result, x.linked? = some result → result = .ok forest) →
    Stage log ⟨none, some forest, lastLoaded log, [.ok forest]⟩
  | spent {error : LinkError} :
    (∀ x ∈ log, ∀ forest, x.linked? ≠ some (.ok forest)) →
    Stage log ⟨none, none, lastLoaded log, [.error error]⟩

theorem lastLoaded_cons_of_none {x : Exchange} (none : x.loaded? = none) :
    lastLoaded (x :: log) = lastLoaded log := by
  rw [lastLoaded, List.findSome?_cons, none]
  rfl

/-- A call that neither loads a module nor asks for a forest. -/
theorem Stage.skip (h : Stage log b) {x : Exchange} (loaded : x.loaded? = none)
    (linked : x.linked? = none) : Stage (x :: log) b := by
  cases h with
  | collecting known quiet =>
    rw [← lastLoaded_cons_of_none loaded] at known ⊢
    exact .collecting known (List.forall_mem_cons.mpr ⟨linked, quiet⟩)
  | linked known given =>
    rw [← lastLoaded_cons_of_none loaded] at known ⊢
    refine .linked known (List.forall_mem_cons.mpr ⟨fun result some => ?_, given⟩)
    cases linked.symm.trans some
  | spent none =>
    rw [← lastLoaded_cons_of_none loaded]
    refine .spent (List.forall_mem_cons.mpr ⟨fun forest some => ?_, none⟩)
    cases linked.symm.trans some

/-- A call that loads a module, or fails to. -/
theorem Stage.load (h : Stage log b) (name source : String) :
    Stage (⟨.load name source, ((Call.load name source).run b).1⟩ :: log)
      ((Call.load name source).run b).2 := by
  change Stage (⟨.load name source, (b.register name source).1.map fun _ => .loaded⟩ :: log)
    (b.register name source).2
  cases answer : (b.register name source).1 with
  | error error =>
    rw [unchanged_of_register_error answer]
    exact h.skip rfl rfl
  | ok =>
    cases h with
    | linked | spent => cases answer
    | @collecting builder known quiet =>
      unfold register at answer ⊢
      dsimp only at answer ⊢
      split at answer
      · next builder' ran =>
        have done : (Registration.run builder (.source name source)).1 = .ok () :=
          congrArg Prod.fst ran
        obtain ⟨-, m, made, pushed⟩ := ForestBuilder.eq_push_of_ok done
        obtain rfl : builder' = builder.push m := (congrArg Prod.snd ran).symm.trans pushed
        refine .collecting (fun other last => ?_) (List.forall_mem_cons.mpr ⟨rfl, quiet⟩)
        obtain rfl : name = other := Option.some.inj last
        have named : m.name = name := Registration.name_of_made made
        rw [ForestBuilder.names_push, named]
        exact List.mem_append_right _ List.mem_cons_self
      · cases answer

/-- A call that asks for a forest. -/
theorem Stage.link (h : Stage log b) {x : Exchange} (loaded : x.loaded? = none)
    (linked : x.linked? = some b.link.1) : Stage (x :: log) b.link.2 := by
  cases h with
  | @collecting builder known quiet =>
    rw [← lastLoaded_cons_of_none loaded] at known ⊢
    rw [link_collecting] at linked ⊢
    cases finished : builder.finish with
    | ok forest =>
      rw [finished] at linked
      refine .linked (fun name last => ?_) (List.forall_mem_cons.mpr ⟨fun result some => ?_, ?_⟩)
      · exact ForestBuilder.exists_module? finished (known name last)
      · exact (Option.some.inj (linked.symm.trans some)).symm
      · intro y mem result some
        cases (quiet y mem).symm.trans some
    | error error =>
      rw [finished] at linked
      refine .spent (List.forall_mem_cons.mpr ⟨fun forest some => ?_, ?_⟩)
      · cases linked.symm.trans some
      · intro y mem forest some
        cases (quiet y mem).symm.trans some
  | linked known given =>
    rw [← lastLoaded_cons_of_none loaded] at known ⊢
    refine .linked known (List.forall_mem_cons.mpr ⟨fun result some => ?_, given⟩)
    exact (Option.some.inj (linked.symm.trans some)).symm
  | spent none =>
    rw [← lastLoaded_cons_of_none loaded]
    refine .spent (List.forall_mem_cons.mpr ⟨fun forest some => ?_, none⟩)
    cases linked.symm.trans some

/-- The module that was loaded last is in the forest that is given. -/
theorem Stage.exists_module? (h : Stage log b) {forest : Forest} (given : b.link.1 = .ok forest)
    {name : String} (last : lastLoaded log = some name) : ∃ m, forest.module? name = some m := by
  cases h with
  | @collecting builder known quiet =>
    rw [link_collecting] at given
    cases finished : builder.finish with
    | ok _ =>
      rw [finished] at given
      obtain rfl := Except.ok.inj given
      exact ForestBuilder.exists_module? finished (known name last)
    | error error =>
      rw [finished] at given
      cases given
  | linked known _ =>
    obtain rfl := Except.ok.inj given
    exact known name last
  | spent => cases given

theorem Stage.call (h : Stage log b) (call : Call) :
    Stage (⟨call, (call.run b).1⟩ :: log) (call.run b).2 := by
  cases call with
  | load name source => exact h.load name source
  | done =>
    refine h.link rfl ?_
    change Exchange.linked? ⟨.done, b.link.1.map .forest⟩ = some b.link.1
    cases b.link.1 <;> rfl
  | newEnvironment e =>
    rw [run_newEnvironment]
    refine h.link rfl ?_
    cases b.link.1 <;> rfl

theorem Stage.last_eq (h : Stage log b) : b.last = lastLoaded log := by
  cases h <;> rfl

theorem Reached.stage (h : Reached e log b) : Stage log b := by
  induction h with
  | start => exact .collecting nofun (List.forall_mem_nil _)
  | call call _ ih => exact ih.call call

/-! ## Every call -/

/-- A builder links once. Linking is tried once at most. After a call that gives or uses a forest,
asking for it gives this forest again, environments are made over it, and no module can be loaded;
after one that finds no forest every call fails. Both fail with the panic of an operation that makes
no sense, and change nothing. An environment runs the module that was loaded last, which is one of
its forest. -/
theorem Reached.links_once (h : Reached e log b) :
    b.attempts.length ≤ 1 ∧
    (∀ forest, (∃ x ∈ log, x.linked? = some (.ok forest)) →
      Call.done.run b = (.ok (.forest forest), b) ∧
      (∀ e', ∃ environment, (Call.newEnvironment e').run b = (.ok (.environment environment), b) ∧
        environment.forest = forest) ∧
      ∀ name source, ∃ cause : Panic, cause.code.value = 115 ∧
        (Call.load name source).run b = (.error (.panic cause), b)) ∧
    ((∃ x ∈ log, ∃ error, x.linked? = some (.error error)) →
      ∀ call : Call, ∃ cause : Panic, cause.code.value = 115 ∧
        call.run b = (.error (.panic cause), b)) ∧
    ∀ e' environment b', (Call.newEnvironment e').run b = (.ok (.environment environment), b') →
      environment.entry = lastLoaded log ∧ ∀ name, lastLoaded log = some name →
        ∃ m, environment.forest.module? name = some m := by
  have stage := h.stage
  refine ⟨?_, ?_, ?_, ?_⟩
  · cases stage <;> simp
  · rintro forest ⟨x, mem, given⟩
    cases stage with
    | collecting _ quiet => cases (quiet x mem).symm.trans given
    | spent none => exact absurd given (none x mem forest)
    | linked _ same =>
      obtain rfl := Except.ok.inj (same x mem _ given)
      exact ⟨rfl, fun e' => ⟨_, run_newEnvironment _ e', rfl⟩, fun name source => ⟨_, rfl, rfl⟩⟩
  · rintro ⟨x, mem, error, given⟩ call
    cases stage with
    | collecting _ quiet => cases (quiet x mem).symm.trans given
    | linked _ same => cases same x mem _ given
    | spent =>
      cases call with
      | load name source => exact ⟨_, rfl, rfl⟩
      | done => exact ⟨_, rfl, rfl⟩
      | newEnvironment e' => exact ⟨_, rfl, run_newEnvironment _ e'⟩
  · intro e' environment b' made
    rw [run_newEnvironment] at made
    cases given : b.link.1 with
    | error error =>
      rw [given] at made
      cases made
    | ok forest =>
      rw [given] at made
      obtain rfl := Answer.environment.inj (Except.ok.inj (congrArg Prod.fst made))
      exact ⟨stage.last_eq, fun name last => stage.exists_module? given last⟩

/-- A module, one that cannot be read, and the forest. -/
def linkingCalls : List Call := [.load "a" "let x = 1;", .load "b" "let x = ;", .done]

theorem links_once_of_linkingCalls : ∃ log b forest, Reached (.start .standard) log b ∧
    log.reverse.map (·.call) = linkingCalls ∧ lastLoaded log = some "a" ∧ b.attempts.length ≤ 1 ∧
      Call.done.run b = (.ok (.forest forest), b) ∧
      ∃ environment, (Call.newEnvironment (.start .standard)).run b =
        (.ok (.environment environment), b) ∧ environment.entry = some "a" ∧
          ∃ m, environment.forest.module? "a" = some m := by
  let b₁ := ((Call.load "a" "let x = 1;").run (.start (.start .standard))).2
  let b₂ := ((Call.load "b" "let x = ;").run b₁).2
  have reached : Reached (.start .standard) _ (Call.done.run b₂).2 :=
    .call .done (.call (.load "b" _) (.call (.load "a" _) .start))
  have last := reached.stage.last_eq.symm.trans (show b₂.link.2.last = some "a" by decide +kernel)
  have linked : b₂.link.1.toBool = true := by decide +kernel
  cases given : b₂.link.1 with
  | error error =>
    rw [given] at linked
    cases linked
  | ok forest =>
    obtain ⟨once, afterwards, -, environments⟩ := reached.links_once
    have answered : Exchange.linked? ⟨.done, (Call.done.run b₂).1⟩ = some (.ok forest) := by
      change Exchange.linked? ⟨.done, b₂.link.1.map .forest⟩ = _
      rw [given]
      rfl
    obtain ⟨again, makes, -⟩ := afterwards forest ⟨_, List.mem_cons_self, answered⟩
    obtain ⟨environment, made, -⟩ := makes (.start .standard)
    obtain ⟨entry, there⟩ := environments _ _ _ made
    exact ⟨_, _, forest, reached, rfl, last, once, again, environment, made, entry.trans last,
      there "a" last⟩

end ScriptEngine.ScriptBuilder
