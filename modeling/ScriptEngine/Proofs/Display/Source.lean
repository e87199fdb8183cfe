import ScriptEngine.Engine.Basic
import ScriptEngine.Proofs.Display.Loading
import ScriptEngine.Proofs.Display.Running
import ScriptEngine.Toml.Options

/-!
# What data shows is its source

An engine that runs the text of a value gives the value back, if it is data.

* `Engine.Idle`: an engine in which nothing runs.
* `Engine.execute_display`: the text of a value is a program that gives an equal value.
-/

namespace ScriptEngine

/-- Options that pass the check let a task run. -/
theorem Options.workerThreads_pos {o : Options} (valid : o.validate = .ok o) :
    0 < o.workerThreads := by
  unfold Options.validate at valid
  split at valid
  · cases valid
  · split at valid
    · cases valid
    · next some => exact Nat.pos_of_ne_zero some

namespace Engine

/-- Nothing runs in an engine, as in a fresh one. -/
structure Idle (e : Engine) : Prop where
  tasks : e.pool.tasks = []
  jobs : e.pool.jobs = []
  queue : e.world.queue = []

theorem idle_start (options : Options) : (start options).Idle :=
  ⟨rfl, rfl, rfl⟩

theorem Idle.make {α : Type} {e : Engine} (idle : e.Idle) (f : Store → α × Store) :
    (e.make f).2.Idle :=
  ⟨idle.tasks, idle.jobs, idle.queue⟩

section

variable {e e' : Engine} {env : EnvId} {forest : Forest} {entry : Option String}

theorem Idle.newEnvironment (idle : e.Idle) (made : e.newEnvironment forest entry = (env, e')) :
    e'.Idle := by
  obtain ⟨rfl, rfl⟩ := Prod.mk.inj made
  exact ⟨idle.tasks, idle.jobs, idle.queue⟩

/-- A new environment changes no cell. -/
theorem keeps_of_newEnvironment (made : e.newEnvironment forest entry = (env, e')) :
    e'.options = e.options ∧ e.store.Keeps e'.store := by
  obtain ⟨rfl, rfl⟩ := Prod.mk.inj made
  exact ⟨rfl, Store.keeps_of_same rfl rfl⟩

theorem environment_of_newEnvironment (made : e.newEnvironment forest entry = (env, e')) :
    e'.world.environment env = ⟨forest, entry, .empty, e.broker, e.agent, e.options, [], none⟩ := by
  obtain ⟨rfl, rfl⟩ := Prod.mk.inj made
  simp [World.environment]

/-- A module that runs to its end gives its value. -/
theorem runModule_of_run {name : String} {args : List Value} {r : Value} {pool : Pool} {w : World}
    (ran : e.pool.run e.options.workerThreads env (Eval.program name args) e.world =
      (.ok (.ok r), pool, w)) :
    e.runModule env name args = (.ok r, { e with world := w, pool }) := by
  rw [runModule, evaluate, ran]
  rfl

end

variable {e : Engine}

/-- The text of a value that is data, nested at most eight levels deep and no text itself, is a
program: whatever its arguments are, it runs to its end and gives a value equal to that one. -/
theorem execute_display (idle : e.Idle) (valid : e.options.validate = .ok e.options) {d : Datum}
    {v : Value} (holds : e.store.Holds d v) (regular : d.Regular) (height : d.height ≤ 8)
    (notText : d.isText = false) (finite : d.Numbers Decimal.IsFinite)
    (readBack : d.Numbers Decimal.ReadsBack) (args : List Value) :
    ∃ r e', e.execute (e.store.display v) args = (.ok r, e') ∧ e'.store.Holds d v ∧
      BinaryOp.equal.apply e'.store v r = .ok (.bool true) := by
  have written := Store.toList_display holds height notText
  obtain ⟨m, s, expr, loaded, named, single, same, ofDatum⟩ :=
    Datum.forestOf_text written regular height finite e
  obtain ⟨env, e₁, made⟩ : ∃ env e₁,
      e.newEnvironment ⟨[m], e.bindings⟩ (some mainModule) = (env, e₁) := ⟨_, _, rfl⟩
  have idle₁ := idle.newEnvironment made
  have environment := environment_of_newEnvironment made
  obtain ⟨options, kept⟩ := keeps_of_newEnvironment made
  have present : (e₁.world.environment env).forest.module? mainModule = some m := by
    rw [environment]
    simp [Forest.module?, named]
  obtain ⟨r, pool, w, ran, reread, kept', cells⟩ := Pool.run_program args idle₁.tasks
    idle₁.jobs idle₁.queue (options ▸ Options.workerThreads_pos valid) present single same ofDatum
    regular height
  have still : w.store.Holds d v := holds.keeps (kept.trans kept')
  refine ⟨r, { e₁ with world := w, pool }, ?_, still, ?_⟩
  · have load : e.load (e.store.display v) = .ok (env, e₁) := by
      rw [Engine.load, loaded]
      exact congrArg Except.ok made
    rw [execute, load]
    dsimp only
    rw [run, environment]
    exact runModule_of_run ran
  · have equal : w.store.equals v r = true :=
      Store.sameFrom_reread still reread readBack regular (Nat.le_succ_of_le cells)
    exact congrArg (fun same => Except.ok (Value.bool same)) equal

/-- Data of every kind but numbers, a quote among it. -/
def sample : Datum :=
  .array [.tuple [.null, .bool true], .string "a\x22b", .map [], .map [("k", .unit)]]

/-- A fresh engine whose host has made the sample. -/
def sampleEngine : Engine :=
  { start .standard with
    world := { World.empty with
      store := { Store.empty with
        arrays := #[#[.tuple [.null, .bool true], .string "a\x22b", .map 0, .map 1]]
        maps := #[.empty, ⟨⟨#[("k", .unit)]⟩, by decide⟩] } } }

theorem execute_display_sample : sampleEngine.Idle ∧ sampleEngine.store.Holds sample (.array 0) ∧
    ∃ r e', sampleEngine.execute (sampleEngine.store.display (.array 0)) [] = (.ok r, e') ∧
      e'.store.Holds sample (.array 0) ∧
        BinaryOp.equal.apply e'.store (.array 0) r = .ok (.bool true) := by
  have idle : sampleEngine.Idle :=
    (idle_start .standard).make fun _ => ((), sampleEngine.store)
  have holds : sampleEngine.store.Holds sample (.array 0) := by
    refine ⟨0, rfl, by decide, _, _, rfl, ⟨_, rfl, _, _, rfl, rfl, _, _, rfl, rfl, rfl⟩, _, _, rfl,
      rfl, _, _, rfl, ⟨0, rfl, by decide, rfl⟩, _, _, rfl, ⟨1, rfl, by decide, _, _, rfl, rfl, rfl⟩,
      rfl⟩
  have regular : sample.Regular := by
    simp [sample, Datum.Regular, Datum.RegularAll, Datum.RegularEntries]
  refine ⟨idle, holds, execute_display idle rfl holds regular (by decide) rfl ?_ ?_ []⟩
  · simp [sample, Datum.Numbers, Datum.NumbersOfAll, Datum.NumbersOfEntries]
  · simp [sample, Datum.Numbers, Datum.NumbersOfAll, Datum.NumbersOfEntries]

end Engine

end ScriptEngine
