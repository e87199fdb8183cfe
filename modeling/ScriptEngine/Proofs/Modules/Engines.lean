import Mathlib.Logic.Relation
import ScriptEngine.Proofs.Engine.Reach
import ScriptEngine.Proofs.Evaluation.Rounds
import ScriptEngine.Proofs.Forest.Linking
import ScriptEngine.Proofs.Modules.Importing

/-!
# The modules of engines

A task that is new has nothing to do with the modules that others run. Whatever job it is started
for, it keeps to the discipline of modules, and all tasks do so at once.

Whatever a host does with an engine, its worlds are modular. What is said of modules and imports there
is read off that.

* `tame_programTask`: a program runs in a frame of its own.
* `Accord.modules`: the disciplines of all tasks agree.
* `ForestBuilder.Registered.loaded`: the forests that come of builders.
* `World.Modular.newEnvironment`: an environment over such a forest.
* `Engine.Reached.modular`: the invariant.
* `World.RunsOnce`, `World.ImportsLive`: what it says of modules and imports.
* `Engine.runUnder`, `Engine.runAmong`: running one of some modules.
-/

namespace ScriptEngine

/-! ## Tasks side by side -/

section

variable {t : TaskId} {env : EnvId} {base w w' : World}

namespace Eval

variable {m : Machine}

/-- A program runs in a frame of its own. It may import what its module imports, since its task runs no
module for others yet. -/
theorem tame_programTask (top : m.TopLevel t) {body : Block} {args : List Value}
    (modular : (Task.program body args).Modular base env) (idle : base.standing t env = .outside) :
    (task m (.program body args)).Tame (.modules t ⟨none, none⟩) env base false false := by
  intro w sound later
  obtain ⟨found, mem, rfl⟩ := modular.later later.continues
  have loaded := sound.1.forests env
  have fits := loaded.topLevel found mem
  have may : ∀ s ∈ found.tree.body.statements, ∀ items source, s.import? = some (items, source) →
      w.MayImport t env items source := by
    intro s mem' items source imports
    refine ⟨(loaded.offers mem mem' imports).1, fun owner => ?_⟩
    rw [later.standing env nofun, idle] at owner
    cases owner
  have run : task m (.program found.tree.body args) env w = (moduleFrame args env w).bind
      fun frame w => boundary (m.run (.block found.tree.body frame)) env w := bind_eq ..
  rw [run]
  refine (runs_moduleFrame fits.distinct may w sound rfl).through (Discipline.weaker_modules ..)
    fun frame w₁ sound₁ stays₁ ⟨fresh, fills⟩ => ?_
  have ran : (boundary (m.run (.block found.tree.body frame))).Runs
      (.modules t ⟨some frame, none⟩) env (World.Fills t env frame found.tree.body _)
      (fun _ _ => True) (Signal.Within false false) :=
    ((top.block fits).imp (fun _ fills => fills) (fun _ _ _ => trivial) fun _ within =>
      within).boundary
  refine ((ran w₁ sound₁ fills).weaken (Discipline.weaker_modules ..)
    fun w₂ stays₂ => ?_).imp (fun _ _ _ => trivial) fun _ within => within
  exact ((stays₁.slacken nofun nofun).trans stays₂).unopened fresh

/-- Only a panic comes out of a task whose code has no imports but at the top level. -/
theorem tame_task_modules (tame : m.Tame (.modules t ⟨none, none⟩)) (top : m.TopLevel t)
    {task : Task} (modular : task.Modular base env) (idle : base.standing t env = .outside) :
    (Eval.task m task).Tame (.modules t ⟨none, none⟩) env base false false := by
  cases task with
  | block body frame => exact tame_task tame (Discipline.blockFits_modules.mpr modular)
  | apply callback args => exact tame.callAlone
  | method entity name args => exact tame.callMethod
  | program body args => exact tame_programTask top modular idle

/-- Running a module of an environment as a program. -/
theorem tame_program_modules {name : String} {args : List Value} :
    (program name args).Tame (.modules t ⟨none, none⟩) env base false false :=
  have lasts {w w' : World} {body : Block}
      (later : (Discipline.modules t ⟨none, none⟩).later w w')
      (modular : (Task.program body args).Modular w env) :
      (Task.program body args).Modular w' env := modular.later later.continues
  tame_program @lasts (fun _ m mem => ⟨m, mem, rfl⟩)
    fun sound modular => Discipline.leads_enqueue_modules sound modular

end Eval

/-- Each task minds its own modules. -/
def Accord.modules : Accord where
  discipline t := .modules t ⟨none, none⟩
  rests := World.Modular
  rely := World.Relies
  accepts w job := job.task.Modular w job.env
  fresh w t := ∀ env, w.standing t env = .outside
  rests_iff := .rfl
  rely_refl := .refl
  rely_trans := .trans
  yields apart yields := yields _ apart
  resumes := fun {_ p w w'} relies ready => ⟨relies, fun lock waits => by
    rw [Paused.isReady, waits] at ready
    exact ready⟩
  turn turn clock modular :=
    (World.Steady.withTurn _ turn clock).modular_of_same modular rfl rfl
  rely_turn t w turn clock := World.Relies.of_same rfl rfl rfl rfl
  queue := fun {w} modular => by
    have steady : w.Steady { w with queue := [] } :=
      .of_frames rfl (Nat.le_refl _) (fun _ => id) rfl (fun _ => rfl) (fun _ => rfl) (fun _ => rfl) rfl
    have functions := fun callable mem =>
      (modular.functions callable mem).later steady.continues.later
    exact ⟨steady.modular modular functions nofun, modular.queue⟩
  rely_queue t w := World.Relies.of_same rfl rfl rfl rfl
  accepts_rely relies modular := modular.later relies.continues
  fresh_rely relies idle env := ((relies.standing env).eq (by rw [idle]; exact nofun)).trans (idle env)
  loses := fun {w} task lock modular => by
    obtain ⟨env, name⟩ := lock
    cases held : w.locks.isHeldBy ⟨env, name⟩ task with
    | false =>
      have same : w.lose task ⟨env, name⟩ = w := if_neg (by simp [held])
      exact ⟨same.symm ▸ modular, fun other _ => same.symm ▸ .refl other w⟩
    | true =>
      by_cases shared : name = .modules
      · subst shared
        have shifts := World.shifts_lose modular held
        exact ⟨shifts.modular, shifts.relies⟩
      · have steady := World.Steady.lose held shared
        exact ⟨steady.modular_of_same modular (by rw [World.lose_of_ne held shared])
          (by rw [World.lose_of_ne held shared]), fun _ _ => steady.relies modular⟩
  sound := fun {t w} env modular idle task => by
    have steady : w.Steady (w.newInterpreter env) := .withCalls w _ _
    have sound : (Discipline.modules t ⟨none, none⟩).sound w :=
      ⟨modular, task, fun env => by rw [idle]; exact nofun⟩
    have leads := steady.leads sound (steady.modular_of_same modular rfl rfl) rfl
    exact ⟨leads.sound, leads.yields⟩
  starts := fun {t w job} modular accepted idle task => by
    have tame := Eval.tame_run_modules t Eval.levels
    have steady : w.Steady (w.newInterpreter job.env) := .withCalls w _ _
    exact Eval.tame_fulfil tame (Eval.tame_task_modules tame (Eval.topLevel_run t Eval.levels)
      (accepted.later steady.continues) ((steady.standing job.env).trans (idle job.env)))

end

/-! ## Forests that are linked -/

/-- Registered modules that fit together may be run. -/
theorem ForestBuilder.Registered.loaded {b : ForestBuilder} {forest : Forest}
    (registered : b.Registered) (linked : b.finish = .ok forest) : forest.Loaded := by
  obtain ⟨rfl, noFault⟩ := eq_of_finish linked
  obtain ⟨found, met, acyclic⟩ := (Forest.fault?_eq_none_iff registered.distinct).mp noFault
  refine ⟨fun m mem => ?_, registered.distinct, ?_, met, acyclic⟩
  · obtain ⟨_, _, analysed⟩ := registered.analysed m mem
    exact Module.topLevel_of_analyze analysed
  · exact (Forest.exportsFound_iff registered.analysed).mp found

theorem Forest.loaded_empty : Forest.empty.Loaded :=
  ⟨nofun, .nil, nofun, nofun, fun _ round => by
    obtain ⟨_, ⟨_, mem, -⟩, -⟩ := Relation.TransGen.head'_iff.mp round
    cases mem⟩

namespace World

variable {w w' : World} {env : EnvId} {frame : FrameId} {name : String} {slot : SlotId}

/-! ## Environments -/

theorem modular_empty : World.empty.Modular where
  functions _ mem := absurd mem (Array.not_mem_empty _)
  queue _ mem := absurd mem List.not_mem_nil
  forests env := by
    rw [environment_of_size_le (Nat.zero_le env)]
    exact Forest.loaded_empty
  orderly := trivial
  cache env := by
    rw [environment_of_size_le (Nat.zero_le env)]
    rfl
  guarded _ := rfl
  chain _ := .nil
  roots opened := absurd opened List.not_mem_nil
  bounded _ _ _ bound := by cases bound
  recorded :=
    ⟨fun _ there => absurd there (Nat.not_lt_zero _), trivial,
      fun mem => absurd mem List.not_mem_nil⟩
  links linked := absurd linked List.not_mem_nil
  filled done := absurd done List.not_mem_nil

/-- An environment is made over modules that may be run. -/
theorem Modular.newEnvironment (h : w.Modular) {environment : Environment}
    (loaded : environment.forest.Loaded) (fresh : environment.modules = []) :
    (w.newEnvironment environment).2.Modular ∧
      ∀ t, w.Relies t (w.newEnvironment environment).2 := by
  let w' := (w.newEnvironment environment).2
  have old {env : EnvId} (there : env < w.environments.size) :
      w'.environment env = w.environment env := by
    rw [environment_newEnvironment, if_neg (Nat.ne_of_lt there)]
  have continues : w.Continues w' := by
    refine ⟨.refl _, List.suffix_refl _, ?_, fun env there => by rw [old there]⟩
    exact Array.size_push _ ▸ Nat.le_succ _
  have code := h.code continues rfl rfl
  have new : w.environment w.environments.size = default := environment_of_size_le (Nat.le_refl _)
  refine ⟨⟨code.1, code.2, fun env => ?_, h.orderly, fun env => ?_, h.guarded, fun env => ?_,
    h.roots, h.bounded, h.recorded, h.links, fun done whole => ?_⟩,
    fun t => ⟨continues, fun _ _ => rfl, fun _ => .refl _⟩⟩
  · rw [environment_newEnvironment]
    split
    · exact loaded
    · exact h.forests env
  · rw [environment_newEnvironment]
    split
    · next same =>
      have none := h.cache env
      rw [same, new] at none
      rw [fresh, same]
      exact none
    · exact h.cache env
  · rw [environment_newEnvironment]
    split
    · next same =>
      refine (h.chain env).imp fun later earlier imports => ?_
      rw [same, new] at imports
      obtain ⟨m, mem, -⟩ := imports
      cases mem
    · exact h.chain env
  · exact continues.filled (h.lt_size_of_completed done) (h.root_of_completed done)
      (h.filled done whole)

/-! ## What it says -/

/-- A module begins to run for those that import it only if it is neither in progress nor initialised
in that environment, so none is initialised twice. -/
structure RunsOnce (w : World) : Prop where
  began {env : EnvId} {name : String} {later earlier : List Milestone} :
    w.history = later ++ .began env name :: earlier →
      name ∉ inProgress env earlier ∧ name ∉ (completed env earlier).map (·.1)
  initialised (env : EnvId) : ((completed env w.history).map (·.1)).Nodup

/-- A name in the frame of a module has been imported from another one. -/
def Aliases (w : World) (name exported : FrameId × String) : Prop :=
  ∃ link, .linked link ∈ w.history ∧ name = (link.importer, link.name) ∧
    exported = (link.exporter, link.exported)

/-- A name means a slot in a frame. Whenever it was looked up there, it meant that slot. -/
def Names (w : World) (name : FrameId × String) (slot : SlotId) : Prop :=
  w.store.frames.slot? name.1 name.2 = some slot ∧
    ∀ meant value, .read name.1 name.2 meant value ∈ w.store.frames.accesses → meant = slot

/-- What is imported comes from the one frame that the module has where it has been initialised. It
shares its slot with what was exported, however many modules it has gone through. Whenever a name was
looked up, it gave what had been put into its slot last. -/
structure ImportsLive (w : World) : Prop where
  exporter {link : Link} : .linked link ∈ w.history →
    ∀ frame, (link.source, frame) ∈ completed link.env w.history ↔ frame = link.exporter
  shared {name original : FrameId × String} : Relation.TransGen w.Aliases name original →
    ∃ slot, w.Names name slot ∧ w.Names original slot
  latest {later earlier : List Access} {frame : FrameId} {name : String} {slot : SlotId}
    {value : Value} : w.store.frames.accesses = later ++ .read frame name slot value :: earlier →
      Frames.lastPut slot earlier = some value

theorem Modular.runsOnce (h : w.Modular) : w.RunsOnce where
  began same := by
    have orderly := h.orderly.of_suffix (same ▸ List.suffix_append _ _)
    exact orderly.1
  initialised _ := h.orderly.nodup.of_append_right

theorem Modular.names (h : w.Modular) (root : w.store.frames.IsRoot frame)
    (bound : w.store.frames.localSlot? frame name = some slot) : w.Names (frame, name) slot := by
  refine ⟨Frames.slot?_of_localSlot? bound, fun meant value read => ?_⟩
  obtain ⟨f, found, outside⟩ := root
  obtain ⟨f', found', means⟩ := h.recorded.meant read
  obtain rfl := Option.some.inj (found.symm.trans found')
  rw [Frames.localSlot?_of_frame? found] at bound
  exact Option.some.inj ((means outside).symm.trans bound)

/-- Both names of a link mean its slot. -/
theorem Modular.names_of_linked (h : w.Modular) {link : Link} (linked : .linked link ∈ w.history) :
    ∃ slot, w.Names (link.importer, link.name) slot ∧
      w.Names (link.exporter, link.exported) slot := by
  obtain ⟨slot, imported, exported⟩ := h.links linked
  have roots := h.link_roots linked
  exact ⟨slot, h.names roots.1 imported, h.names roots.2 exported⟩

/-- Names that stand for one another mean one slot. -/
theorem Modular.names_of_aliases (h : w.Modular) {name original : FrameId × String}
    (chain : Relation.TransGen w.Aliases name original) :
    ∃ slot, w.Names name slot ∧ w.Names original slot := by
  induction chain with
  | single step =>
    obtain ⟨link, linked, rfl, rfl⟩ := step
    exact h.names_of_linked linked
  | tail _ step ih =>
    obtain ⟨slot, first, middle⟩ := ih
    obtain ⟨link, linked, rfl, rfl⟩ := step
    obtain ⟨slot', imported, exported⟩ := h.names_of_linked linked
    obtain rfl := Option.some.inj (middle.1.symm.trans imported.1)
    exact ⟨slot, first, exported⟩

theorem Modular.importsLive (h : w.Modular) : w.ImportsLive where
  exporter {link} linked frame := by
    have done := (h.orderly.of_linked linked).2
    refine ⟨fun other => ?_, fun same => same ▸ done⟩
    have distinct := (h.runsOnce.initialised link.env)
    exact congrArg Prod.snd (List.inj_on_of_nodup_map distinct other done rfl)
  shared := h.names_of_aliases
  latest same := by
    have consistent := h.recorded.consistent
    rw [same] at consistent
    exact consistent.of_append.1

end World

namespace Engine

variable {e : Engine}

/-! ## The invariant -/

theorem hosted_modules : Accord.modules.Hosted where
  empty := World.modular_empty
  fresh _ _ := rfl
  quiet modular quiet _ :=
    have steady := World.Steady.of_quiet quiet
    ⟨steady.modular_of_same modular quiet.functions quiet.queue, fun _ => steady.relies modular⟩
  newEnvironment modular registered linked fresh :=
    World.Modular.newEnvironment modular (registered.loaded linked) fresh
  program _ _ _ _ _ := Eval.tame_program_modules
  callHost t _ _ _ levels _ := (Eval.tame_run_modules t levels).callHost

/-- Whatever a host does, the worlds of its engines are modular. -/
theorem Reached.modular (reached : e.Reached) : e.world.Modular :=
  (reached.keeps hosted_modules).world

/-! ## Modules that are run among others -/

/-- The result of running one of some modules in an engine with options that binds nothing. -/
def runUnder (options : Options) (modules : List Module) (name : String) :
    Except ScriptError Value × Engine :=
  match ForestImage.restore ⟨modules, []⟩ false with
  | .ok forest => ((start options).newEnvironment forest none).2.runModule 0 name []
  | .error error => (.error (.load error), start options)

theorem Reached.runUnder {options : Options} {modules : List Module} {name : String} :
    (Engine.runUnder options modules name).2.Reached := by
  unfold Engine.runUnder
  split
  · next restored =>
    obtain ⟨b, registered, linked⟩ := ForestImage.exists_registered restored
    exact .runModule 0 name [] (.newEnvironment none (.start options) registered linked)
  · exact .start options

/-- The same in an engine that sets no options. -/
def runAmong (modules : List Module) (name : String) : Except ScriptError Value × Engine :=
  runUnder default modules name

theorem Reached.runAmong {modules : List Module} {name : String} :
    (Engine.runAmong modules name).2.Reached :=
  .runUnder

/-- The panic that a run has ended with. -/
def panic? : Except ScriptError Value → Option Panic
  | .error (.panic cause) => some cause
  | _ => none

end Engine

end ScriptEngine
