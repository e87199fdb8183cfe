import ScriptEngine.Proofs.Evaluation.Plain
import ScriptEngine.Proofs.Forest.Linking
import ScriptEngine.Proofs.Modules.History
import ScriptEngine.Proofs.Modules.Standing
import ScriptEngine.Proofs.Store.Frames

/-!
# The discipline of modules

Imports stand at the top level of modules only, and each frame of a module is filled by the task that
has made it. A task that waits relies on this: nobody else touches the frames of its modules, or
takes a lock from it.

* `World.Modular`: code without imports, orderly histories, and names that share slots.
* `World.Continues`: what stays of a world whatever happens.
* `World.Relies`: what a task puts up with while it waits.
* `Discipline.modules`: the discipline of a task; it may be given slack for one frame that it fills
  and for one environment whose modules it runs.
* `World.Steady`: the changes that have nothing to do with modules.
-/

namespace ScriptEngine

/-! ## Worlds with modules -/

/-- The code of a task stands outside of loops and has no imports, or is that of a module of the
environment. -/
def Task.Modular (w : World) (env : EnvId) : Task → Prop
  | .block body frame => ∃ t, t.inLoop = false ∧ body.Fits False t ∧ w.Supports t frame ∧
      w.store.frames.IsChild frame
  | .program body _ => ∃ m ∈ (w.environment env).forest.modules, m.tree.body = body
  | .apply _ _ | .method _ _ _ => True

namespace Forest

/-- The modules of a forest are made for the top level, declare what they export, find what they
import, and none imports itself through others. -/
structure Loaded (f : Forest) : Prop where
  topLevel : ∀ m ∈ f.modules, m.tree.body.TopLevel
  distinct : (f.modules.map (·.name)).Nodup
  exports : ∀ m ∈ f.modules, m.exports ⊆ m.tree.body.declared
  met : f.ImportsMet
  acyclic : f.Acyclic

/-- There is a module of this name that declares all these items. -/
def Offers (f : Forest) (items : List ImportItem) (source : String) : Prop :=
  ∃ m, f.module? source = some m ∧ ∀ item ∈ items, item.name ∈ m.tree.body.declared

/-- What a statement of a module imports is offered by the module that it is imported from. -/
theorem Loaded.offers {f : Forest} (h : f.Loaded) {m : AnalysedModule} {s : Stmt}
    {items : List ImportItem} {source : String} (mem : m ∈ f.modules)
    (there : s ∈ m.tree.body.statements) (imports : s.import? = some (items, source)) :
    f.Offers items source ∧ f.Imports m.name source := by
  have listed : (items, source, s.position) ∈ m.tree.imports := by
    obtain ⟨position, kind⟩ := s
    refine List.mem_filterMap.mpr ⟨_, there, ?_⟩
    cases kind with
    | importFrom items' source' =>
      cases imports
      rfl
    | _ => cases imports
  obtain ⟨exporter, mem', named, exported⟩ := h.met m mem items source s.position listed
  refine ⟨?_, m, mem, rfl, List.mem_map.mpr ⟨_, listed, rfl⟩⟩
  cases found : f.module? source with
  | none => exact absurd ⟨exporter, mem', named⟩ (module?_eq_none_iff.mp found)
  | some other =>
    obtain rfl := eq_of_module? h.distinct found mem' named
    exact ⟨exporter, found, fun item mem => h.exports exporter mem' (exported item mem)⟩

end Forest

namespace World

/-- How a task stands to the modules that an environment runs for others. -/
def standing (w : World) (task : TaskId) (env : EnvId) : Standing :=
  .of (w.locks.hold? ⟨env, .modules⟩) (inProgress env w.history) task

/-- A task has made a frame for the top level of a module. -/
def Opened (w : World) (frame : FrameId) (task : TaskId) : Prop := .opened frame task ∈ w.history

/-- The two names of a link mean one slot. -/
def Shares (w : World) (link : Link) : Prop :=
  ∃ slot, w.store.frames.localSlot? link.importer link.name = some slot ∧
    w.store.frames.localSlot? link.exporter link.exported = some slot

/-- All that a module declares has a slot in its frame. -/
def Filled (w : World) (env : EnvId) (name : String) (frame : FrameId) : Prop :=
  ∀ m, (w.environment env).forest.module? name = some m →
    ∀ n ∈ m.tree.body.declared, (w.store.frames.localSlot? frame n).isSome

/-- Code that waits in a world has no imports, the history of its modules is orderly, and what was
imported shares its slot with what was exported. -/
structure Modular (w : World) : Prop where
  functions : ∀ callable ∈ w.store.functions, callable.Fits False w
  queue : ∀ job ∈ w.queue, job.task.Modular w job.env
  forests (env : EnvId) : (w.environment env).forest.Loaded
  orderly : Orderly w.history
  cache (env : EnvId) : (w.environment env).modules = completed env w.history
  guarded (env : EnvId) : Guarded (w.locks.hold? ⟨env, .modules⟩) (inProgress env w.history)
  /-- Each module in progress is imported by the one that began before it. -/
  chain (env : EnvId) : (inProgress env w.history).IsChain fun later earlier =>
    (w.environment env).forest.Imports earlier later
  roots {frame : FrameId} {task : TaskId} : w.Opened frame task → w.store.frames.IsRoot frame
  bounded : w.store.frames.Bounded
  recorded : w.store.frames.Recorded
  links {link : Link} : .linked link ∈ w.history → w.Shares link
  /-- A module that has come to its end has declared all its names, unless a return has left it. -/
  filled {env : EnvId} {name : String} {frame : FrameId} :
    (name, frame) ∈ completed env w.history → .left frame ∉ w.history → w.Filled env name frame

/-- What stays of a world whatever happens. -/
structure Continues (w w' : World) : Prop where
  frames : w.store.frames.Extends w'.store.frames
  history : w.history <:+ w'.history
  size : w.environments.size ≤ w'.environments.size
  forest (env : EnvId) : env < w.environments.size →
    (w'.environment env).forest = (w.environment env).forest

/-- An environment that has modules is there. -/
theorem lt_size_of_mem {w : World} {env : EnvId} {m : AnalysedModule}
    (h : m ∈ (w.environment env).forest.modules) : env < w.environments.size := by
  refine Nat.lt_of_not_le fun outside => ?_
  rw [environment, Array.getD_eq_getD_getElem?, Array.getElem?_eq_none outside] at h
  cases h

theorem Modular.lt_size_of_completed {w : World} (h : w.Modular) {env : EnvId} {name : String}
    {frame : FrameId} (done : (name, frame) ∈ completed env w.history) :
    env < w.environments.size := by
  refine Nat.lt_of_not_le fun outside => ?_
  rw [← h.cache, environment, Array.getD_eq_getD_getElem?, Array.getElem?_eq_none outside] at done
  cases done

namespace Continues

variable {w w' w'' : World}

theorem refl (w : World) : w.Continues w :=
  ⟨.refl _, List.suffix_refl _, Nat.le_refl _, fun _ _ => rfl⟩

theorem trans (h : w.Continues w') (h' : w'.Continues w'') : w.Continues w'' :=
  ⟨h.frames.trans h'.frames, h.history.trans h'.history, Nat.le_trans h.size h'.size,
    fun env there => (h'.forest env (Nat.lt_of_lt_of_le there h.size)).trans (h.forest env there)⟩

theorem later (h : w.Continues w') : w.Later w' := fun _ has => h.frames.this? has

theorem opened (h : w.Continues w') {frame : FrameId} {task : TaskId}
    (opened : w.Opened frame task) : w'.Opened frame task :=
  h.history.subset opened

theorem imports (h : w.Continues w') {env : EnvId} {importer source : String}
    (imports : (w.environment env).forest.Imports importer source) :
    (w'.environment env).forest.Imports importer source := by
  obtain ⟨m, mem, -⟩ := id imports
  rwa [h.forest env (lt_size_of_mem mem)]

theorem offers (h : w.Continues w') {env : EnvId} {items : List ImportItem} {source : String}
    (offers : (w.environment env).forest.Offers items source) :
    (w'.environment env).forest.Offers items source := by
  obtain ⟨m, found, -⟩ := id offers
  rwa [h.forest env (lt_size_of_mem (Forest.mem_of_module? found).1)]

/-- Names that share a slot go on to do so. -/
theorem shares (h : w.Continues w') {link : Link} (importer : w.store.frames.IsRoot link.importer)
    (exporter : w.store.frames.IsRoot link.exporter) (shares : w.Shares link) : w'.Shares link := by
  obtain ⟨slot, imported, exported⟩ := shares
  exact ⟨slot, h.frames.localSlot? importer imported, h.frames.localSlot? exporter exported⟩

/-- The frame of a module keeps its names. -/
theorem filled (h : w.Continues w') {env : EnvId} {name : String} {frame : FrameId}
    (there : env < w.environments.size) (root : w.store.frames.IsRoot frame)
    (filled : w.Filled env name frame) : w'.Filled env name frame := by
  intro m found n mem
  rw [h.forest env there] at found
  obtain ⟨slot, bound⟩ := Option.isSome_iff_exists.mp (filled m found n mem)
  exact Option.isSome_iff_exists.mpr ⟨slot, h.frames.localSlot? root bound⟩

end Continues

end World

section

variable {w w' : World}

theorem Task.Modular.later {task : Task} {env : EnvId} (h : task.Modular w env)
    (continues : w.Continues w') : task.Modular w' env := by
  cases task with
  | block body frame =>
    obtain ⟨t, outside, fits, supports, child⟩ := h
    exact ⟨t, outside, fits, supports.later continues.later, continues.frames.isChild child⟩
  | program body args =>
    obtain ⟨m, mem, same⟩ := h
    exact ⟨m, (continues.forest env (World.lt_size_of_mem mem)).symm ▸ mem, same⟩
  | apply callback args => trivial
  | method entity name args => trivial

/-- The function under a number has no imports, also if none was put there. -/
theorem World.Modular.function (h : w.Modular) (id : FunctionId) :
    (w.store.function id).Fits False w := by
  rw [Store.function, Array.getD_eq_getD_getElem?]
  cases found : w.store.functions[id]? with
  | some callable => exact h.functions callable (Array.mem_of_getElem? found)
  | none => trivial

/-- The frame of a module that has come to its end is a root. -/
theorem World.Modular.root_of_completed (h : w.Modular) {env : EnvId} {name : String}
    {frame : FrameId} (done : (name, frame) ∈ completed env w.history) :
    w.store.frames.IsRoot frame :=
  have ⟨_, opened⟩ := h.orderly.exists_opened done
  h.roots opened

/-- The frames of what is imported and exported are roots. -/
theorem World.Modular.link_roots (h : w.Modular) {link : Link} (linked : .linked link ∈ w.history) :
    w.store.frames.IsRoot link.importer ∧ w.store.frames.IsRoot link.exporter := by
  obtain ⟨⟨_, importer⟩, done⟩ := h.orderly.of_linked linked
  exact ⟨h.roots importer, h.root_of_completed done⟩

/-- A world that comes later has modules as before, if what is new there is as it has to be. -/
theorem World.Modular.change (h : w.Modular) (continues : w.Continues w')
    (functions : ∀ callable ∈ w'.store.functions, callable.Fits False w')
    (queue : ∀ job ∈ w'.queue, job.task.Modular w' job.env)
    (forest : ∀ env, (w'.environment env).forest = (w.environment env).forest)
    (orderly : Orderly w'.history)
    (cache : ∀ env, (w'.environment env).modules = completed env w'.history)
    (guarded : ∀ env, Guarded (w'.locks.hold? ⟨env, .modules⟩) (inProgress env w'.history))
    (chain : ∀ env, (inProgress env w'.history).IsChain fun later earlier =>
      (w.environment env).forest.Imports earlier later)
    (opened : ∀ {frame : FrameId} {task : TaskId}, w'.Opened frame task →
      w.Opened frame task ∨ w'.store.frames.IsRoot frame)
    (bounded : w'.store.frames.Bounded) (recorded : w'.store.frames.Recorded)
    (linked : ∀ {link : Link}, .linked link ∈ w'.history →
      .linked link ∈ w.history ∨ w'.Shares link)
    (done : ∀ {env : EnvId} {name : String} {frame : FrameId},
      (name, frame) ∈ completed env w'.history → (name, frame) ∈ completed env w.history ∨
        (.left frame ∉ w'.history → w'.Filled env name frame)) : w'.Modular where
  functions := functions
  queue := queue
  forests env := forest env ▸ h.forests env
  orderly := orderly
  cache := cache
  guarded := guarded
  chain env := forest env ▸ chain env
  roots now := (opened now).elim (fun before => continues.frames.isRoot (h.roots before)) id
  bounded := bounded
  recorded := recorded
  links now := (linked now).elim (fun before =>
    have roots := h.link_roots before
    continues.shares roots.1 roots.2 (h.links before)) id
  filled now whole := (done now).elim (fun before =>
    continues.filled (h.lt_size_of_completed before) (h.root_of_completed before)
      (h.filled before fun left => whole (continues.history.subset left))) fun new => new whole

/-- Code that may wait may go on to. -/
theorem World.Modular.code (h : w.Modular) (continues : w.Continues w')
    (functions : w'.store.functions = w.store.functions) (queue : w'.queue = w.queue) :
    (∀ callable ∈ w'.store.functions, callable.Fits False w') ∧
      ∀ job ∈ w'.queue, job.task.Modular w' job.env :=
  ⟨fun callable mem => (h.functions callable (functions ▸ mem)).later continues.later,
    fun job mem => (h.queue job (queue ▸ mem)).later continues⟩

/-! ## What a task relies on -/

/-- A task may be filling the frame of a module, and running modules for an environment. -/
structure Slack where
  frame : Option FrameId
  env : Option EnvId

/-- What a task finds when an evaluation has ended: the frames of its modules are as they were, and
it stands to the locks of modules as it did, but for what it has slack. -/
structure World.Stays (t : TaskId) (x : Slack) (w w' : World) : Prop where
  continues : w.Continues w'
  own (frame : FrameId) : w.Opened frame t → x.frame ≠ some frame →
    w'.store.frames.frame? frame = w.store.frames.frame? frame
  standing (env : EnvId) : x.env ≠ some env → w'.standing t env = w.standing t env

/-- What a task puts up with while it waits: the frames of its modules are left alone, and nobody
takes a lock from it. -/
structure World.Relies (t : TaskId) (w w' : World) : Prop where
  continues : w.Continues w'
  own (frame : FrameId) : w.Opened frame t →
    w'.store.frames.frame? frame = w.store.frames.frame? frame
  standing (env : EnvId) : (w.standing t env).Lasts (w'.standing t env)

namespace World

variable {t : TaskId} {x : Slack} {a b c : World}

theorem Stays.refl (t : TaskId) (x : Slack) (w : World) : w.Stays t x w :=
  ⟨.refl w, fun _ _ _ => rfl, fun _ _ => rfl⟩

theorem Stays.trans (h : a.Stays t x b) (h' : b.Stays t x c) : a.Stays t x c where
  continues := h.continues.trans h'.continues
  own frame opened free :=
    (h'.own frame (h.continues.opened opened) free).trans (h.own frame opened free)
  standing env free := (h'.standing env free).trans (h.standing env free)

/-- Nothing is lost by more slack. -/
theorem Stays.slacken {x' : Slack} (h : a.Stays t x b)
    (frame : ∀ id, x.frame = some id → x'.frame = some id)
    (env : ∀ id, x.env = some id → x'.env = some id) : a.Stays t x' b :=
  ⟨h.continues, fun id opened free => h.own id opened fun same => free (frame id same),
    fun id free => h.standing id fun same => free (env id same)⟩

/-- Slack for a frame is not needed if that was not there. -/
theorem Stays.unopened {frame : FrameId} {env : Option EnvId} (h : a.Stays t ⟨some frame, env⟩ b)
    (fresh : ¬ a.Opened frame t) : a.Stays t ⟨none, env⟩ b where
  continues := h.continues
  own other opened _ := h.own other opened fun same => fresh (Option.some.inj same ▸ opened)
  standing := h.standing

/-- Slack for an environment is not needed if the task stands there as before. -/
theorem Stays.restore {frame : Option FrameId} {env : EnvId} (h : a.Stays t ⟨frame, some env⟩ b)
    (same : b.standing t env = a.standing t env) : a.Stays t ⟨frame, none⟩ b where
  continues := h.continues
  own := h.own
  standing other _ := by
    by_cases here : some env = some other
    · cases here
      exact same
    · exact h.standing other here

theorem Relies.refl (t : TaskId) (w : World) : w.Relies t w :=
  ⟨.refl w, fun _ _ => rfl, fun _ => .refl _⟩

theorem Relies.trans (h : a.Relies t b) (h' : b.Relies t c) : a.Relies t c where
  continues := h.continues.trans h'.continues
  own frame opened := (h'.own frame (h.continues.opened opened)).trans (h.own frame opened)
  standing env := (h.standing env).trans (h'.standing env)

/-- No task minds what happens to other things than frames, environments, locks and modules. -/
theorem Relies.of_same (frames : b.store.frames = a.store.frames)
    (environments : b.environments = a.environments) (locks : b.locks = a.locks)
    (history : b.history = a.history) : a.Relies t b := by
  refine ⟨⟨frames ▸ .refl _, history ▸ List.suffix_refl _, environments ▸ Nat.le_refl _,
    fun env _ => ?_⟩, fun _ _ => by rw [frames], fun env => .inl ?_⟩
  · rw [environment, environment, environments]
  · rw [World.standing, World.standing, locks, history]

/-- What a task that does not wait for a lock puts up with changes nothing for it. -/
theorem Relies.stays (h : a.Relies t b)
    (settled : ∀ env, x.env ≠ some env → a.standing t env ≠ .queued) : a.Stays t x b :=
  ⟨h.continues, fun frame opened _ => h.own frame opened,
    fun env free => (h.standing env).eq (settled env free)⟩

end World

/-- The discipline of a task. It never waits for a lock of modules but in the middle of an import,
and its own code, as far as this discipline is about it, has no imports and declares its names in
frames that stand in others. -/
def Discipline.modules (t : TaskId) (x : Slack) : Discipline where
  sound w := w.Modular ∧ w.turn.task = t ∧ ∀ env, w.standing t env ≠ .queued
  rests := World.Modular
  later := World.Stays t x
  yields w w' := ∀ other, other ≠ t → World.Relies other w w'
  resumes wait w w' := World.Relies t w w' ∧
    ∀ lock, wait = .lock lock → w'.locks.isHeldBy lock t = true
  imports := False
  roomy w frame := w.store.frames.IsChild frame
  rests_of_sound := fun sound => sound.1
  later_refl := .refl t x
  later_trans := .trans
  yields_refl := fun w other _ => .refl other w
  yields_trans := fun h h' other apart => (h other apart).trans (h' other apart)

/-- All slack looks the same from outside. -/
theorem Discipline.weaker_modules (t : TaskId) (x x' : Slack) :
    (Discipline.modules t x).Weaker (Discipline.modules t x') :=
  ⟨fun _ => .rfl, fun _ => .rfl, id, id⟩

/-! ## Changes that modules do not notice -/

/-- A change that has nothing to do with modules. -/
structure World.Steady (w w' : World) : Prop where
  frames : w.store.frames.Extends w'.store.frames
  roots {frame : FrameId} : w.store.frames.IsRoot frame →
    w'.store.frames.frame? frame = w.store.frames.frame? frame
  bounded : w.store.frames.Bounded → w'.store.frames.Bounded
  recorded : w.store.frames.Bounded → w.store.frames.Recorded → w'.store.frames.Recorded
  size : w'.environments.size = w.environments.size
  forest (env : EnvId) : (w'.environment env).forest = (w.environment env).forest
  modules (env : EnvId) : (w'.environment env).modules = (w.environment env).modules
  locks (env : EnvId) : w'.locks.hold? ⟨env, .modules⟩ = w.locks.hold? ⟨env, .modules⟩
  history : w'.history = w.history

/-- A lock under which no modules are run is only passed on when it is lost. -/
theorem World.lose_of_ne {task : TaskId} {lock : Lock} (held : w.locks.isHeldBy lock task = true)
    (shared : lock.name ≠ .modules) :
    w.lose task lock = { w with locks := w.locks.forfeit lock } := by
  obtain ⟨env, name⟩ := lock
  unfold World.lose
  rw [if_pos held]
  cases name with
  | modules => exact absurd rfl shared
  | plain | keyed key => rfl

namespace World.Steady

variable {t : TaskId} {x : Slack}

theorem continues (h : w.Steady w') : w.Continues w' where
  frames := h.frames
  history := h.history ▸ List.suffix_refl _
  size := Nat.le_of_eq h.size.symm
  forest env _ := h.forest env

theorem standing (h : w.Steady w') (env : EnvId) : w'.standing t env = w.standing t env := by
  rw [World.standing, World.standing, h.locks, h.history]

theorem relies (h : w.Steady w') (modular : w.Modular) : w.Relies t w' :=
  ⟨h.continues, fun _ opened => h.roots (modular.roots opened), fun env => .inl (h.standing env)⟩

theorem stays (h : w.Steady w') (modular : w.Modular) : w.Stays t x w' :=
  ⟨h.continues, fun _ opened _ => h.roots (modular.roots opened), fun env _ => h.standing env⟩

/-- Other code may wait now, if it has no imports. -/
theorem modular (h : w.Steady w') (modular : w.Modular)
    (functions : ∀ callable ∈ w'.store.functions, callable.Fits False w')
    (queue : ∀ job ∈ w'.queue, job.task.Modular w' job.env) : w'.Modular := by
  refine modular.change h.continues functions queue h.forest (h.history ▸ modular.orderly)
    (fun env => ?_) (fun env => ?_) (fun env => h.history ▸ modular.chain env)
    (fun opened => .inl ?_) (h.bounded modular.bounded) (h.recorded modular.bounded modular.recorded)
    (fun linked => .inl (h.history ▸ linked)) fun done => .inl (h.history ▸ done)
  · rw [h.modules, h.history, modular.cache]
  · rw [h.locks, h.history]
    exact modular.guarded env
  · rwa [Opened, h.history] at opened

theorem modular_of_same (h : w.Steady w') (modular : w.Modular)
    (functions : w'.store.functions = w.store.functions) (queue : w'.queue = w.queue) :
    w'.Modular :=
  have code := modular.code h.continues functions queue
  h.modular modular code.1 code.2

/-- No task minds a steady change, and whose turn it is can go on. -/
theorem leads (h : w.Steady w') (sound : (Discipline.modules t x).sound w) (modular : w'.Modular)
    (task : w'.turn.task = w.turn.task) : (Discipline.modules t x).Leads w w' where
  sound := ⟨modular, task.trans sound.2.1, fun env => h.standing env ▸ sound.2.2 env⟩
  later := h.stays sound.1
  yields _ _ := h.relies sound.1

/-- Whatever changes no names. -/
theorem of_frames (frames : w'.store.frames.frames = w.store.frames.frames)
    (slots : w.store.frames.slots.size ≤ w'.store.frames.slots.size)
    (recorded : w.store.frames.Bounded → w.store.frames.Recorded → w'.store.frames.Recorded)
    (size : w'.environments.size = w.environments.size)
    (forest : ∀ env, (w'.environment env).forest = (w.environment env).forest)
    (modules : ∀ env, (w'.environment env).modules = (w.environment env).modules)
    (locks : ∀ env, w'.locks.hold? ⟨env, .modules⟩ = w.locks.hold? ⟨env, .modules⟩)
    (history : w'.history = w.history) : w.Steady w' where
  frames := .of_frames frames slots
  roots _ := by rw [Frames.frame?, frames, Frames.frame?]
  bounded bounded := bounded.of_frames frames slots
  recorded := recorded
  size := size
  forest := forest
  modules := modules
  locks := locks
  history := history

theorem of_quiet (h : w.Quiet w') : w.Steady w' :=
  .of_frames h.frames (Nat.le_of_eq h.slots.symm) h.recorded h.size h.forest h.modules h.locks
    h.history

theorem withTurn (w : World) (turn : Turn) (clock : Nat) : w.Steady { w with turn, clock } :=
  .of_frames rfl (Nat.le_refl _) (fun _ => id) rfl (fun _ => rfl) (fun _ => rfl) (fun _ => rfl) rfl

theorem withCalls (w : World) (turn : Turn) (calls : List CallEvent) :
    w.Steady { w with turn, calls } :=
  .of_frames rfl (Nat.le_refl _) (fun _ => id) rfl (fun _ => rfl) (fun _ => rfl) (fun _ => rfl) rfl

/-- A lock under which no modules are run can be lost. -/
theorem lose {task : TaskId} {lock : Lock} (held : w.locks.isHeldBy lock task = true)
    (shared : lock.name ≠ .modules) : w.Steady (w.lose task lock) := by
  rw [lose_of_ne held shared]
  exact .of_frames rfl (Nat.le_refl _) (fun _ => id) rfl (fun _ => rfl) (fun _ => rfl)
    (fun _ => LockTable.hold?_forfeit_of_ne fun same => shared (congrArg Lock.name same)) rfl

theorem pushFrame (w : World) (parent : FrameId) (this : Option EntityRef) :
    w.Steady (w.pushFrame parent this) where
  frames := Frames.extends_push
  roots root := by
    obtain ⟨f, found, -⟩ := root
    exact Frames.frame?_push.trans (if_neg (Nat.ne_of_lt (Frames.lt_size_of_frame? found)))
  bounded bounded := bounded.push
  recorded _ recorded := recorded.of_extends Frames.extends_push rfl rfl
  size := rfl
  forest _ := rfl
  modules _ := rfl
  locks _ := rfl
  history := rfl

/-- Names may be declared in frames that stand inside others. -/
theorem declare {frame : FrameId} (child : w.store.frames.IsChild frame) (name : String)
    (value : Value) : w.Steady (w.declare frame name value) where
  frames := Frames.extends_declare fun root => absurd child root.not_isChild
  roots root := by
    refine Frames.frame?_link.trans (if_neg ?_)
    rintro rfl
    exact root.not_isChild child
  bounded bounded := bounded.declare
  recorded _ recorded := recorded.declare fun root => absurd child root.not_isChild
  size := rfl
  forest _ := rfl
  modules _ := rfl
  locks _ := rfl
  history := rfl

end World.Steady

/-- A task that may wait in the queue can be put there. -/
theorem Discipline.leads_enqueue_modules {t : TaskId} {x : Slack} {job : Job}
    (sound : (Discipline.modules t x).sound w) (fits : job.task.Modular w job.env) :
    (Discipline.modules t x).Leads w (w.enqueue job) := by
  have steady : w.Steady (w.enqueue job) :=
    .of_frames rfl (Nat.le_refl _) (fun _ => id) rfl (fun _ => rfl) (fun _ => rfl) (fun _ => rfl) rfl
  refine steady.leads sound (steady.modular sound.1 ?_ ?_) rfl
  · exact fun callable mem => (sound.1.functions callable mem).later steady.continues.later
  · exact List.forall_mem_cons.mpr ⟨fits.later steady.continues,
      fun other mem => (sound.1.queue other mem).later steady.continues⟩

/-- To count calls has nothing to do with modules. -/
theorem World.Steady.leads_withCalls {t : TaskId} {x : Slack} {turn : Turn} {calls : List CallEvent}
    (sound : (Discipline.modules t x).sound w) (task : turn.task = w.turn.task) :
    (Discipline.modules t x).Leads w { w with turn, calls } :=
  have steady := withCalls w turn calls
  steady.leads sound (steady.modular_of_same sound.1 rfl rfl) task

theorem World.Steady.leads_of_quiet {t : TaskId} {x : Slack} {w' : World}
    (sound : (Discipline.modules t x).sound w) (quiet : w.Quiet w') :
    (Discipline.modules t x).Leads w w' :=
  have steady := of_quiet quiet
  steady.leads sound (steady.modular_of_same sound.1 quiet.functions quiet.queue) quiet.task

/-- A function without imports is admitted, wherever its code stands. -/
theorem Discipline.admits_modules {t : TaskId} {x : Slack} {callable : Callable} :
    (Discipline.modules t x).Admits w callable ↔ callable.Fits False w :=
  admits_iff_fits (fun _ _ => trivial) fun _ _ => trivial

/-- So is a block, which is no code of a module. -/
theorem Discipline.blockFits_modules {t : TaskId} {x : Slack} {body : Block} {frame : FrameId}
    {env : EnvId} : (Task.block body frame).Fits (.modules t x) w ↔
      (Task.block body frame).Modular w env :=
  exists_congr fun _ => and_congr_right fun _ => and_congr_right fun _ => and_congr_left fun _ =>
    ⟨fun supports => supports.entity, fun supports => ⟨supports, trivial⟩⟩

instance (t : TaskId) (x : Slack) : (Discipline.modules t x).Lawful where
  lasting := fun later => ⟨later.continues.later, id, id⟩
  roomy_later := fun later child => later.continues.frames.isChild child
  homing := .of_any fun _ _ => trivial
  function := fun id sound => Discipline.admits_modules.mpr (sound.1.function id)
  quiet := fun sound quiet _ _ => World.Steady.leads_of_quiet sound quiet
  pushFrame := fun {w parent this} sound _ _ => by
    have steady := World.Steady.pushFrame w parent this
    refine ⟨steady.leads sound (steady.modular_of_same sound.1 rfl rfl) rfl,
      ⟨⟨[], some parent, this⟩, parent, ?_, rfl⟩, trivial⟩
    exact Frames.frame?_push.trans (if_pos rfl)
  declare := fun {w frame name value} sound child =>
    have steady := World.Steady.declare child name value
    steady.leads sound (steady.modular_of_same sound.1 rfl rfl) rfl
  pushFunction := fun {w callable} sound admits => by
    have steady : w.Steady (w.pushFunction callable) :=
      .of_frames rfl (Nat.le_refl _) (fun _ => id) rfl (fun _ => rfl) (fun _ => rfl) (fun _ => rfl) rfl
    refine steady.leads sound (steady.modular sound.1 (fun other mem => ?_) ?_) rfl
    · rcases Array.mem_push.mp mem with mem | rfl
      · exact (sound.1.functions other mem).later steady.continues.later
      · exact (Discipline.admits_modules.mp admits).later steady.continues.later
    · exact fun job mem => (sound.1.queue job mem).later steady.continues
  enqueue := fun {w job} sound fits => by
    refine Discipline.leads_enqueue_modules sound ?_
    obtain ⟨env, promise, task⟩ := job
    cases task with
    | block body frame => exact Discipline.blockFits_modules.mp fits
    | program body args => exact fits.elim
    | apply callback args => trivial
    | method entity name args => trivial
  suspend := fun {w w' wait} sound _ modular resumes => by
    have steady : w'.Steady (w'.resume w) := .withTurn w' _ w'.clock
    have stays := resumes.1.stays (x := x) fun env _ => sound.2.2 env
    have relies := resumes.1.standing
    refine ⟨⟨steady.modular_of_same modular rfl rfl, sound.2.1, fun env => ?_⟩,
      stays.trans (steady.stays modular), fun _ _ => steady.relies modular⟩
    rw [steady.standing, (relies env).eq (sound.2.2 env)]
    exact sound.2.2 env
  call := fun sound _ => .of_leads (World.Steady.leads_withCalls sound rfl)
    ⟨fun _ has => has, id, id⟩ fun sound => World.Steady.leads_withCalls sound rfl
  interpreter := fun env sound => .of_leads (World.Steady.leads_withCalls sound rfl)
    ⟨fun _ has => has, id, id⟩ fun sound => World.Steady.leads_withCalls sound rfl
  link := fun no => no.elim
  missed := fun no => no.elim
  promising := .of_leads fun {w} promises steps rival sound =>
    World.Steady.leads_of_quiet sound (.withPromises w promises steps rival)

end

end ScriptEngine
