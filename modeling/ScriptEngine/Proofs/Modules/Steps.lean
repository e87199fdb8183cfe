import ScriptEngine.Proofs.Modules.Discipline

/-!
# Steps that modules are made of

The other steps of a task are those of modules themselves: it gives names to a frame that it has
made for a module, and it takes the lock of an environment, begins a module, ends it, and gives the
lock back.

* `leads_bindName`, `leads_declare`: a name that was free in a frame of the task gets a slot.
* `leads_record`: a frame is made for a module, an item is imported.
* `World.Shifts`: the task changes how it stands in one environment, and nothing else.
* `shifts_acquire`, `shifts_release`, `shifts_lose`, `shifts_milestone`: the steps under the lock.
-/

namespace ScriptEngine

variable {t : TaskId} {x : Slack} {env : EnvId} {w w' : World} {frame : FrameId} {name : String}
  {slot : SlotId}

namespace World

/-- The world in which a name of a frame means a slot. -/
def bindName (w : World) (frame : FrameId) (name : String) (slot : SlotId) : World :=
  { w with store.frames := w.store.frames.link frame name slot }

/-- The world with one more slot. -/
def pushSlot (w : World) (value : Value) : World :=
  { w with store.frames := (w.store.frames.newSlot value).2 }

/-- The world with a frame that nothing surrounds. -/
def pushRoot (w : World) : World := { w with store.frames := (w.store.frames.push none none).2 }

end World

namespace Discipline

/-! ## Names in the frames of a task -/

/-- A task may give a name to a frame that it has made for a module, if the name is free. -/
theorem leads_bindName (sound : (Discipline.modules t x).sound w) (mine : w.Opened frame t)
    (slack : x.frame = some frame) (free : w.store.frames.localSlot? frame name = none)
    (there : slot < w.store.frames.slots.size) :
    (Discipline.modules t x).Leads w (w.bindName frame name slot) := by
  have extends' : w.store.frames.Extends (w.bindName frame name slot).store.frames :=
    Frames.extends_link fun _ => free
  have continues : w.Continues (w.bindName frame name slot) :=
    ⟨extends', List.suffix_refl _, Nat.le_refl _, fun _ _ => rfl⟩
  have code := sound.1.code continues rfl rfl
  have modular : (w.bindName frame name slot).Modular :=
    sound.1.change continues code.1 code.2 (fun _ => rfl) sound.1.orderly sound.1.cache
      sound.1.guarded sound.1.chain .inl (sound.1.bounded.link there)
      (sound.1.recorded.of_extends extends' rfl rfl) .inl .inl
  have elsewhere {other : FrameId} (apart : frame ≠ other) :
      (w.bindName frame name slot).store.frames.frame? other = w.store.frames.frame? other :=
    Frames.frame?_link.trans (if_neg apart)
  refine ⟨⟨modular, sound.2⟩, ⟨continues, fun other _ free => elsewhere fun same => ?_, fun _ _ => rfl⟩,
    fun task apart => ⟨continues, fun other opened => elsewhere fun same => ?_, fun _ => .refl _⟩⟩
  · exact free (slack.trans (congrArg some same))
  · subst same
    exact apart (sound.1.orderly.opened_unique opened mine)

theorem steady_pushSlot (w : World) (value : Value) : w.Steady (w.pushSlot value) :=
  .of_frames rfl (by simp [World.pushSlot, Frames.newSlot]) (fun _ => .newSlot) rfl (fun _ => rfl)
    (fun _ => rfl) (fun _ => rfl) rfl

/-- So it may declare the name. -/
theorem leads_declare (sound : (Discipline.modules t x).sound w) (mine : w.Opened frame t)
    (slack : x.frame = some frame) (free : w.store.frames.localSlot? frame name = none)
    (value : Value) : (Discipline.modules t x).Leads w (w.declare frame name value) := by
  have steady := steady_pushSlot w value
  have pushed := steady.leads sound (steady.modular_of_same sound.1 rfl rfl) rfl
  have there : w.store.frames.slots.size < (w.pushSlot value).store.frames.slots.size := by
    simp [World.pushSlot, Frames.newSlot]
  exact pushed.trans (leads_bindName pushed.sound mine slack free there)

/-- A milestone that is about no module that begins or ends can be recorded if it follows. -/
theorem leads_record {milestone : Milestone} (sound : (Discipline.modules t x).sound w)
    (follows : milestone.Follows w.history)
    (progress : ∀ env, inProgress env (milestone :: w.history) = inProgress env w.history)
    (done : ∀ env, completed env (milestone :: w.history) = completed env w.history)
    (opened : ∀ frame task, milestone = .opened frame task → w.store.frames.IsRoot frame)
    (linked : ∀ link, milestone = .linked link → w.Shares link) :
    (Discipline.modules t x).Leads w (w.record milestone) := by
  have continues : w.Continues (w.record milestone) :=
    ⟨.refl _, List.suffix_cons _ _, Nat.le_refl _, fun _ _ => rfl⟩
  have code := sound.1.code continues rfl rfl
  have standing (task : TaskId) (env : EnvId) :
      (w.record milestone).standing task env = w.standing task env :=
    congrArg (Standing.of _ · task) (progress env)
  have modular : (w.record milestone).Modular := by
    refine sound.1.change continues code.1 code.2 (fun _ => rfl) ⟨follows, sound.1.orderly⟩
      (fun env => (sound.1.cache env).trans (done env).symm) (fun env => ?_) (fun env => ?_)
      (fun now => ?_) sound.1.bounded sound.1.recorded (fun now => ?_)
      fun {env _ _} now => .inl (done env ▸ now)
    · rw [World.record, progress env]
      exact sound.1.guarded env
    · rw [World.record, progress env]
      exact sound.1.chain env
    · exact (List.mem_cons.mp now).elim (fun new => .inr (opened _ _ new.symm)) .inl
    · exact (List.mem_cons.mp now).elim (fun new => .inr (linked _ new.symm)) .inl
  exact ⟨⟨modular, sound.2.1, fun env => standing t env ▸ sound.2.2 env⟩,
    ⟨continues, fun _ _ _ => rfl, fun env _ => standing t env⟩,
    fun other _ => ⟨continues, fun _ _ => rfl, fun env => .inl (standing other env)⟩⟩

/-- A task may make a frame for a module. -/
theorem leads_pushRoot (sound : (Discipline.modules t x).sound w) :
    (Discipline.modules t x).Leads w (w.pushRoot.record (.opened w.store.frames.frames.size t)) := by
  have steady : w.Steady w.pushRoot :=
    { frames := Frames.extends_push
      roots := fun ⟨_, found, _⟩ =>
        Frames.frame?_push.trans (if_neg (Nat.ne_of_lt (Frames.lt_size_of_frame? found)))
      bounded := fun bounded => bounded.push
      recorded := fun _ recorded => recorded.of_extends Frames.extends_push rfl rfl
      size := rfl
      forest := fun _ => rfl
      modules := fun _ => rfl
      locks := fun _ => rfl
      history := rfl }
  have pushed := steady.leads sound (steady.modular_of_same sound.1 rfl rfl) rfl
  have root : w.pushRoot.store.frames.IsRoot w.store.frames.frames.size :=
    ⟨⟨[], none, none⟩, Frames.frame?_push.trans (if_pos rfl), rfl⟩
  refine pushed.trans (leads_record pushed.sound (fun task opened => ?_) (fun _ => rfl) (fun _ => rfl)
    (fun _ _ same => ?_) fun _ no => by cases no)
  · obtain ⟨_, found, -⟩ := sound.1.roots opened
    exact Nat.lt_irrefl _ (Frames.lt_size_of_frame? found)
  · cases same
    exact root

end Discipline

/-! ## Under the lock -/

/-- A change of how a task stands in one environment. -/
structure World.Shifts (t : TaskId) (env : EnvId) (w w' : World) : Prop where
  modular : w'.Modular
  stays : w.Stays t ⟨none, some env⟩ w'
  relies : ∀ other, other ≠ t → w.Relies other w'

namespace World.Shifts

theorem leads (h : w.Shifts t env w') (sound : (Discipline.modules t ⟨none, some env⟩).sound w)
    (task : w'.turn.task = w.turn.task) (settled : w'.standing t env ≠ .queued) :
    (Discipline.modules t ⟨none, some env⟩).Leads w w' where
  sound := ⟨h.modular, task.trans sound.2.1, fun other => by
    by_cases same : some env = some other
    · cases same
      exact settled
    · rw [h.stays.standing other same]
      exact sound.2.2 other⟩
  later := h.stays
  yields := h.relies

/-- A change of the lock, or of the modules in progress under it. -/
theorem of_same (modular : w.Modular) (store : w'.store = w.store) (queue : w'.queue = w.queue)
    (size : w'.environments.size = w.environments.size)
    (forest : ∀ other, (w'.environment other).forest = (w.environment other).forest)
    (history : w.history <:+ w'.history)
    (locks : ∀ other, env ≠ other →
      w'.locks.hold? ⟨other, .modules⟩ = w.locks.hold? ⟨other, .modules⟩)
    (progress : ∀ other, env ≠ other → inProgress other w'.history = inProgress other w.history)
    (standing : ∀ other, other ≠ t → (w.standing other env).Lasts (w'.standing other env))
    (orderly : Orderly w'.history)
    (cache : ∀ other, (w'.environment other).modules = completed other w'.history)
    (guarded : Guarded (w'.locks.hold? ⟨env, .modules⟩) (inProgress env w'.history))
    (chain : (inProgress env w'.history).IsChain fun later earlier =>
      (w.environment env).forest.Imports earlier later)
    (opened : ∀ {frame : FrameId} {task : TaskId}, w'.Opened frame task → w.Opened frame task)
    (linked : ∀ {link : Link}, .linked link ∈ w'.history → .linked link ∈ w.history)
    (done : ∀ {other : EnvId} {name : String} {frame : FrameId},
      (name, frame) ∈ completed other w'.history → (name, frame) ∈ completed other w.history ∨
        (.left frame ∉ w'.history → w.Filled other name frame)) :
    w.Shifts t env w' := by
  have continues : w.Continues w' :=
    ⟨store ▸ .refl _, history, Nat.le_of_eq size.symm, fun other _ => forest other⟩
  have frames (frame : FrameId) : w'.store.frames.frame? frame = w.store.frames.frame? frame := by
    rw [store]
  have elsewhere (task : TaskId) {other : EnvId} (apart : env ≠ other) :
      w'.standing task other = w.standing task other := by
    rw [World.standing, World.standing, locks other apart, progress other apart]
  have code := modular.code continues (store ▸ rfl) queue
  refine ⟨modular.change continues code.1 code.2 forest orderly cache (fun other => ?_)
    (fun other => ?_) (fun now => .inl (opened now)) (store ▸ modular.bounded)
    (store ▸ modular.recorded)
    (fun now => .inl (linked now)) fun now => (done now).imp_right fun new whole => ?_,
    ⟨continues, fun frame _ _ => frames frame, fun other free => ?_⟩,
    fun task apart => ⟨continues, fun frame _ => frames frame, fun other => ?_⟩⟩
  · by_cases same : env = other
    · subst same
      exact guarded
    · rw [locks other same, progress other same]
      exact modular.guarded other
  · by_cases same : env = other
    · subst same
      exact chain
    · rw [progress other same]
      exact modular.chain other
  · rw [World.Filled, forest, store]
    exact new whole
  · exact elsewhere t fun same => free (congrArg some same)
  · by_cases same : env = other
    · subst same
      exact standing task apart
    · exact .inl (elsewhere task same)

end World.Shifts

/-- A task asks for the lock of an environment. -/
theorem World.shifts_acquire (sound : (Discipline.modules t x).sound w) (env : EnvId) :
    w.Shifts t env { w with locks := w.locks.acquire ⟨env, .modules⟩ t } := by
  refine .of_same sound.1 rfl rfl rfl (fun _ => rfl) (List.suffix_refl _) (fun other apart => ?_)
    (fun _ _ => rfl) (fun other apart => .inl (Standing.of_acquire_other apart.symm))
    sound.1.orderly sound.1.cache
    (Standing.guarded_acquire (sound.1.guarded env) (sound.2.2 env)) (sound.1.chain env) id id
    .inl
  exact LockTable.hold?_acquire_of_ne fun same => apart (congrArg Lock.env same)

/-- A task gives back the lock of an environment, and stands as it did before it took it. -/
theorem World.shifts_release {before : Standing} (sound : (Discipline.modules t x).sound w)
    (settled : before ≠ .queued)
    (held : ∀ count progress, before = .owner count progress → 0 < count)
    (taken : w.standing t env = before.taken) :
    w.Shifts t env { w with locks := w.locks.release ⟨env, .modules⟩ }.withRival ∧
      { w with locks := w.locks.release ⟨env, .modules⟩ }.withRival.standing t env = before := by
  obtain ⟨guarded, back, others⟩ := Standing.of_release (sound.1.guarded env) settled held taken
  refine ⟨.of_same sound.1 rfl rfl rfl (fun _ => rfl) (List.suffix_refl _) (fun other apart => ?_)
    (fun _ _ => rfl) others sound.1.orderly sound.1.cache guarded (sound.1.chain env) id id .inl, back⟩
  exact LockTable.hold?_release_of_ne fun same => apart (congrArg Lock.env same)

/-- A task that has crashed loses the lock of an environment, and the modules that it ran are given up. -/
theorem World.shifts_lose (modular : w.Modular)
    (held : w.locks.isHeldBy ⟨env, .modules⟩ t = true) :
    w.Shifts t env (w.lose t ⟨env, .modules⟩) := by
  obtain ⟨count, progress, owner⟩ : ∃ count progress, w.standing t env = .owner count progress :=
    Standing.isHeldBy_iff.mp held
  obtain ⟨-, -, -, -, rfl⟩ := Standing.exists_of_owner owner
  obtain ⟨guarded, -, others⟩ := Standing.of_forfeit (modular.guarded env) owner
  have given : inProgress env (.abandoned env :: w.history) = [] := if_pos rfl
  have lost : w.lose t ⟨env, .modules⟩ =
      { w with
        locks := w.locks.forfeit ⟨env, .modules⟩
        history := .abandoned env :: w.history } := if_pos held
  rw [lost]
  refine .of_same modular rfl rfl rfl (fun _ => rfl) (List.suffix_cons _ _) (fun other apart => ?_)
    (fun other apart => if_neg apart) (fun other apart => ?_) ⟨trivial, modular.orderly⟩
    modular.cache (given ▸ guarded) (given ▸ .nil)
    (fun now => (List.mem_cons.mp now).elim (fun new => nomatch new) id)
    (fun now => (List.mem_cons.mp now).elim (fun new => nomatch new) id) .inl
  · exact LockTable.hold?_forfeit_of_ne fun same => apart (congrArg Lock.env same)
  · rw [World.standing, World.standing, given]
    exact others other apart

/-- The owner of the lock begins a module, or has come to the end of one. -/
theorem World.shifts_milestone {count : Nat} {progress : List String} {milestone : Milestone}
    {environments : Array Environment} (modular : w.Modular)
    (owner : w.standing t env = .owner count progress)
    (size : environments.size = w.environments.size)
    (forest : ∀ other, (({ w with environments } : World).environment other).forest =
      (w.environment other).forest)
    (follows : milestone.Follows w.history)
    (elsewhere : ∀ other, env ≠ other →
      inProgress other (milestone :: w.history) = inProgress other w.history)
    (cache : ∀ other, (({ w with environments } : World).environment other).modules =
      completed other (milestone :: w.history))
    (chain : (inProgress env (milestone :: w.history)).IsChain fun later earlier =>
      (w.environment env).forest.Imports earlier later)
    (opened : ∀ frame task, milestone ≠ .opened frame task)
    (linked : ∀ link, milestone ≠ .linked link)
    (filled : ∀ env name frame, milestone = .initialised env name frame →
      .left frame ∉ w.history → w.Filled env name frame) :
    w.Shifts t env { w with environments, history := milestone :: w.history } ∧
      World.standing { w with environments, history := milestone :: w.history } t env =
        .owner count (inProgress env (milestone :: w.history)) := by
  obtain ⟨hold, found, mine, counted, -⟩ := Standing.exists_of_owner owner
  have guarded := modular.guarded env
  rw [found] at guarded
  have standing : World.standing { w with environments, history := milestone :: w.history } t env =
      .owner count (inProgress env (milestone :: w.history)) := by
    rw [World.standing, found, Standing.of_owner mine, counted]
  refine ⟨.of_same modular rfl rfl size forest (List.suffix_cons _ _) (fun _ _ => rfl) elsewhere
    (fun other apart => .inl ?_) ⟨follows, modular.orderly⟩ cache ?_ chain (fun now => ?_)
    (fun now => ?_) (fun {other name frame} now => ?_), standing⟩
  · have apart : hold.owner ≠ other := fun same => apart (same.symm.trans mine)
    rw [World.standing, World.standing, found, Standing.of_other apart, Standing.of_other apart]
  · rw [found]
    exact guarded
  · exact (List.mem_cons.mp now).elim (fun new => absurd new.symm (opened _ _)) id
  · exact (List.mem_cons.mp now).elim (fun new => absurd new.symm (linked _)) id
  · rcases List.mem_cons.mp (mem_completed_iff.mp now) with new | before
    · exact .inr fun whole => filled _ _ _ new.symm fun left => whole (List.mem_cons_of_mem _ left)
    · exact .inl (mem_completed_iff.mpr before)

end ScriptEngine
