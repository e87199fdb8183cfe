import ScriptEngine.Proofs.Modules.TopLevel

/-!
# Running modules for those that import them

Whoever imports a module takes the lock of the environment first. The modules in progress are
imported by one another, so that one which is asked for and is not initialised is not in progress
either.

* `runs_acquire`, `runs_release`, `runs_holdingLock`: under the lock.
* `runs_moduleFrame`: a frame for a module.
* `World.shifts_began`, `World.shifts_initialise`, `World.shifts_failed`: the milestones of a module.
* `runs_initialised`, `runs_imported`: a module that is imported.
* `topLevel_run`: evaluation through any number of levels runs the top level of modules.
-/

namespace ScriptEngine

variable {t : TaskId} {env : EnvId} {w : World} {frame : FrameId} {name : String}
  {items : List ImportItem} {count : Nat} {progress : List String}

/-! ## Under the lock -/

/-- Who holds the lock of an environment holds it some times. -/
theorem World.Modular.count_pos (h : w.Modular)
    (owner : w.standing t env = .owner count progress) : 0 < count := by
  obtain ⟨hold, found, -, rfl, -⟩ := Standing.exists_of_owner owner
  have guarded := h.guarded env
  rw [found] at guarded
  exact guarded.1

namespace Eval

variable {α : Type} {m : Machine} {ends : Signal → Prop} {s : Standing}

/-- A task that asks for the lock of an environment goes on as its owner. -/
theorem runs_acquire :
    (acquire ⟨env, .modules⟩).Runs (.modules t ⟨none, some env⟩) env
      (fun w => w.standing t env = s) (fun _ w => w.standing t env = s.taken) ends := by
  rintro w sound rfl
  have shifts := World.shifts_acquire sound env
  have asked := Standing.of_acquire (sound.1.guarded env) (sound.2.2 env)
  have run : acquire ⟨env, .modules⟩ env w =
      (if !(w.locks.acquire ⟨env, .modules⟩ w.turn.task).isHeldBy ⟨env, .modules⟩ w.turn.task then
        suspend (.lock ⟨env, .modules⟩) else pure () : Eval Unit) env
        { w with locks := w.locks.acquire ⟨env, .modules⟩ w.turn.task } := rfl
  rw [run, sound.2.1]
  cases held : (w.locks.acquire ⟨env, .modules⟩ t).isHeldBy ⟨env, .modules⟩ t with
  | true =>
    rw [if_pos held] at asked
    obtain ⟨count, progress, owner⟩ := Standing.isHeldBy_iff.mp held
    refine ⟨shifts.leads sound rfl ?_, asked⟩
    rw [World.standing, owner]
    intro queued
    cases queued
  | false =>
    rw [if_neg (by simp [held])] at asked
    refine ⟨shifts.modular, shifts.relies, fun w' modular returns => ?_⟩
    obtain ⟨relies, holds⟩ := returns
    -- The task has waited, and the lock is its own now.
    have owner : w'.standing t env = .owner 1 [] := by
      rcases relies.standing env with same | ⟨-, owner⟩
      · obtain ⟨_, _, mine⟩ := Standing.isHeldBy_iff.mp (holds _ rfl)
        rw [World.standing, mine] at same
        cases same.trans asked.2
      · exact owner
    have waited : World.Stays t ⟨none, some env⟩ _ w' := relies.stays fun other free => by
      rw [shifts.stays.standing other free]
      exact sound.2.2 other
    have steady : w'.Steady (w'.resume w) := .withTurn w' _ w'.clock
    have modular' : (w'.resume w).Modular := steady.modular_of_same modular rfl rfl
    have stays := (shifts.stays.trans waited).trans (steady.stays modular)
    have taken : (w'.resume w).standing t env = (w.standing t env).taken := by
      have outside : w.standing t env = .outside := asked.1
      rw [steady.standing, owner, outside]
      rfl
    have settled (other : EnvId) : (w'.resume w).standing t other ≠ .queued := by
      by_cases same : some env = some other
      · cases same
        rw [steady.standing, owner]
        intro queued
        cases queued
      · rw [stays.standing other same]
        exact sound.2.2 other
    exact ⟨⟨⟨modular', sound.2.1, settled⟩, stays, fun _ _ => steady.relies modular⟩, taken⟩

/-- A task that gives the lock back stands as it did before it took it. -/
theorem runs_release (settled : s ≠ .queued)
    (held : ∀ count progress, s = .owner count progress → 0 < count) :
    (release ⟨env, .modules⟩).Runs (.modules t ⟨none, some env⟩) env
      (fun w => w.standing t env = s.taken) (fun _ w => w.standing t env = s) ends :=
  .update fun w sound taken => by
    obtain ⟨shifts, back⟩ := World.shifts_release sound settled held taken
    exact ⟨shifts.leads sound rfl (back ▸ settled), back⟩

/-- What a task evaluates under the lock of modules leaves it standing as before. -/
theorem runs_holdingLock {x : Eval α} {pre inside : World → Prop} {post : α → World → Prop}
    (h : x.Runs (.modules t ⟨none, none⟩) env inside post ends)
    (enter : ∀ {w w'}, pre w → w.Stays t ⟨none, some env⟩ w' →
      w'.standing t env = (w.standing t env).taken → inside w')
    (leave : ∀ {v w w'}, post v w → w.Continues w' → post v w') :
    (holdingLock .modules x).Runs (.modules t ⟨none, none⟩) env pre post ends := by
  intro w sound holds
  have weaker (x : Slack) : (Discipline.modules t x).Weaker (.modules t ⟨none, none⟩) :=
    Discipline.weaker_modules ..
  change ((acquire ⟨env, .modules⟩ >>= _) env w).Follows _ _ _ _ _
  rw [bind_eq]
  refine (runs_acquire w sound rfl).through (weaker _) fun _ w₁ sound₁ taking taken => ?_
  rw [bind_eq]
  refine (h.attempt w₁ sound₁ (enter holds taking taken)).through (weaker _)
    fun result w₂ sound₂ stays ended => ?_
  rw [bind_eq]
  have taken₂ := (stays.standing env nofun).trans taken
  refine (runs_release (sound.2.2 env) (fun _ _ => sound.1.count_pos) w₂ sound₂ taken₂).through
    (weaker _) fun _ w₃ sound₃ giving back => ?_
  have stays₃ : w.Stays t ⟨none, none⟩ w₃ :=
    ((taking.trans (stays.slacken nofun nofun)).trans giving).restore back
  cases result with
  | ok value => exact ⟨⟨sound₃, stays₃, fun _ _ => .refl _ _⟩, leave (ended.1 _ rfl) giving.continues⟩
  | error s => exact ⟨⟨sound₃, stays₃, fun _ _ => .refl _ _⟩, ended.2 _ rfl⟩

/-! ## Frames of modules -/

/-- A task makes a frame of its own for a module, in which nothing but the arguments of the program is
declared. -/
theorem runs_moduleFrame {args : List Value} {start : World} {body : Block}
    (distinct : body.declared.Nodup)
    (may : ∀ s ∈ body.statements, ∀ items source, s.import? = some (items, source) →
      start.MayImport t env items source) :
    (moduleFrame args).Runs (.modules t ⟨none, none⟩) env (fun w => w = start)
      (fun frame w => ¬ start.Opened frame t ∧
        w.Fills t env frame body (Stmt.allNames body.statements)) ends := by
  rintro w sound rfl
  let frame := w.store.frames.frames.size
  let opened := w.pushRoot.record (.opened frame t)
  have leads : (Discipline.modules t ⟨none, none⟩).Leads w opened := Discipline.leads_pushRoot sound
  have fresh : ¬ w.Opened frame t := fun before => by
    obtain ⟨_, found, -⟩ := sound.1.roots before
    exact Nat.lt_irrefl _ (Frames.lt_size_of_frame? found)
  have fills : opened.Fills t env frame body (argsName :: Stmt.allNames body.statements) := by
    refine ⟨List.mem_cons_self, distinct, fun name _ => ?_, fun _ mem => .inl mem,
      fun s mem items source imports => (may s mem items source imports).stays leads.later⟩
    have found : opened.store.frames.frame? frame = some ⟨[], none, none⟩ :=
      Frames.frame?_push.trans (if_pos rfl)
    rw [Frames.localSlot?_of_frame? found]
    rfl
  have rest : (do declare frame argsName (← newArray args); return frame : Eval FrameId).Runs
      (.modules t ⟨some frame, none⟩) env
      (World.Fills t env frame body (argsName :: Stmt.allNames body.statements))
      (fun frame' w => frame' = frame ∧
        w.Fills t env frame' body (Stmt.allNames body.statements)) ends :=
    (fills_of_follows fun _ => follows_make fun _ => .of_arenas rfl rfl rfl rfl).bind fun _ =>
      runs_declare.bind fun _ => .ret fun _ fills => ⟨rfl, fills⟩
  have run : moduleFrame args env w =
      (do declare frame argsName (← newArray args); return frame : Eval FrameId) env
        (w.pushRoot.record (.opened frame w.turn.task)) := rfl
  rw [run, sound.2.1]
  have later {w'} (stays : opened.Stays t ⟨some frame, none⟩ w') : w.Stays t ⟨none, none⟩ w' :=
    ((leads.later.slacken nofun nofun).trans stays).unopened fresh
  refine (((rest opened leads.sound fills).weaken (Discipline.weaker_modules ..) fun _ =>
    later).behind leads.yields).imp ?_ fun _ within => within
  rintro frame' w' ⟨⟨rfl, filled⟩, -⟩
  exact ⟨fresh, filled⟩

/-- A module that comes to its end has declared all its names, unless a return has left it. -/
theorem runs_moduleBody {body : Block} (top : m.TopLevel t) (fits : body.TopLevel) :
    (moduleBody m body frame).Runs (.modules t ⟨some frame, none⟩) env
      (World.Fills t env frame body (Stmt.allNames body.statements))
      (fun _ w => .left frame ∉ w.history →
        ∀ name ∈ body.declared, (w.store.frames.localSlot? frame name).isSome)
      (Signal.Within false false) := by
  intro w sound fills
  rw [moduleBody, bind_eq]
  refine ((top.block fits).attempt w sound fills).bind fun result w₁ sound₁ stays ended => ?_
  match result with
  | .ok value => exact ⟨.refl sound₁, fun _ => (ended.1 value rfl).isSome⟩
  | .error (.panic cause) => exact ⟨.refl sound₁, trivial⟩
  | .error (.returning value) =>
    have left : (Discipline.modules t ⟨some frame, none⟩).Leads w₁ (w₁.record (.left frame)) :=
      Discipline.leads_record sound₁ ⟨t, stays.continues.opened fills.opened⟩ (fun _ => rfl)
        (fun _ => rfl) (fun _ _ no => by cases no) fun _ no => by cases no
    exact ⟨left, fun whole => absurd List.mem_cons_self whole⟩
  | .error .breaking => exact nomatch ended.2 _ rfl
  | .error .continuing => exact nomatch ended.2 _ rfl

end Eval

/-! ## Milestones -/

/-- Of the modules in progress each one imports those that have begun behind it, be it through
others. -/
theorem Forest.reflTransGen_of_chain {f : Forest} {importer : String} {earlier : List String}
    (chain : (importer :: earlier).IsChain fun later before => f.Imports before later)
    (mem : name ∈ importer :: earlier) : Relation.ReflTransGen f.Imports name importer := by
  induction earlier generalizing importer with
  | nil => exact List.mem_singleton.mp mem ▸ .refl
  | cons before earlier ih =>
    rcases List.mem_cons.mp mem with rfl | mem
    · exact .refl
    · obtain ⟨imports, chain⟩ := List.isChain_cons_cons.mp chain
      exact (ih chain mem).tail imports

/-- A module that may be imported is not in progress. -/
theorem World.Modular.not_mem_inProgress (h : w.Modular)
    (owner : w.standing t env = .owner count progress) (may : w.MayImport t env items name) :
    name ∉ inProgress env w.history := by
  obtain ⟨-, -, -, -, rfl⟩ := Standing.exists_of_owner owner
  intro mem
  cases none : inProgress env w.history with
  | nil => rw [none] at mem; cases mem
  | cons importer earlier =>
    rw [none] at mem owner
    have chain := h.chain env
    rw [none] at chain
    exact (h.forests env).acyclic name
      (.tail' (Forest.reflTransGen_of_chain chain mem) (may.chain owner))

/-- The owner of the lock begins a module that is neither in progress nor initialised. -/
theorem World.shifts_began (modular : w.Modular) (owner : w.standing t env = .owner count progress)
    (may : w.MayImport t env items name) (new : name ∉ (completed env w.history).map (·.1)) :
    w.Shifts t env (w.record (.began env name)) ∧
      (w.record (.began env name)).standing t env = .owner count (name :: progress) := by
  have idle := modular.not_mem_inProgress owner may
  obtain ⟨-, -, -, -, rfl⟩ := Standing.exists_of_owner owner
  have now : inProgress env (.began env name :: w.history) = name :: inProgress env w.history :=
    if_pos rfl
  rw [← now]
  refine shifts_milestone modular owner rfl (fun _ => rfl) ⟨idle, new⟩ (fun _ apart => if_neg apart)
    modular.cache ?_ nofun nofun nofun
  rw [now]
  have chain := modular.chain env
  cases before : inProgress env w.history with
  | nil => exact List.isChain_singleton _
  | cons importer earlier =>
    rw [before] at owner chain
    exact List.isChain_cons_cons.mpr ⟨may.chain owner, chain⟩

/-- The owner of the lock keeps the frame of a module that has come to its end. -/
theorem World.shifts_initialise (modular : w.Modular)
    (owner : w.standing t env = .owner count (name :: progress)) (opened : w.Opened frame t)
    (there : env < w.environments.size)
    (filled : .left frame ∉ w.history → w.Filled env name frame) :
    w.Shifts t env (w.initialise env name frame) ∧
      (w.initialise env name frame).standing t env = .owner count progress := by
  obtain ⟨-, -, -, -, before⟩ := Standing.exists_of_owner owner
  have now : inProgress env (.initialised env name frame :: w.history) = progress :=
    (if_pos rfl).trans (congrArg List.tail before.symm)
  have chain := modular.chain env
  rw [← before] at chain
  rw [← now]
  refine shifts_milestone modular owner Array.size_modify (fun other => ?_)
    ⟨by rw [← before]; rfl, t, opened⟩ (fun _ apart => if_neg apart) (fun other => ?_)
    (now ▸ chain.tail) nofun nofun fun _ _ _ same => by cases same; exact filled
  · refine congrArg Environment.forest (w.environment_modifyEnvironment env other _) |>.trans ?_
    split <;> rfl
  · refine congrArg Environment.modules (w.environment_modifyEnvironment env other _) |>.trans ?_
    by_cases same : env = other
    · subst same
      rw [if_pos ⟨rfl, there⟩, completed, if_pos rfl, ← modular.cache]
    · rw [if_neg fun both => same both.1, completed, if_neg same, modular.cache]

/-- The owner of the lock gives up a module that has panicked. -/
theorem World.shifts_failed (modular : w.Modular)
    (owner : w.standing t env = .owner count (name :: progress)) (cause : Panic) :
    w.Shifts t env (w.record (.failed env name cause)) ∧
      (w.record (.failed env name cause)).standing t env = .owner count progress := by
  obtain ⟨-, -, -, -, before⟩ := Standing.exists_of_owner owner
  have now : inProgress env (.failed env name cause :: w.history) = progress :=
    (if_pos rfl).trans (congrArg List.tail before.symm)
  have chain := modular.chain env
  rw [← before] at chain
  rw [← now]
  have ends : Milestone.Follows w.history (.failed env name cause) := by
    rw [Milestone.Follows, ← before]
    rfl
  exact shifts_milestone modular owner rfl (fun _ => rfl) ends (fun _ apart => if_neg apart)
    modular.cache (now ▸ chain.tail) nofun nofun nofun

/-! ## Modules -/

namespace Eval

variable {m : Machine}

/-- What asking for a module comes to. -/
theorem loaded_eq {name : String} : loaded m name env w =
    match (w.environment env).modules.lookup name with
    | some frame => .done frame w
    | none =>
      match (w.environment env).forest.module? name with
      | none => .stopped (.signal (.panic (.noModule name))) (w.record (.unknown env name))
      | some found => initialised m name found.tree.body env w := by
  rw [loaded, bind_eq]
  show (match (w.environment env).modules.lookup name with
    | some frame => return frame
    | none =>
      match (w.environment env).forest.module? name with
      | none => do
        let env ← read
        modify (·.record (.unknown env name))
        panic (.noModule name)
      | some found => initialised m name found.tree.body : Eval FrameId) env w = _
  cases (w.environment env).modules.lookup name with
  | some frame => rfl
  | none => cases (w.environment env).forest.module? name <;> rfl

/-- What running a module for others comes to. -/
theorem initialised_eq {body : Block} : initialised m name body env w =
    (moduleFrame [] env (w.record (.began env name))).bind fun frame w =>
      (contain (moduleBody m body frame) env w).bind fun result w =>
        match result with
        | .ok _ => .done frame (w.initialise env name frame)
        | .error p => .stopped (.signal (.panic p)) (w.record (.failed env name p)) := by
  rw [initialised, bind_eq]
  change (((modify fun w : World => w.record (.began env name) : Eval Unit) >>= _) env w) = _
  rw [bind_eq]
  change ((moduleFrame [] >>= _) env (w.record (.began env name))) = _
  rw [bind_eq]
  congr 1
  funext frame w
  rw [bind_eq]
  congr 1
  funext result w
  cases result <;> rfl

/-- A module that is neither in progress nor initialised comes to its end, or panics and has neither
begun nor ended then. -/
theorem runs_initialised (top : m.TopLevel t) {found : AnalysedModule} :
    (initialised m name found.tree.body).Runs (.modules t ⟨none, none⟩) env
      (fun w => (∃ count progress, w.standing t env = .owner count progress) ∧
        w.MayImport t env items name ∧ name ∉ (completed env w.history).map (·.1) ∧
        (w.environment env).forest.module? name = some found)
      (fun frame w => (name, frame) ∈ completed env w.history) (Signal.Within false false) := by
  rintro w sound ⟨⟨count, progress, owner⟩, may, new, there⟩
  have weaker (x : Slack) : (Discipline.modules t x).Weaker (.modules t ⟨none, none⟩) :=
    Discipline.weaker_modules ..
  have settled {w' : World} {count : Nat} {progress : List String}
      (owner : w'.standing t env = .owner count progress) : w'.standing t env ≠ .queued := by
    rw [owner]
    exact nofun
  obtain ⟨mem, named⟩ := Forest.mem_of_module? there
  have fits := (sound.1.forests env).topLevel found mem
  obtain ⟨begins, began⟩ := World.shifts_began sound.1 owner may new
  have sound₀ := (begins.leads sound rfl (settled began)).sound
  refine Progress.Follows.behind ?_ begins.relies
  rw [initialised_eq]
  -- What the module imports is what it may import, since it has begun.
  have may₀ : ∀ s ∈ found.tree.body.statements, ∀ items source, s.import? = some (items, source) →
      (w.record (.began env name)).MayImport t env items source := by
    intro s mem' items source imports
    obtain ⟨offers, imports⟩ := (sound.1.forests env).offers mem mem' imports
    refine ⟨offers, fun owner' => ?_⟩
    rw [began] at owner'
    cases owner'
    exact named ▸ imports
  refine (runs_moduleFrame fits.distinct may₀ _ sound₀ rfl).through (weaker _)
    fun frame w₁ sound₁ stays₁ ⟨fresh, fills⟩ => ?_
  refine ((runs_moduleBody top fits).contain w₁ sound₁ fills).through (weaker _)
    fun result w₂ sound₂ stays₂ whole => ?_
  have owner₂ := ((stays₂.standing env nofun).trans (stays₁.standing env nofun)).trans began
  -- However the module has ended, its task stands as before.
  have ended {w₃ : World} (shifts : w₂.Shifts t env w₃)
      (back : w₃.standing t env = .owner count progress)
      (task : w₃.turn.task = w₂.turn.task) :
      (Discipline.modules t ⟨none, none⟩).Reaches w w₂ w₃ := by
    let x : Slack := ⟨some frame, some env⟩
    have before : w.Stays t x (w.record (.began env name)) :=
      begins.stays.slacken nofun fun _ same => same
    have during : (w.record (.began env name)).Stays t x w₂ :=
      (stays₁.slacken nofun nofun).trans (stays₂.slacken (fun _ same => same) nofun)
    have after : w₂.Stays t x w₃ := shifts.stays.slacken nofun fun _ same => same
    have all := ((before.trans during).trans after).restore (back.trans owner.symm)
    exact ⟨(shifts.leads sound₂ task (settled back)).sound,
      all.unopened fun opened => fresh (before.continues.opened opened), shifts.relies⟩
  cases result with
  | ok value =>
    have continues := (begins.stays.continues.trans stays₁.continues).trans stays₂.continues
    have bound := World.lt_size_of_mem mem
    obtain ⟨shifts, back⟩ := World.shifts_initialise sound₂.1 owner₂
      (stays₂.continues.opened fills.opened) (Nat.lt_of_lt_of_le bound continues.size)
      fun unleft other found' => by
        rw [continues.forest env bound, there] at found'
        cases found'
        exact whole value rfl unleft
    exact ⟨ended shifts back rfl, mem_completed_iff.mpr List.mem_cons_self⟩
  | error p =>
    obtain ⟨shifts, back⟩ := World.shifts_failed sound₂.1 owner₂ p
    exact ⟨ended shifts back rfl, trivial⟩

/-- A module that is imported is initialised then. -/
theorem runs_imported (top : m.TopLevel t) :
    (imported m name).Runs (.modules t ⟨none, none⟩) env (World.MayImport t env items name)
      (fun frame w => (name, frame) ∈ completed env w.history) (Signal.Within false false) := by
  let inside (w : World) : Prop :=
    (∃ count progress, w.standing t env = .owner count progress) ∧ w.MayImport t env items name
  refine runs_holdingLock (fun w sound (held : inside w) => ?_) (fun {w w'} may stays taken => ?_)
    fun done continues => mem_completed_iff.mpr (continues.history.subset (mem_completed_iff.mp done))
  · obtain ⟨owner, may⟩ := held
    obtain ⟨found, there, -⟩ := may.offers
    rw [loaded_eq, there]
    cases cached : (w.environment env).modules.lookup name with
    | some frame =>
      obtain ⟨before, behind, same, -⟩ := List.lookup_eq_some_iff.mp cached
      have done : (name, frame) ∈ completed env w.history := by
        rw [← sound.1.cache, same]
        exact List.mem_append_right _ List.mem_cons_self
      exact ⟨.refl sound, done⟩
    | none =>
      refine runs_initialised top w sound ⟨owner, may, fun done => ?_, there⟩
      rw [← sound.1.cache] at done
      obtain ⟨entry, mem, rfl⟩ := List.mem_map.mp done
      exact absurd (List.lookup_eq_none_iff.mp cached entry mem) (by simp)
  · refine ⟨?_, stays.continues.offers may.offers, fun owner => ?_⟩
    · cases standing : w.standing t env with
      | owner count progress => exact ⟨count + 1, progress, by rw [taken, standing]; rfl⟩
      | outside | queued => exact ⟨1, [], by rw [taken, standing]; rfl⟩
    · rw [taken] at owner
      cases standing : w.standing t env with
      | owner count' progress =>
        rw [standing] at owner
        cases owner
        exact stays.continues.imports (may.chain standing)
      | outside | queued =>
        rw [standing] at owner
        cases owner

/-! ## Levels -/

/-- One step of evaluation runs the top level of modules if the machine below it does. -/
theorem topLevel_step (tame : m.Tame (.modules t ⟨none, none⟩)) (top : m.TopLevel t) :
    Machine.TopLevel t ⟨fun goal => step m goal⟩ where
  stmt fits among := runs_topStatement tame top fits among
  block fits := runs_topBlock tame top fits
  module := runs_imported top

/-- Evaluation through any number of levels keeps to the discipline of modules. -/
theorem tame_run_modules (t : TaskId) (levels : Nat) :
    Machine.Tame (.modules t ⟨none, none⟩) ⟨fun goal => goal.run levels⟩ :=
  tame_run (fun no => False.elim no) levels

/-- Evaluation through any number of levels runs the top level of modules. -/
theorem topLevel_run (t : TaskId) (levels : Nat) :
    Machine.TopLevel t ⟨fun goal => goal.run levels⟩ := by
  induction levels with
  | zero =>
    have unfinished {α : Type} {x : Slack} {env : EnvId} {pre : World → Prop}
        {post : α → World → Prop} {ends : Signal → Prop} :
        (Eval.unfinished : Eval α).Runs (.modules t x) env pre post ends :=
      fun w sound _ => ⟨sound.1, fun other _ => .refl other w⟩
    exact ⟨fun _ _ => unfinished, fun _ => unfinished, unfinished⟩
  | succ levels ih => exact topLevel_step (tame_run_modules t levels) ih

end Eval

end ScriptEngine
