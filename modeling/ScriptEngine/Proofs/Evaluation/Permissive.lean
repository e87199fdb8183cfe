import ScriptEngine.Proofs.Evaluation.Statements

/-!
# Disciplines that keep worlds accepted

A world is accepted if all code that it holds, in functions, jobs and modules, suits the site where
it stands, and no incident has happened. Frames keep their entities, so that code in an entity finds
`this` however late it runs. What a discipline asks for beyond that is about the counting of calls
only: all other changes are permitted by themselves, also those that come with modules.

* `World.Accepted`, `World.SameCode`: worlds whose code is as it should be, and what may happen to
  them.
* `Discipline.Open`: the disciplines under which worlds stay accepted and modules may be imported.
* `Discipline.Permissive`: those of them under which little else matters.
* `Eval.importing_open`: what importing a module comes to.
* `Eval.tame_run_open`: evaluation through any number of levels.
-/

namespace ScriptEngine

/-! ## Accepted worlds -/

/-- The code of a function suits the site where the function was made. -/
def Callable.Accepted (w : World) : Callable → Prop
  | .closure definition frame => ∃ t, definition.Suits t ∧ w.Supports t frame
  | .curried target _ _ => target.Accepted w
  | .native _ | .method _ _ | .remote _ _ => True

/-- The code of a task suits its site, at which no loop can be left. -/
def Task.Accepted (w : World) : Task → Prop
  | .block body frame => ∃ t, t.inLoop = false ∧ body.Suits t ∧ w.Supports t frame
  | .program body _ => body.Suits .top
  | .apply _ _ | .method _ _ _ => True

/-- The code of a goal suits its site, and has a frame that supports it. -/
def Goal.Suits {α : Type} (w : World) : Goal α → Prop
  | .expr e frame => ∃ t, e.Suits t ∧ w.Supports t frame
  | .stmt s frame => ∃ t, s.Suits t ∧ w.Supports t frame
  | .block body frame | .inner body frame => ∃ t, body.Suits t ∧ w.Supports t frame
  | .call _ _ _ | .callMethod _ _ _ _ | .callHost _ _ _ | .module _ | .settle _ _ => True

/-- The code of a world suits the sites where it stands, and no incident has happened. -/
structure World.Accepted (w : World) : Prop where
  functions : ∀ callable ∈ w.store.functions, callable.Accepted w
  queue : ∀ job ∈ w.queue, job.task.Accepted w
  modules : ∀ e ∈ w.environments, ∀ m ∈ e.forest.modules, m.tree.body.Suits .top
  clean : w.incidents = []

theorem Callable.Accepted.later {w w' : World} {callable : Callable} (h : callable.Accepted w)
    (later : w.Later w') : callable.Accepted w' := by
  induction callable with
  | closure definition frame =>
    obtain ⟨t, suits, supports⟩ := h
    exact ⟨t, suits, supports.later later⟩
  | curried target bound this ih => exact ih h
  | native builtin => trivial
  | method receiver name => trivial
  | remote name spec => trivial

theorem Task.Accepted.later {w w' : World} {task : Task} (h : task.Accepted w)
    (later : w.Later w') : task.Accepted w' := by
  cases task with
  | block body frame =>
    obtain ⟨t, outside, suits, supports⟩ := h
    exact ⟨t, outside, suits, supports.later later⟩
  | program body args => exact h
  | apply callback args => trivial
  | method entity name args => trivial

/-- Nothing about the code of a world has changed. -/
structure World.SameCode (w w' : World) : Prop where
  later : w.Later w'
  functions : w'.store.functions = w.store.functions
  queue : w'.queue = w.queue
  forests : ∀ e' ∈ w'.environments, ∃ e ∈ w.environments, e'.forest = e.forest
  incidents : w'.incidents = w.incidents

theorem World.SameCode.accepted {w w' : World} (h : w.SameCode w') (accepted : w.Accepted) :
    w'.Accepted where
  functions := fun callable mem =>
    (accepted.functions callable (h.functions ▸ mem)).later h.later
  queue := fun job mem => (accepted.queue job (h.queue ▸ mem)).later h.later
  modules := by
    intro e mem m mem'
    obtain ⟨e', there, same⟩ := h.forests e mem
    exact accepted.modules e' there m (same ▸ mem')
  clean := h.incidents.trans accepted.clean

/-- Parts of the world that hold no code can change. -/
theorem World.SameCode.of_store {w : World} {store : Store}
    (functions : store.functions = w.store.functions)
    (frames : ∀ frame, (w.store.frames.this? frame).isSome → (store.frames.this? frame).isSome) :
    w.SameCode { w with store } :=
  ⟨frames, functions, rfl, fun e mem => ⟨e, mem, rfl⟩, rfl⟩

/-- An environment can change in all but its forest. -/
theorem World.SameCode.modifyEnvironment {w : World} {env : EnvId} {f : Environment → Environment}
    (h : ∀ e, (f e).forest = e.forest) : w.SameCode (w.modifyEnvironment env f) := by
  refine ⟨fun _ has => has, rfl, rfl, fun e mem => ?_, rfl⟩
  obtain ⟨i, bound, rfl⟩ := Array.mem_iff_getElem.mp mem
  rw [World.modifyEnvironment, Array.size_modify] at bound
  refine ⟨w.environments[i], Array.getElem_mem bound, ?_⟩
  simp only [World.modifyEnvironment, Array.getElem_modify]
  split
  · exact h _
  · rfl

/-- The turn has nothing to do with the code of a world. -/
theorem World.SameCode.withTurn (w : World) (turn : Turn) (clock : Nat) :
    w.SameCode { w with turn, clock } :=
  ⟨fun _ has => has, rfl, rfl, fun e mem => ⟨e, mem, rfl⟩, rfl⟩

/-- Nor has the counting of calls. -/
theorem World.SameCode.withCalls (w : World) (turn : Turn) (calls : List CallEvent) :
    w.SameCode { w with turn, calls } :=
  ⟨fun _ has => has, rfl, rfl, fun e mem => ⟨e, mem, rfl⟩, rfl⟩

theorem World.Accepted.withCalls {w : World} (accepted : w.Accepted) (turn : Turn)
    (calls : List CallEvent) : { w with turn, calls }.Accepted :=
  (World.SameCode.withCalls w turn calls).accepted accepted

/-- A frame more is no code. -/
theorem World.SameCode.pushed (w : World) (parent : Option FrameId) (this : Option EntityRef) :
    w.SameCode { w with store.frames := (w.store.frames.push parent this).2 } :=
  .of_store rfl fun _ has => (Frames.this?_push_of_isSome has).symm ▸ has

/-- What is recorded is no code. -/
theorem World.SameCode.record (w : World) (milestone : Milestone) :
    w.SameCode (w.record milestone) :=
  ⟨fun _ has => has, rfl, rfl, fun e mem => ⟨e, mem, rfl⟩, rfl⟩

/-- What a crash has to do with is locks and modules. -/
theorem World.lose_eq (w : World) (task : TaskId) (lock : Lock) :
    ∃ locks history, w.lose task lock = { w with locks, history } := by
  unfold World.lose
  split
  · obtain ⟨env, name⟩ := lock
    cases name <;> exact ⟨_, _, rfl⟩
  · exact ⟨_, _, rfl⟩

/-- To lose a lock has nothing to do with code. -/
theorem World.SameCode.lose (w : World) (task : TaskId) (lock : Lock) :
    w.SameCode (w.lose task lock) := by
  obtain ⟨locks, history, same⟩ := w.lose_eq task lock
  rw [same]
  exact ⟨fun _ has => has, rfl, rfl, fun e mem => ⟨e, mem, rfl⟩, rfl⟩

/-- The function under a number is accepted, also if none was put there. -/
theorem World.Accepted.function {w : World} (accepted : w.Accepted) (id : FunctionId) :
    (w.store.function id).Accepted w := by
  rw [Store.function, Array.getD_eq_getD_getElem?]
  cases found : w.store.functions[id]? with
  | some callable => exact accepted.functions callable (Array.mem_of_getElem? found)
  | none => trivial

/-- So are the modules of every environment, also of one that is not there. -/
theorem World.Accepted.environment {w : World} (accepted : w.Accepted) (env : EnvId) :
    ∀ m ∈ (w.environment env).forest.modules, m.tree.body.Suits .top := by
  rw [World.environment, Array.getD_eq_getD_getElem?]
  cases found : w.environments[env]? with
  | some e => exact accepted.modules e (Array.mem_of_getElem? found)
  | none => exact fun m mem => by cases mem

/-- Other jobs may wait if they are accepted. -/
theorem World.Accepted.withQueue {w : World} (accepted : w.Accepted) {queue : List Job}
    (h : ∀ job ∈ queue, job.task.Accepted w) : { w with queue }.Accepted where
  functions := fun callable mem => (accepted.functions callable mem).later fun _ has => has
  queue := fun job mem => (h job mem).later fun _ has => has
  modules := accepted.modules
  clean := accepted.clean

/-! ## Disciplines that keep worlds accepted -/

/-- Neither whose turn it is nor what calls are counted has changed. -/
structure World.SameCalls (w w' : World) : Prop where
  task : w'.turn.task = w.turn.task
  interpreter : w'.turn.interpreter = w.turn.interpreter
  calls : w'.calls = w.calls

/-- A discipline that keeps worlds accepted and has nothing to do with modules, their locks and their
milestones. Imports may stand anywhere, and names be declared in any frame. -/
class Discipline.Open (d : Discipline) : Prop extends d.Lawful where
  imports : d.imports = True
  roomy (w : World) (frame : FrameId) : d.roomy w frame
  accepted {w : World} : d.sound w → w.Accepted
  beside {w w' : World} : d.sound w → w'.store = w.store → w.SameCode w' → w.SameCalls w' →
    w.SameBindings w' → w.SamePromises w' → d.Leads w w'
  pushRoot {w : World} : d.sound w →
    d.Leads w { w with store.frames := (w.store.frames.push none none).2 } ∧
      d.stands { w with store.frames := (w.store.frames.push none none).2 }
        (w.store.frames.push none none).1
  program {w : World} {env : EnvId} {promise : PromiseId} {body : Block} {args : List Value} :
    d.sound w → body.Suits .top → d.Leads w (w.enqueue ⟨env, promise, .program body args⟩)
  awaken {w w' : World} {wait : Wait} : d.sound w → d.rests w' → d.resumes wait w w' →
    d.Reaches w w' (w'.resume w)

/-- A discipline that allows whatever keeps worlds accepted, frames to their entities and functions as
they are, and has nothing to do with the counting of calls, the bindings of environments and what
happens to promises. Imports and other code may stand anywhere, and names be declared in any frame. -/
class Discipline.Permissive (d : Discipline) : Prop where
  imports : d.imports = True
  roomy (w : World) (frame : FrameId) : d.roomy w frame
  stands (w : World) (frame : FrameId) : d.stands w frame
  homes (w : World) (entity : EntityRef) : d.homes w entity
  accepted {w : World} : d.sound w → w.Accepted
  world_later {w w' : World} : d.later w w' → w.Later w'
  change {w w' : World} : d.sound w → w'.Accepted → w.Later w' → w.SameCalls w' →
    w.SameBindings w' → w.KeepsFunctions w' → w.SamePromises w' → d.Leads w w'
  suspend {w w' : World} {wait : Wait} : d.sound w → d.rests w' → d.resumes wait w w' →
    d.Reaches w w' (w'.resume w)
  call {w : World} {env : EnvId} : d.sound w →
    w.turn.interpreter.depth < (w.environment env).options.maxCallDepth →
    d.Encloses w (w.beginCall env) (·.endCall env)
  interpreter {w : World} (env : EnvId) : d.sound w →
    d.Encloses w (w.newInterpreter env) (·.withInterpreter w.turn.interpreter)
  promising : d.Promising

theorem Callable.accepted_iff {w : World} {callable : Callable} :
    callable.Accepted w ↔ callable.Fits True w := by
  induction callable with
  | closure definition frame =>
    exact exists_congr fun t => and_congr (definition.fits_iff_suits t).symm Iff.rfl
  | curried target bound this ih => exact ih
  | native builtin => exact Iff.rfl
  | method receiver name => exact Iff.rfl
  | remote name spec => exact Iff.rfl

/-- A function that a discipline admits is accepted, if imports may stand anywhere. -/
theorem Discipline.Admits.accepted {d : Discipline} {w : World} {callable : Callable}
    (imports : d.imports = True) (h : d.Admits w callable) : callable.Accepted w := by
  induction callable with
  | closure definition frame =>
    obtain ⟨t, fits, supports⟩ := h
    rw [imports] at fits
    exact ⟨t, (definition.fits_iff_suits t).mp fits, supports.entity⟩
  | curried target bound this ih => exact ih h.1
  | native builtin => trivial
  | method receiver name => trivial
  | remote name spec => trivial

theorem World.Quiet.sameCode {w w' : World} (h : w.Quiet w') : w.SameCode w' where
  later := fun frame has => by
    rw [Frames.this?, Frames.frame?, h.frames]
    exact has
  functions := h.functions
  queue := h.queue
  forests := fun e' mem => by
    obtain ⟨env, bound, same⟩ := Array.mem_iff_getElem.mp mem
    have there : env < w.environments.size := h.size ▸ bound
    have forest := h.forest env
    simp only [environment, Array.getD_eq_getD_getElem?, bound, there, Array.getElem?_eq_getElem,
      Option.getD_some] at forest
    exact ⟨w.environments[env], Array.getElem_mem there, same ▸ forest⟩
  incidents := h.incidents

/-- A function that is accepted may be made. -/
theorem World.Accepted.pushFunction {w : World} {callable : Callable} (accepted : w.Accepted)
    (suits : callable.Accepted w) : (w.pushFunction callable).Accepted := by
  have later : w.Later (w.pushFunction callable) := fun _ has => has
  refine ⟨fun other mem => ?_, accepted.queue, accepted.modules, accepted.clean⟩
  rcases Array.mem_push.mp mem with mem | rfl
  · exact (accepted.functions other mem).later later
  · exact suits.later later

/-- A task that is accepted may wait in the queue. -/
theorem World.Accepted.enqueue {w : World} {job : Job} (accepted : w.Accepted)
    (suits : job.task.Accepted w) : (w.enqueue job).Accepted :=
  have queued := accepted.withQueue (List.forall_mem_cons.mpr ⟨suits, accepted.queue⟩)
  (World.SameCode.withTurn { w with queue := job :: w.queue } { w.turn with rival := true }
    w.clock).accepted queued

theorem Block.fits_of_suits {imports : Prop} (everywhere : imports = True) {body : Block} {t : Site}
    (h : body.Suits t) : body.Fits imports t := by
  rw [everywhere]
  exact (body.fits_iff_suits t).mpr h

theorem Task.Fits.accepted {d : Discipline} {w : World} {task : Task} (imports : d.imports = True)
    (h : task.Fits d w) : task.Accepted w := by
  cases task with
  | block body frame =>
    obtain ⟨t, outside, fits, supports, -⟩ := h
    rw [imports] at fits
    exact ⟨t, outside, (body.fits_iff_suits t).mp fits, supports.entity⟩
  | program body args => exact h.elim
  | apply callback args => trivial
  | method entity name args => trivial

section

variable {d : Discipline} [d.Permissive] {w w' : World}

open Discipline (Permissive)

/-- Whatever changes no code leads from sound worlds to sound ones. -/
theorem World.SameCode.leads (h : w.SameCode w') (same : w.SameCalls w')
    (bindings : w.SameBindings w') (promises : w.SamePromises w') (sound : d.sound w) :
    d.Leads w w' :=
  Permissive.change sound (h.accepted (Permissive.accepted sound)) h.later same bindings
    (.of_functions h.functions) promises

theorem Discipline.leads_enqueue {job : Job} (sound : d.sound w) (suits : job.task.Accepted w) :
    d.Leads w (w.enqueue job) :=
  Permissive.change sound ((Permissive.accepted sound).enqueue suits) (fun _ has => has)
    ⟨rfl, rfl, rfl⟩ (.of_environments rfl) (.of_functions rfl) ⟨rfl, rfl⟩

instance : d.Lawful where
  lasting := fun later =>
    .of_anywhere Permissive.stands Permissive.homes (Permissive.world_later later)
  roomy_later := fun _ _ => Permissive.roomy ..
  homing := .of_any Permissive.homes
  function := fun id sound => by
    rw [Discipline.admits_iff_fits Permissive.stands Permissive.homes, Permissive.imports]
    exact Callable.accepted_iff.mp ((Permissive.accepted sound).function id)
  quiet := fun sound quiet bindings promises =>
    quiet.sameCode.leads ⟨quiet.task, quiet.interpreter, quiet.calls⟩ bindings promises sound
  pushFrame := fun sound _ _ => ⟨(World.SameCode.pushed ..).leads ⟨rfl, rfl, rfl⟩
    (.of_environments rfl) ⟨rfl, rfl⟩ sound, Permissive.roomy .., Permissive.stands ..⟩
  declare := fun sound _ => World.SameCode.leads (.of_store rfl fun frame has =>
    (Frames.this?_declare ..).symm ▸ has) ⟨rfl, rfl, rfl⟩ (.of_environments rfl) ⟨rfl, rfl⟩ sound
  pushFunction := fun {w callable} sound admits =>
    Permissive.change sound
      ((Permissive.accepted sound).pushFunction (admits.accepted Permissive.imports))
      (fun _ has => has) ⟨rfl, rfl, rfl⟩ (.of_environments rfl) (.pushFunction w callable)
      ⟨rfl, rfl⟩
  enqueue := fun sound fits => Discipline.leads_enqueue sound (fits.accepted Permissive.imports)
  suspend := fun sound _ => Permissive.suspend sound
  call := Permissive.call
  interpreter := Permissive.interpreter
  link := fun {w link slot} _ => World.SameCode.leads ⟨fun frame has =>
    (Frames.this?_link ..).symm ▸ has, rfl, rfl, fun e mem => ⟨e, mem, rfl⟩, rfl⟩ ⟨rfl, rfl, rfl⟩
    (.of_environments rfl) ⟨rfl, rfl⟩
  missed := fun _ => (World.SameCode.record ..).leads ⟨rfl, rfl, rfl⟩ (.of_environments rfl)
    ⟨rfl, rfl⟩
  promising := Permissive.promising

instance : d.Open where
  imports := Permissive.imports
  roomy := Permissive.roomy
  accepted := Permissive.accepted
  beside := fun sound _ same calls bindings promises => same.leads calls bindings promises sound
  pushRoot := fun sound => ⟨(World.SameCode.pushed ..).leads ⟨rfl, rfl, rfl⟩ (.of_environments rfl)
    ⟨rfl, rfl⟩ sound, Permissive.stands ..⟩
  program := fun sound suits => Discipline.leads_enqueue sound suits
  awaken := Permissive.suspend

end

namespace Eval

variable {m : Machine} {d : Discipline} [d.Open] {env : EnvId} {base : World}
  {returns loop : Bool}

open Discipline (Open Permissive)

/-! ## Modules -/

/-- A change of what is no code and does not stand in the store. -/
theorem tame_beside {f : World → World} (store : ∀ w : World, (f w).store = w.store)
    (h : ∀ w : World, w.SameCode (f w)) (same : ∀ w : World, w.SameCalls (f w))
    (bindings : ∀ w : World, w.SameBindings (f w)) (promises : ∀ w : World, w.SamePromises (f w)) :
    (modify f : Eval Unit).Tame d env base returns loop :=
  .update fun w sound _ =>
    ⟨Open.beside sound (store w) (h w) (same w) (bindings w) (promises w), trivial⟩

theorem tame_record {f : World → Milestone} :
    (modify fun w => w.record (f w) : Eval Unit).Tame d env base returns loop :=
  tame_beside (fun _ => rfl) (fun _ => .record ..) (fun _ => ⟨rfl, rfl, rfl⟩)
    (fun _ => .of_environments rfl) fun _ => ⟨rfl, rfl⟩

theorem sameCode_initialise {w : World} {env : EnvId} {name : String} {frame : FrameId} :
    w.SameCode (w.initialise env name frame) :=
  have same : w.SameCode (w.modifyEnvironment env fun e =>
      { e with modules := (name, frame) :: e.modules }) := .modifyEnvironment fun _ => rfl
  ⟨same.later, same.functions, same.queue, same.forests, same.incidents⟩

theorem sameBindings_initialise {w : World} {env : EnvId} {name : String} {frame : FrameId} :
    w.SameBindings (w.initialise env name frame) :=
  have same : w.SameBindings (w.modifyEnvironment env fun e =>
      { e with modules := (name, frame) :: e.modules }) :=
    .modifyEnvironment (fun _ => rfl) fun _ => rfl
  ⟨same.size, same.forest, same.grants⟩

/-- A lock has nothing to do with code. -/
theorem tame_acquire_any {lock : Lock} : (acquire lock).Tame d env base returns loop := by
  refine Tame.andThen (tame_beside (fun _ => rfl) (fun w => ?_) (fun _ => ⟨rfl, rfl, rfl⟩)
    (fun _ => .of_environments rfl) fun _ => ⟨rfl, rfl⟩) fun _ => tame_get.map.andThen fun held =>
    .ite (fun _ => ?_) fun _ => tame_pure
  · exact ⟨fun _ has => has, rfl, rfl, fun e mem => ⟨e, mem, rfl⟩, rfl⟩
  · exact fun w sound _ => ⟨d.rests_of_sound sound, d.yields_refl w, fun w' rests resumes =>
      ⟨Open.awaken sound rests resumes, trivial⟩⟩

theorem tame_release_any {lock : Lock} : (release lock).Tame d env base returns loop :=
  tame_beside (fun _ => rfl) (fun _ => ⟨fun _ has => has, rfl, rfl, fun e mem => ⟨e, mem, rfl⟩, rfl⟩)
    (fun _ => ⟨rfl, rfl, rfl⟩) (fun _ => .of_environments rfl) fun _ => ⟨rfl, rfl⟩

/-- The frame of a module is one in which its code may stand. -/
theorem follows_moduleFrame {args : List Value} :
    (moduleFrame args).Follows d env base (fun frame w => d.stands w frame)
      (Signal.Within returns loop) := by
  have made : (newFrame none none).Follows d env base (fun frame w => d.stands w frame)
      (Signal.Within returns loop) := fun _ sound _ => Open.pushRoot sound
  refine made.bind fun frame w later stands => ?_
  refine Follows.andThen tame_record fun _ => Follows.andThen tame_newArray fun _ => ?_
  exact Follows.andThen (tame_declare (Open.roomy ..)) fun _ =>
    .ret fun _ later => (Discipline.Lawful.lasting later).stands stands

/-- The modules of the environment suit the top level. -/
theorem follows_environment {ends : Signal → Prop} :
    environment.Follows d env base
      (fun e _ => ∀ m ∈ e.forest.modules, m.tree.body.Suits .top) ends :=
  .query fun _ sound _ => (Open.accepted sound).environment env

/-- Only a panic comes out of the top level of a module that runs for those that import it. -/
theorem tame_moduleBody (tame : m.Tame d) {body : Block} {frame : FrameId}
    (suits : body.Suits .top) (stands : d.stands base frame) :
    (moduleBody m body frame).Tame d env base false false := by
  have block : (m.run (.block body frame)).Tame d env base true false :=
    tame.block (Block.fits_of_suits Open.imports suits) (.top stands) fun _ => Open.roomy ..
  refine block.attempt.bind fun result w later ended => ?_
  match result with
  | .ok value => exact tame_pure
  | .error (.panic cause) => exact .signal trivial
  | .error (.returning value) => exact tame_record
  | .error .breaking => exact nomatch ended.2 _ rfl
  | .error .continuing => exact nomatch ended.2 _ rfl

/-- Only a panic comes out of a module that runs at the top level. -/
theorem tame_initialised (tame : m.Tame d) {name : String} {body : Block}
    (suits : body.Suits .top) : (initialised m name body).Tame d env base returns loop := by
  refine tame_read.andThen fun env => Tame.andThen tame_record fun _ =>
    follows_moduleFrame.bind fun frame w later stands => ?_
  refine Tame.andThen (tame_moduleBody tame suits stands).contain fun result => ?_
  cases result with
  | ok value =>
    refine Tame.andThen (tame_beside (fun _ => rfl) (fun _ => sameCode_initialise)
      (fun _ => ⟨rfl, rfl, rfl⟩) (fun _ => sameBindings_initialise) fun _ => ⟨rfl, rfl⟩) fun _ => ?_
    exact tame_pure
  | error p => exact Tame.andThen tame_record fun _ => tame_panic

/-- Nor does anything else come out of an import. -/
theorem importing_open : Importing d := by
  intro _ m tame env base name
  refine .underLock (fun _ => tame_acquire_any) ?_ fun _ => tame_release_any
  refine follows_environment.bind fun environment w later accepted => ?_
  cases environment.modules.lookup name with
  | some frame => exact tame_pure
  | none =>
    cases found : environment.forest.module? name with
    | none => exact tame_read.andThen fun env => Tame.andThen tame_record fun _ => tame_panic
    | some m' => exact tame_initialised tame (accepted m' (List.mem_of_find?_eq_some found))

/-! ## Tasks -/

/-- Only a panic comes out of a task that is accepted and whose code may stand where it does. -/
theorem tame_task_of_accepted (tame : m.Tame d) {t : Task} (accepted : t.Accepted base)
    (stands : ∀ body frame, t = .block body frame → d.stands base frame) :
    (task m t).Tame d env base false false := by
  cases t with
  | block body frame =>
    obtain ⟨site, outside, suits, supports⟩ := accepted
    have fits : (Task.block body frame).Fits d base :=
      ⟨site, outside, Block.fits_of_suits Open.imports suits, ⟨supports, stands _ _ rfl⟩,
        Open.roomy ..⟩
    exact tame_task tame fits
  | apply callback args => exact tame.callAlone
  | method entity name args => exact tame.callMethod
  | program body args =>
    refine follows_moduleFrame.bind fun frame w later stands => ?_
    have block : (m.run (.block body frame)).Tame d env w true false :=
      tame.block (Block.fits_of_suits Open.imports accepted) (.top stands) fun _ => Open.roomy ..
    exact block.boundary

/-- Running a module of an environment as a program. -/
theorem tame_program_open {name : String} {args : List Value} :
    (program name args).Tame d env base false false :=
  have lasts {w w' : World} {body : Block} (later : d.later w w')
      (accepted : (Task.program body args).Accepted w) : (Task.program body args).Accepted w' :=
    accepted.later (Discipline.Lawful.world_later later)
  tame_program @lasts (fun sound => (Open.accepted sound).environment env)
    fun sound suits => Open.program sound suits

/-- Evaluation through any number of levels keeps worlds accepted. -/
theorem tame_run_open (levels : Nat) : Machine.Tame d ⟨fun goal => goal.run levels⟩ :=
  tame_run importing_open levels

end Eval

namespace Eval

variable {d : Discipline} [d.Permissive] {env : EnvId} {base : World}

open Discipline (Permissive)

/-- Every goal keeps worlds accepted if its code is at its place, whatever signal may leave it. -/
theorem follows_goal {α : Type} {goal : Goal α} (levels : Nat) (suits : goal.Suits base) :
    (goal.run levels).Follows d env base (fun _ _ => True) fun _ => True := by
  have tame := tame_run_open (d := d) levels
  have imports : d.imports := of_eq_true Permissive.imports
  have anyhow {β : Type} {x : Eval β} {returns loop : Bool}
      (h : x.Tame d env base returns loop) : x.Follows d env base (fun _ _ => True) fun _ => True :=
    h.imp (fun _ _ value => value) fun _ _ => trivial
  cases goal with
  | expr e frame =>
    obtain ⟨t, suits, supports⟩ := suits
    rw [← e.fits_iff_suits, ← Permissive.imports (d := d)] at suits
    exact anyhow (tame.expr suits ⟨supports, Permissive.stands ..⟩)
  | stmt s frame =>
    obtain ⟨t, suits, supports⟩ := suits
    rw [← s.fits_iff_suits, ← Permissive.imports (d := d)] at suits
    exact anyhow (tame.stmt suits ⟨supports, Permissive.stands ..⟩ fun _ => Permissive.roomy ..)
  | block body frame =>
    obtain ⟨t, suits, supports⟩ := suits
    exact anyhow (tame.block (Block.fits_of_suits Permissive.imports suits)
      ⟨supports, Permissive.stands ..⟩ fun _ => Permissive.roomy ..)
  | inner body frame =>
    obtain ⟨t, suits, supports⟩ := suits
    exact anyhow (tame.inner (Block.fits_of_suits Permissive.imports suits)
      ⟨supports, Permissive.stands ..⟩ fun _ => Permissive.roomy ..)
  | call function args this => exact anyhow (tame.call fun _ _ => Permissive.homes ..)
  | callMethod receiver name args viewer => exact anyhow tame.callMethod
  | callHost ref name args => exact anyhow tame.callHost
  | module name => exact anyhow (tame.module imports)
  | settle promise result => exact anyhow tame.settle

end Eval

end ScriptEngine
