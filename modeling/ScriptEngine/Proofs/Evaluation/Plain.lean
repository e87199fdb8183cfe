import ScriptEngine.Evaluation.Run
import ScriptEngine.Proofs.Evaluation.Discipline
import ScriptEngine.Proofs.Evaluation.Locks
import ScriptEngine.Proofs.Store.Entities
import ScriptEngine.Proofs.Store.Frames
import ScriptEngine.Proofs.Tree.Imports

/-!
# Plain operations under a discipline

Most operations of an evaluation touch nothing that a discipline is about. The others make frames,
declare names, keep code for later, and wait. A lawful discipline allows all of these, as long as
the code is at its place and names are declared where there is room.

* `World.Supports`: a frame has the entity that a site asks for.
* `Store.Quiet`, `World.Quiet`, `World.SameBindings`: the changes that no discipline minds.
* `Discipline.Supports`: a frame is as a discipline and a site ask for.
* `Discipline.Lawful`: the disciplines under which code can be evaluated.
* `Signal.Within`, `Eval.Tame`: the signals that may leave code of a kind, and the evaluations that
  follow a discipline and are left by such signals only.
* `tame_ask`, `Tame.contain`, `tame_suspend` and the others: the plain operations.
-/

namespace ScriptEngine

/-! ## Frames and entities -/

/-- A frame belongs to an entity, if the site of the code in it is in one. -/
def World.Supports (w : World) (t : Site) (frame : FrameId) : Prop :=
  t.inEntity = true → (w.store.frames.this? frame).isSome

/-- Frames that belong to an entity go on to belong to one. -/
def World.Later (w w' : World) : Prop :=
  ∀ frame, (w.store.frames.this? frame).isSome → (w'.store.frames.this? frame).isSome

theorem World.Later.refl (w : World) : w.Later w :=
  fun _ has => has

theorem World.Later.trans {a b c : World} (h : a.Later b) (h' : b.Later c) : a.Later c :=
  fun frame has => h' frame (h frame has)

theorem World.Supports.later {w w' : World} {t : Site} {frame : FrameId} (h : w.Supports t frame)
    (later : w.Later w') : w'.Supports t frame :=
  fun inside => later frame (h inside)

/-- No code at the top level stands in an entity. -/
theorem World.Supports.top {w : World} {frame : FrameId} : w.Supports .top frame :=
  fun inEntity => by cases inEntity

/-- A frame that belongs to an entity suits code in an entity. -/
theorem World.supports_of_this {w : World} {t : Site} {entity : EntityRef} {frame : FrameId}
    (belongs : w.store.frames.this? frame = some entity) : w.Supports t frame :=
  fun _ => belongs ▸ rfl

/-- Adding a frame does not change to which entity another one belongs. -/
theorem Frames.this?_push_of_isSome {s : Frames} {parent : Option FrameId}
    {this : Option EntityRef} {frame : FrameId} (h : (s.this? frame).isSome) :
    (s.push parent this).2.this? frame = s.this? frame := by
  have bound : frame < s.frames.size := by
    refine Nat.lt_of_not_le fun outside => ?_
    simp [this?, frame?, Array.getElem?_eq_none outside] at h
  simp [this?, frame?, push, Array.getElem?_push, Nat.ne_of_lt bound]

/-- A frame that is added belongs to the entity it is given. -/
@[simp]
theorem Frames.this?_push (s : Frames) (parent : Option FrameId) (this : Option EntityRef) :
    (s.push parent this).2.this? (s.push parent this).1 = this := by
  simp [this?, frame?, push]

/-- What the names of a frame mean has nothing to do with its entity. -/
@[simp]
theorem Frames.this?_link (s : Frames) (id : FrameId) (name : String) (slot : SlotId)
    (frame : FrameId) : (s.link id name slot).this? frame = s.this? frame := by
  simp only [this?, frame?, link, Array.getElem?_modify]
  split
  · cases s.frames[frame]? <;> rfl
  · rfl

@[simp]
theorem Frames.this?_declare (s : Frames) (id : FrameId) (name : String) (value : Value)
    (frame : FrameId) : (s.declare id name value).this? frame = s.this? frame :=
  this?_link ..

/-! ## Stores -/

/-- A change of what holds no code, no names and no promises. No entity is lost. -/
structure Store.Quiet (s s' : Store) : Prop where
  functions : s'.functions = s.functions
  frames : s'.frames = s.frames
  promises : s'.promises = s.promises
  entities (env : EnvId) : (s.arena env).size ≤ (s'.arena env).size

namespace Store.Quiet

variable {s s' s'' : Store}

/-- Nothing happens to entities. -/
theorem of_arenas (functions : s'.functions = s.functions) (frames : s'.frames = s.frames)
    (promises : s'.promises = s.promises) (arenas : s'.arenas = s.arenas) : s.Quiet s' where
  functions := functions
  frames := frames
  promises := promises
  entities env := Nat.le_of_eq (by rw [arena, arena, arenas])

theorem refl (s : Store) : s.Quiet s := of_arenas rfl rfl rfl rfl

theorem trans (h : s.Quiet s') (h' : s'.Quiet s'') : s.Quiet s'' where
  functions := h'.functions.trans h.functions
  frames := h'.frames.trans h.frames
  promises := h'.promises.trans h.promises
  entities env := Nat.le_trans (h.entities env) (h'.entities env)

/-- Nothing but entities has changed, and these are still there. -/
theorem modifyArena (s : Store) (env : EnvId) {f : Arena → Arena}
    (grows : ∀ a : Arena, a.size ≤ (f a).size) : s.Quiet (s.modifyArena env f) :=
  ⟨rfl, rfl, rfl, size_arena_modifyArena grows⟩

theorem newEntity (s : Store) (env : EnvId) (base : Option Nat) :
    s.Quiet (s.newEntity env base).2 :=
  ⟨rfl, rfl, rfl, size_arena_newEntity env base⟩

theorem define (s : Store) (entity : EntityRef) (name : String) (value : Value) :
    s.Quiet (s.define entity name value) :=
  ⟨rfl, rfl, rfl, size_arena_define⟩

theorem setMember (s : Store) (entity : EntityRef) (name : String) (value : Value) :
    s.Quiet (s.setMember entity name value) :=
  ⟨rfl, rfl, rfl, size_arena_setMember⟩

end Store.Quiet

mutual

/-- Making the script value of a host value makes no code and no promises. -/
theorem Store.quiet_ofHost (s : Store) (value : HostValue) : s.Quiet (s.ofHost value).2 := by
  cases value with
  | null | bool value | number value | string value | object ref =>
    simpa only [ofHost] using Quiet.refl s
  | list items =>
    exact (s.quiet_ofHostItems items).trans (.of_arenas rfl rfl rfl rfl)
  | map entries =>
    exact (s.quiet_ofHostEntries entries).trans (.of_arenas rfl rfl rfl rfl)

theorem Store.quiet_ofHostItems (s : Store) (items : List HostValue) :
    s.Quiet (s.ofHostItems items).2 := by
  match items with
  | [] => exact .refl s
  | item :: items => exact (s.quiet_ofHost item).trans ((s.ofHost item).2.quiet_ofHostItems items)

theorem Store.quiet_ofHostEntries (s : Store) (entries : List (String × HostValue)) :
    s.Quiet (s.ofHostEntries entries).2 := by
  match entries with
  | [] => exact .refl s
  | (key, value) :: entries =>
    exact (s.quiet_ofHost value).trans ((s.ofHost value).2.quiet_ofHostEntries entries)

end

/-! ## Disciplines for code -/

/-- A frame is one in which code of a task may stand, and belongs to an entity if the site of that code
is in one. -/
structure Discipline.Supports (d : Discipline) (w : World) (t : Site) (frame : FrameId) : Prop where
  entity : w.Supports t frame
  stands : d.stands w frame

/-- No code at the top level stands in an entity. -/
theorem Discipline.Supports.top {d : Discipline} {w : World} {frame : FrameId}
    (stands : d.stands w frame) : d.Supports w .top frame :=
  ⟨.top, stands⟩

/-- Neither loops nor bodies have to do with entities. -/
theorem Discipline.Supports.loop {d : Discipline} {w : World} {t : Site} {frame : FrameId}
    (h : d.Supports w t frame) : d.Supports w t.loop frame :=
  ⟨h.entity, h.stands⟩

theorem Discipline.Supports.body {d : Discipline} {w : World} {t : Site} {frame : FrameId}
    (h : d.Supports w t frame) : d.Supports w t.body frame :=
  ⟨h.entity, h.stands⟩

/-- What a discipline asks of frames lasts. -/
structure Discipline.Lasting (d : Discipline) (w w' : World) : Prop where
  later : w.Later w'
  stands {frame : FrameId} : d.stands w frame → d.stands w' frame
  homes {entity : EntityRef} : d.homes w entity → d.homes w' entity

theorem Discipline.Lasting.trans {d : Discipline} {a b c : World} (h : d.Lasting a b)
    (h' : d.Lasting b c) : d.Lasting a c :=
  ⟨h.later.trans h'.later, fun stands => h'.stands (h.stands stands), fun homes =>
    h'.homes (h.homes homes)⟩

/-- It does if frames may stand anywhere and belong to any entity. -/
theorem Discipline.Lasting.of_anywhere {d : Discipline} {w w' : World}
    (stands : ∀ w frame, d.stands w frame) (homes : ∀ w entity, d.homes w entity)
    (later : w.Later w') : d.Lasting w w' :=
  ⟨later, fun _ => stands _ _, fun _ => homes _ _⟩

theorem Discipline.Supports.later {d : Discipline} {w w' : World} {t : Site} {frame : FrameId}
    (h : d.Supports w t frame) (lasting : d.Lasting w w') : d.Supports w' t frame :=
  ⟨h.entity.later lasting.later, lasting.stands h.stands⟩

/-- The code of a function fits the site where the function was made. -/
def Callable.Fits (imports : Prop) (w : World) : Callable → Prop
  | .closure definition frame => ∃ t, definition.Fits imports t ∧ w.Supports t frame
  | .curried target _ _ => target.Fits imports w
  | .native _ | .method _ _ | .remote _ _ => True

theorem Callable.Fits.later {imports : Prop} {callable : Callable} {w w' : World}
    (h : callable.Fits imports w)
    (later : w.Later w') : callable.Fits imports w' := by
  induction callable with
  | closure definition frame =>
    obtain ⟨t, fits, supports⟩ := h
    exact ⟨t, fits, supports.later later⟩
  | curried target bound this ih => exact ih h
  | native builtin => trivial
  | method receiver name => trivial
  | remote name spec => trivial

/-- Its code fits that site in a frame where it may stand, and it may be bound to its entity. -/
def Discipline.Admits (d : Discipline) (w : World) : Callable → Prop
  | .closure definition frame => ∃ t, definition.Fits d.imports t ∧ d.Supports w t frame
  | .curried target _ this => d.Admits w target ∧ ∀ entity ∈ this, d.homes w entity
  | .native _ | .method _ _ | .remote _ _ => True

theorem Discipline.Admits.later {d : Discipline} {w w' : World} {callable : Callable}
    (h : d.Admits w callable) (lasting : d.Lasting w w') : d.Admits w' callable := by
  induction callable with
  | closure definition frame =>
    obtain ⟨t, fits, supports⟩ := h
    exact ⟨t, fits, supports.later lasting⟩
  | curried target bound this ih =>
    exact ⟨ih h.1, fun entity mem => lasting.homes (h.2 entity mem)⟩
  | native builtin => trivial
  | method receiver name => trivial
  | remote name spec => trivial

/-- Where code may stand anywhere and be bound to any entity, that is all there is to it. -/
theorem Discipline.admits_iff_fits {d : Discipline} {w : World} {callable : Callable}
    (stands : ∀ w frame, d.stands w frame) (homes : ∀ w entity, d.homes w entity) :
    d.Admits w callable ↔ callable.Fits d.imports w := by
  induction callable with
  | closure definition frame =>
    exact exists_congr fun t => and_congr_right fun _ =>
      ⟨fun supports => supports.entity, fun supports => ⟨supports, stands w frame⟩⟩
  | curried target bound this ih =>
    exact ⟨fun admits => ih.mp admits.1, fun fits => ⟨ih.mpr fits, fun _ _ => homes w _⟩⟩
  | native builtin => exact Iff.rfl
  | method receiver name => exact Iff.rfl
  | remote name spec => exact Iff.rfl

/-- The code of a task fits its site, at which no loop can be left, and has a frame for its names. A
program is more than code of some module. -/
def Task.Fits (d : Discipline) (w : World) : Task → Prop
  | .block body frame =>
    ∃ t, t.inLoop = false ∧ body.Fits d.imports t ∧ d.Supports w t frame ∧ d.roomy w frame
  | .program _ _ => False
  | .apply _ _ | .method _ _ _ => True

/-- A change of what holds no code, no names, no modules and no counters. No entity is lost. -/
structure World.Quiet (w w' : World) : Prop where
  functions : w'.store.functions = w.store.functions
  frames : w'.store.frames.frames = w.store.frames.frames
  slots : w'.store.frames.slots.size = w.store.frames.slots.size
  recorded : w.store.frames.Bounded → w.store.frames.Recorded → w'.store.frames.Recorded
  entities (env : EnvId) : (w.store.arena env).size ≤ (w'.store.arena env).size
  queue : w'.queue = w.queue
  size : w'.environments.size = w.environments.size
  forest (env : EnvId) : (w'.environment env).forest = (w.environment env).forest
  modules (env : EnvId) : (w'.environment env).modules = (w.environment env).modules
  locks (env : EnvId) : w'.locks.hold? ⟨env, .modules⟩ = w.locks.hold? ⟨env, .modules⟩
  task : w'.turn.task = w.turn.task
  interpreter : w'.turn.interpreter = w.turn.interpreter
  incidents : w'.incidents = w.incidents
  history : w'.history = w.history
  calls : w'.calls = w.calls

/-- Every environment has the forest and the grants that it had. -/
structure World.SameBindings (w w' : World) : Prop where
  size : w'.environments.size = w.environments.size
  forest (env : EnvId) : (w'.environment env).forest = (w.environment env).forest
  grants (env : EnvId) : (w'.environment env).grants = (w.environment env).grants

/-- Nothing has happened to promises. -/
structure World.SamePromises (w w' : World) : Prop where
  promises : w'.store.promises = w.store.promises
  steps : w'.promiseSteps = w.promiseSteps

/-- Every function stands for what it has stood for. There may be more of them. -/
def World.KeepsFunctions (w w' : World) : Prop :=
  ∃ more, w'.store.functions = w.store.functions ++ more

/-- The world with one more frame inside another one. -/
def World.pushFrame (w : World) (parent : FrameId) (this : Option EntityRef) : World :=
  { w with store.frames := (w.store.frames.push (some parent) this).2 }

/-- The world with one more name in a frame. -/
def World.declare (w : World) (frame : FrameId) (name : String) (value : Value) : World :=
  { w with store.frames := w.store.frames.declare frame name value }

/-- The world with one more function. -/
def World.pushFunction (w : World) (callable : Callable) : World :=
  { w with store := (w.store.newFunction callable).2 }

/-- The world with one more job. -/
def World.enqueue (w : World) (job : Job) : World := { w with queue := job :: w.queue }.withRival

/-- The world with one more promise. -/
def World.newPromise (w : World) (label : String) : World :=
  { w with store := (w.store.newPromise label).2 }

/-- The world in which a promise has been settled, or not, if it had been before. -/
def World.settle (w : World) (id : PromiseId) (result : Except Panic Value) : World :=
  let (first, _, settled) := (w.store.promise id).settle result
  (w.touchPromise id settled (.offered result first)).withRival

/-- The world in which a function waits for a promise, unless that is settled. -/
def World.register (w : World) (id : PromiseId) (k : Continuation) : World :=
  w.touchPromise id ((w.store.promise id).onSettle k).2 (.registered k)

/-- The world in which a wait for a promise has ended. -/
def World.awaited (w : World) (id : PromiseId) (result : Except Panic Value) : World :=
  w.notePromise ⟨id, w.nextPromiseCall, .waited result⟩

/-- The world when a task goes on that has waited in another one. -/
def World.resume (w' w : World) : World :=
  { w' with turn := { w'.turn with task := w.turn.task, interpreter := w.turn.interpreter } }

/-- The world in which a call has begun. -/
def World.beginCall (w : World) (env : EnvId) : World :=
  (w.withDepth (w.turn.interpreter.depth + 1)).noteCall env .began

/-- The world in which a call has ended. -/
def World.endCall (w : World) (env : EnvId) : World :=
  (w.withDepth (w.turn.interpreter.depth - 1)).noteCall env .ended

/-- Waits that have nothing to do with modules. -/
def Wait.Plain : Wait → Prop
  | .lock wanted => wanted.name ≠ .modules
  | .turn | .time _ | .promise _ => True

/-- A change after which code can be evaluated, if another change follows when that has ended. -/
structure Discipline.Encloses (d : Discipline) (w w' : World) (back : World → World) : Prop where
  sound : d.sound w'
  lasting : d.Lasting w w'
  yields : d.yields w w'
  back {w'' : World} : d.sound w'' → d.later w' w'' → d.Reaches w w'' (back w'')

/-- Two changes that code may make by itself. -/
theorem Discipline.Encloses.of_leads {d : Discipline} {w w' : World} {back : World → World}
    (leads : d.Leads w w') (lasting : d.Lasting w w')
    (after : ∀ {w''}, d.sound w'' → d.Leads w'' (back w'')) : d.Encloses w w' back where
  sound := leads.sound
  lasting := lasting
  yields := leads.yields
  back sound inside := (after sound).rebase (d.later_trans leads.later inside) (d.yields_refl _)

theorem Promise.onSettle_fst {α κ : Type} (p : Promise α κ) (k : κ) :
    (p.onSettle k).1 = p.result? := by
  obtain ⟨label, state⟩ := p
  cases state <;> rfl

/-- A call on a promise that has some continuations to run may begin with the first one of them. When
that has returned the same is true of the others, and at last the call ends in a world later than a
base. -/
def Discipline.Delivers (d : Discipline) (base : World) (id : PromiseId) (call : PromiseCallId)
    (result : Except Panic Value) : List Continuation → World → World → Prop
  | [], now, w => d.Reaches base now w
  | k :: behind, now, w =>
    let inside := w.notePromise ⟨id, call, .ran k behind result⟩
    d.Reaches base now inside ∧ ∀ w', d.sound w' → d.later inside w' →
      d.Delivers base id call result behind w' (w'.notePromise ⟨id, call, .returned k⟩)

/-- A discipline under which promises can be made, settled and waited for. -/
structure Discipline.Promising (d : Discipline) : Prop where
  make {w : World} (label : String) : d.sound w → d.Leads w (w.newPromise label)
  settle {w : World} (id : PromiseId) (result : Except Panic Value) : d.sound w →
    d.Delivers w id w.nextPromiseCall result ((w.store.promise id).settle result).2.1 w
      (w.settle id result)
  register {w : World} {id : PromiseId} (k : Continuation) : d.sound w →
    (w.store.promise id).result? = none → d.Leads w (w.register id k)
  registerLate {w : World} {id : PromiseId} {result : Except Panic Value} (k : Continuation) :
    d.sound w → (w.store.promise id).result? = some result →
    d.Delivers w id w.nextPromiseCall result [k] w (w.register id k)
  await {w : World} {id : PromiseId} {result : Except Panic Value} : d.sound w →
    (w.store.promise id).result? = some result → d.Leads w (w.awaited id result)

/-- Whoever counts on nothing about a call on a promise can go on after each of its steps. -/
theorem Discipline.Delivers.of_leads {d : Discipline} {base now w : World} {id : PromiseId}
    {call : PromiseCallId} {result : Except Panic Value} {ks : List Continuation}
    (notes : ∀ {w : World} (step : PromiseStep), d.sound w → d.Leads w (w.notePromise step))
    (reaches : d.Reaches base now w) : d.Delivers base id call result ks now w := by
  induction ks generalizing now w with
  | nil => exact reaches
  | cons k behind ih =>
    have begins := (notes ⟨id, call, .ran k behind result⟩ reaches.sound).rebase reaches.later
      reaches.yields
    refine ⟨begins, fun w' sound later => ih ?_⟩
    exact (notes ⟨id, call, .returned k⟩ sound).rebase (d.later_trans begins.later later)
      (d.yields_refl w')

/-- Promises can be made, settled and waited for by whoever counts on nothing about them. -/
theorem Discipline.Promising.of_leads {d : Discipline}
    (leads : ∀ {w : World} (promises : Array (Promise Value Continuation))
      (promiseSteps : List PromiseStep) (rival : Bool), d.sound w →
      d.Leads w { w with store.promises := promises, turn.rival := rival, promiseSteps }) :
    d.Promising where
  make _ sound := leads _ _ _ sound
  settle _ _ sound := .of_leads (fun _ => leads _ _ _) (leads _ _ _ sound)
  register _ sound _ := leads _ _ _ sound
  registerLate _ sound _ := .of_leads (fun _ => leads _ _ _) (leads _ _ _ sound)
  await sound _ := leads _ _ _ sound

/-- Frames may belong to the entities that they do belong to, those that have members and those that are
made. -/
structure Discipline.Homing (d : Discipline) : Prop where
  this {w : World} {frame : FrameId} {entity : EntityRef} : d.sound w →
    w.store.frames.this? frame = some entity → d.homes w entity
  member {w : World} {entity : EntityRef} {name : String} {value : Value} : d.sound w →
    w.store.member? entity name = some value → d.homes w entity
  newEntity {w : World} (env : EnvId) (base : Option Nat) : d.sound w →
    d.homes { w with store := (w.store.newEntity env base).2 } (w.store.newEntity env base).1

/-- So it is if they may belong to any. -/
theorem Discipline.Homing.of_any {d : Discipline} (homes : ∀ w entity, d.homes w entity) :
    d.Homing where
  this _ _ := homes _ _
  member _ _ := homes _ _
  newEntity _ _ _ := homes _ _

/-- A discipline under which code can be evaluated. -/
class Discipline.Lawful (d : Discipline) : Prop where
  lasting {w w' : World} : d.later w w' → d.Lasting w w'
  roomy_later {w w' : World} {frame : FrameId} : d.later w w' → d.roomy w frame → d.roomy w' frame
  homing : d.Homing
  function {w : World} (id : FunctionId) : d.sound w → d.Admits w (w.store.function id)
  quiet {w w' : World} : d.sound w → w.Quiet w' → w.SameBindings w' → w.SamePromises w' →
    d.Leads w w'
  pushFrame {w : World} {parent : FrameId} {this : Option EntityRef} : d.sound w →
    d.stands w parent → (∀ entity ∈ this, d.homes w entity) →
    d.Leads w (w.pushFrame parent this) ∧
      d.roomy (w.pushFrame parent this) (w.store.frames.push (some parent) this).1 ∧
        d.stands (w.pushFrame parent this) (w.store.frames.push (some parent) this).1
  declare {w : World} {frame : FrameId} {name : String} {value : Value} : d.sound w →
    d.roomy w frame → d.Leads w (w.declare frame name value)
  pushFunction {w : World} {callable : Callable} : d.sound w → d.Admits w callable →
    d.Leads w (w.pushFunction callable)
  enqueue {w : World} {job : Job} : d.sound w → job.task.Fits d w → d.Leads w (w.enqueue job)
  suspend {w w' : World} {wait : Wait} : d.sound w → wait.Plain → d.rests w' →
    d.resumes wait w w' → d.Reaches w w' (w'.resume w)
  call {w : World} {env : EnvId} : d.sound w →
    w.turn.interpreter.depth < (w.environment env).options.maxCallDepth →
    d.Encloses w (w.beginCall env) (·.endCall env)
  interpreter {w : World} (env : EnvId) : d.sound w →
    d.Encloses w (w.newInterpreter env) (·.withInterpreter w.turn.interpreter)
  link {w : World} {link : Link} {slot : SlotId} : d.imports → d.sound w →
    d.Leads w (w.link link slot)
  missed {w : World} {link : Link} : d.imports → d.sound w → d.Leads w (w.record (.missed link))
  promising : d.Promising

section

variable {d : Discipline} [d.Lawful] {w w' : World}

open Discipline (Lawful)

theorem Discipline.Lawful.world_later (later : d.later w w') : w.Later w' := (lasting later).later

theorem Discipline.Supports.lasts {t : Site} {frame : FrameId} (h : d.Supports w t frame)
    (later : d.later w w') : d.Supports w' t frame :=
  h.later (Lawful.lasting later)

theorem Task.Fits.later {task : Task} (h : task.Fits d w) (later : d.later w w') :
    task.Fits d w' := by
  cases task with
  | block body frame =>
    obtain ⟨t, outside, fits, supports, room⟩ := h
    exact ⟨t, outside, fits, supports.lasts later, Lawful.roomy_later later room⟩
  | program body args => exact h
  | apply callback args => trivial
  | method entity name args => trivial

end

namespace World.Quiet

/-- Parts of the store that hold no code and no names can change. -/
theorem of_store {w : World} {store : Store} (quiet : w.store.Quiet store) :
    w.Quiet { w with store } :=
  ⟨quiet.functions, congrArg Frames.frames quiet.frames,
    congrArg (fun f => f.slots.size) quiet.frames, fun _ recorded => quiet.frames ▸ recorded,
    quiet.entities, rfl, rfl, fun _ => rfl, fun _ => rfl, fun _ => rfl, rfl, rfl, rfl, rfl, rfl⟩

/-- The value in a slot can change. -/
theorem write (w : World) (slot : SlotId) (value : Value) :
    w.Quiet { w with store.frames := w.store.frames.write slot value } :=
  ⟨rfl, rfl, Array.size_setIfInBounds, fun _ recorded => recorded.write, fun _ => Nat.le_refl _, rfl,
    rfl, fun _ => rfl, fun _ => rfl, fun _ => rfl, rfl, rfl, rfl, rfl, rfl⟩

/-- A name can be looked up. -/
theorem lookUp (w : World) (frame : FrameId) (name : String) :
    w.Quiet { w with store.frames := (w.store.frames.lookUp frame name).2 } :=
  ⟨rfl, Frames.frames_lookUp, congrArg Array.size Frames.slots_lookUp,
    fun bounded recorded => recorded.lookUp bounded, fun _ => Nat.le_refl _, rfl, rfl, fun _ => rfl,
    fun _ => rfl, fun _ => rfl, rfl, rfl, rfl, rfl, rfl⟩

/-- The turn can change, but for whose it is. -/
theorem withTurn (w : World) (turn : Turn) (clock : Nat) (task : turn.task = w.turn.task)
    (interpreter : turn.interpreter = w.turn.interpreter) : w.Quiet { w with turn, clock } :=
  ⟨rfl, rfl, rfl, fun _ => id, fun _ => Nat.le_refl _, rfl, rfl, fun _ => rfl, fun _ => rfl,
    fun _ => rfl, task, interpreter, rfl, rfl, rfl⟩

/-- Anything can happen to promises. -/
theorem withPromises (w : World) (promises : Array (Promise Value Continuation))
    (promiseSteps : List PromiseStep) (rival : Bool) :
    w.Quiet { w with store.promises := promises, turn.rival := rival, promiseSteps } :=
  ⟨rfl, rfl, rfl, fun _ => id, fun _ => Nat.le_refl _, rfl, rfl, fun _ => rfl, fun _ => rfl,
    fun _ => rfl, rfl, rfl, rfl, rfl, rfl⟩

/-- Locks that do not guard modules can change. -/
theorem withLocks (w : World) {locks : LockTable}
    (h : ∀ env, locks.hold? ⟨env, .modules⟩ = w.locks.hold? ⟨env, .modules⟩) :
    w.Quiet { w with locks } :=
  ⟨rfl, rfl, rfl, fun _ => id, fun _ => Nat.le_refl _, rfl, rfl, fun _ => rfl, fun _ => rfl, h, rfl,
    rfl, rfl, rfl, rfl⟩

theorem trans {w w' w'' : World} (h : w.Quiet w') (h' : w'.Quiet w'') : w.Quiet w'' where
  functions := h'.functions.trans h.functions
  frames := h'.frames.trans h.frames
  slots := h'.slots.trans h.slots
  recorded := fun bounded recorded =>
    have bounded' := bounded.of_frames h.frames (Nat.le_of_eq h.slots.symm)
    h'.recorded bounded' (h.recorded bounded recorded)
  entities := fun env => Nat.le_trans (h.entities env) (h'.entities env)
  queue := h'.queue.trans h.queue
  size := h'.size.trans h.size
  forest := fun env => (h'.forest env).trans (h.forest env)
  modules := fun env => (h'.modules env).trans (h.modules env)
  locks := fun env => (h'.locks env).trans (h.locks env)
  task := h'.task.trans h.task
  interpreter := h'.interpreter.trans h.interpreter
  incidents := h'.incidents.trans h.incidents
  history := h'.history.trans h.history
  calls := h'.calls.trans h.calls

end World.Quiet

/-- An environment after a change of one of them. -/
theorem World.environment_modifyEnvironment (w : World) (env other : EnvId)
    (f : Environment → Environment) :
    (w.modifyEnvironment env f).environment other =
      if env = other ∧ env < w.environments.size then f (w.environment other)
      else w.environment other := by
  simp only [environment, modifyEnvironment, Array.getD_eq_getD_getElem?, Array.getElem?_modify]
  by_cases same : env = other
  · subst same
    by_cases there : env < w.environments.size
    · simp [there]
    · simp [there]
  · simp [same]

/-- A change of an environment is a matter of what becomes of this one. -/
theorem World.modifyEnvironment_congr {w : World} {env : EnvId} {f g : Environment → Environment}
    (same : f (w.environment env) = g (w.environment env)) :
    w.modifyEnvironment env f = w.modifyEnvironment env g := by
  have changed : w.environments.modify env f = w.environments.modify env g := by
    refine Array.ext (by simp) fun i inside _ => ?_
    rw [Array.getElem_modify, Array.getElem_modify]
    split
    · next here =>
      subst here
      have there : env < w.environments.size := by simpa using inside
      rwa [environment, Array.getD_eq_getD_getElem?, Array.getElem?_eq_getElem there] at same
    · rfl
  rw [modifyEnvironment, changed]
  rfl

/-- An environment that is not there. -/
theorem World.environment_of_size_le {w : World} {env : EnvId} (h : w.environments.size ≤ env) :
    w.environment env = default := by
  rw [environment, Array.getD_eq_getD_getElem?, Array.getElem?_eq_none h]
  rfl

/-- The environments after one has been added. -/
theorem World.environment_newEnvironment (w : World) (environment : Environment) (env : EnvId) :
    (w.newEnvironment environment).2.environment env =
      if env = w.environments.size then environment else w.environment env := by
  simp only [World.environment, newEnvironment, Array.getD_eq_getD_getElem?, Array.getElem?_push]
  split <;> rfl

/-- An environment can change in all but its forest and its modules. -/
theorem World.Quiet.modifyEnvironment {w : World} {env : EnvId} {f : Environment → Environment}
    (forest : ∀ e, (f e).forest = e.forest) (modules : ∀ e, (f e).modules = e.modules) :
    w.Quiet (w.modifyEnvironment env f) where
  functions := rfl
  frames := rfl
  slots := rfl
  recorded := fun _ => id
  entities := fun _ => Nat.le_refl _
  queue := rfl
  size := Array.size_modify
  forest := fun other => by
    rw [environment_modifyEnvironment]
    split
    · exact forest _
    · rfl
  modules := fun other => by
    rw [environment_modifyEnvironment]
    split
    · exact modules _
    · rfl
  locks := fun _ => rfl
  task := rfl
  interpreter := rfl
  incidents := rfl
  history := rfl
  calls := rfl

namespace World.SameBindings

variable {w w' w'' : World}

theorem of_environments (same : w'.environments = w.environments) : w.SameBindings w' := by
  refine ⟨congrArg Array.size same, fun env => ?_, fun env => ?_⟩ <;>
    rw [environment, environment, same]

theorem trans (h : w.SameBindings w') (h' : w'.SameBindings w'') : w.SameBindings w'' where
  size := h'.size.trans h.size
  forest env := (h'.forest env).trans (h.forest env)
  grants env := (h'.grants env).trans (h.grants env)

/-- An environment can change in all but its forest and its grants. -/
theorem modifyEnvironment {env : EnvId} {f : Environment → Environment}
    (forest : ∀ e, (f e).forest = e.forest) (grants : ∀ e, (f e).grants = e.grants) :
    w.SameBindings (w.modifyEnvironment env f) where
  size := Array.size_modify
  forest := fun other => by
    rw [environment_modifyEnvironment]
    split
    · exact forest _
    · rfl
  grants := fun other => by
    rw [environment_modifyEnvironment]
    split
    · exact grants _
    · rfl

end World.SameBindings

namespace World.KeepsFunctions

variable {w w' w'' : World}

theorem of_functions (same : w'.store.functions = w.store.functions) : w.KeepsFunctions w' :=
  ⟨#[], by rw [same, Array.append_empty]⟩

theorem trans (h : w.KeepsFunctions w') (h' : w'.KeepsFunctions w'') : w.KeepsFunctions w'' := by
  obtain ⟨more, added⟩ := h
  obtain ⟨more', added'⟩ := h'
  exact ⟨more ++ more', by rw [added', added, Array.append_assoc]⟩

theorem pushFunction (w : World) (callable : Callable) :
    w.KeepsFunctions (w.pushFunction callable) :=
  ⟨#[callable], Array.push_eq_append⟩

end World.KeepsFunctions

/-! ## Signals -/

/-- Panics may leave all code, a return what is inside a body, and a break or continue what is
inside a loop. -/
def Signal.Within (returns loop : Bool) : Signal → Prop
  | .panic _ => True
  | .returning _ => returns = true
  | .breaking | .continuing => loop = true

theorem Signal.Within.imp {returns returns' loop loop' : Bool} {s : Signal}
    (h : s.Within returns loop) (returns_imp : returns = true → returns' = true)
    (loop_imp : loop = true → loop' = true) : s.Within returns' loop' := by
  cases s with
  | panic cause => trivial
  | returning value => exact returns_imp h
  | breaking => exact loop_imp h
  | continuing => exact loop_imp h

theorem Signal.Within.exists_panic {s : Signal} (h : s.Within false false) :
    ∃ cause, s = .panic cause := by
  cases s with
  | panic cause => exact ⟨cause, rfl⟩
  | returning value => cases h
  | breaking => cases h
  | continuing => cases h

namespace Eval

variable {α β : Type} {d : Discipline} {env : EnvId} {base : World} {returns loop : Bool}

/-- An evaluation follows a discipline, and only the signals that may do so leave it. -/
def Tame (d : Discipline) (env : EnvId) (base : World) (x : Eval α) (returns loop : Bool) : Prop :=
  x.Follows d env base (fun _ _ => True) (Signal.Within returns loop)

/-- What only panics leave may stand anywhere. -/
theorem Tame.weaken {x : Eval α} (h : x.Tame d env base false false) :
    x.Tame d env base returns loop :=
  h.imp (fun _ _ _ => trivial) fun _ within =>
    within.imp (fun no => by cases no) fun no => by cases no

theorem Tame.lift {base' : World} {x : Eval α} (h : x.Tame d env base returns loop)
    (later : d.later base base') : x.Tame d env base' returns loop :=
  Follows.lift h later

theorem Tame.bind {x : Eval α} {f : α → Eval β} (h : x.Tame d env base returns loop)
    (h' : ∀ v w, d.later base w → (f v).Tame d env w returns loop) :
    (x >>= f).Tame d env base returns loop :=
  Follows.bind h fun v w later _ => h' v w later

theorem Tame.andThen {x : Eval α} {f : α → Eval β} (h : x.Tame d env base returns loop)
    (h' : ∀ v, (f v).Tame d env base returns loop) :
    (x >>= f).Tame d env base returns loop :=
  Follows.andThen h h'

theorem Tame.map {x : Eval α} {f : α → β} (h : x.Tame d env base returns loop) :
    (f <$> x).Tame d env base returns loop :=
  h.andThen fun _ => .ret fun _ _ => trivial

theorem Tame.ite {c : Prop} [Decidable c] {x y : Eval α}
    (h : c → x.Tame d env base returns loop) (h' : ¬ c → y.Tame d env base returns loop) :
    (if c then x else y).Tame d env base returns loop :=
  Follows.ite h h'

theorem Tame.forM {f : α → Eval Unit} {items : List α}
    (h : ∀ item, (f item).Tame d env base returns loop) :
    (items.forM f).Tame d env base returns loop :=
  Follows.forM h

theorem Tame.mapM {f : α → Eval β} {items : List α}
    (h : ∀ item, (f item).Tame d env base returns loop) :
    (items.mapM f).Tame d env base returns loop :=
  Follows.mapM h

theorem tame_pure {v : α} : (pure v : Eval α).Tame d env base returns loop :=
  .ret fun _ _ => trivial

theorem tame_panic {p : Panic} : (panic p : Eval α).Tame d env base returns loop :=
  .signal trivial

theorem tame_ofExcept {result : Except Panic α} :
    (ofExcept result).Tame d env base returns loop := by
  cases result with
  | ok value => exact tame_pure
  | error p => exact tame_panic

/-- A return leaves what stands inside a boundary, but not the boundary. -/
theorem Runs.boundary {x : Eval Value} {pre : World → Prop}
    (h : x.Runs d env pre (fun _ _ => True) (Signal.Within true loop)) :
    (boundary x).Runs d env pre (fun _ _ => True) (Signal.Within returns loop) := by
  refine h.attempt.bind fun result => ?_
  match result with
  | .ok value => exact .ret fun _ _ => trivial
  | .error (.panic cause) => exact .signal trivial
  | .error (.returning value) => exact .ret fun _ _ => trivial
  | .error .breaking => exact fun w sound ended => ⟨.refl sound, ended.2 _ rfl⟩
  | .error .continuing => exact fun w sound ended => ⟨.refl sound, ended.2 _ rfl⟩

/-- What only panics leave can be contained without an incident. -/
theorem Runs.contain {x : Eval α} {pre : World → Prop} {post : α → World → Prop}
    {ends : Signal → Prop} (h : x.Runs d env pre post (Signal.Within false false)) :
    (contain x).Runs d env pre (fun result w => ∀ v, result = .ok v → post v w) ends := by
  refine h.attempt.bind fun result => ?_
  match result with
  | .ok value => exact .ret fun w ended v same => ended.1 v (congrArg Except.ok (Except.ok.inj same))
  | .error (.panic cause) => exact .ret fun w ended v no => by cases no
  | .error (.returning value) => exact fun w _ ended => nomatch ended.2 _ rfl
  | .error .breaking => exact fun w _ ended => nomatch ended.2 _ rfl
  | .error .continuing => exact fun w _ ended => nomatch ended.2 _ rfl

theorem Tame.boundary {x : Eval Value} (h : x.Tame d env base true loop) :
    (boundary x).Tame d env base returns loop :=
  Runs.boundary h

theorem Tame.contain {x : Eval α} (h : x.Tame d env base false false) :
    (contain x).Tame d env base returns loop :=
  (Runs.contain h).imp (fun _ holds => holds) (fun _ _ _ => trivial) fun _ ended => ended

/-- What is contained between a change and the one that follows it comes to no harm, and nothing shows
of the two. -/
theorem Tame.enclosed {x : Eval α} {w w' : World} {back : World → World}
    {next : Except Panic α → World → Progress β} {post : β → World → Prop} {ends : Signal → Prop}
    (h : x.Tame d env w' false false) (encloses : d.Encloses w w' back)
    (rest : ∀ result w'', d.Reaches w w'' (back w'') →
      (next result w'').Follows d w w'' post ends) :
    ((Eval.contain x env w').bind next).Follows d w w post ends := by
  have contained : (Eval.contain x).Runs d env (d.later w') (fun _ _ => True) fun _ => False :=
    (Runs.contain h).imp (fun _ later => later) (fun _ _ _ => trivial) fun _ no => no
  have inside := contained w' encloses.sound (d.later_refl w')
  exact (inside.through (.refl d) fun result w'' sound later _ =>
    rest result w'' (encloses.back sound later)).behind encloses.yields

/-- What is evaluated with a new interpreter begins where that has been made. -/
theorem Tame.anew {x : Eval α} {w : World} (h : x.Tame d env (w.newInterpreter env) returns loop)
    (sound : d.sound (w.newInterpreter env)) (yields : d.yields w (w.newInterpreter env)) :
    (Eval.anew x env w).Follows d (w.newInterpreter env) w (fun _ _ => True)
      (Signal.Within returns loop) :=
  (h _ sound (d.later_refl _)).behind yields

/-! ## Questions and changes -/

theorem tame_query {f : EnvId → World → α} :
    Tame d env base (fun env w => .done (f env w) w) returns loop :=
  .query fun _ _ _ => trivial

theorem tame_ask {f : Store → α} : (ask f).Tame d env base returns loop :=
  tame_query

theorem tame_read : (read : Eval EnvId).Tame d env base returns loop :=
  tame_query

theorem tame_get : (get : Eval World).Tame d env base returns loop :=
  tame_query

theorem tame_demand {f : Store → Except Panic α} : (demand f).Tame d env base returns loop :=
  tame_ask.andThen fun _ => tame_ofExcept

theorem tame_display {value : Value} : (display value).Tame d env base returns loop :=
  tame_ask

theorem tame_environment : environment.Tame d env base returns loop :=
  tame_query

theorem tame_this? {frame : FrameId} : (this? frame).Tame d env base returns loop :=
  tame_ask

variable [d.Lawful]

open Discipline (Lawful)

/-- A change that no discipline minds. -/
theorem tame_modify {f : World → World} (h : ∀ w : World, w.Quiet (f w))
    (same : ∀ w : World, w.SameBindings (f w)) (promises : ∀ w : World, w.SamePromises (f w)) :
    (modify f : Eval Unit).Tame d env base returns loop :=
  .update fun w sound _ => ⟨Lawful.quiet sound (h w) (same w) (promises w), trivial⟩

theorem leads_store {w : World} {store : Store} (sound : d.sound w) (quiet : w.store.Quiet store) :
    d.Leads w { w with store } :=
  Lawful.quiet sound (.of_store quiet) (.of_environments rfl) ⟨quiet.promises, rfl⟩

theorem tame_change {f : Store → Store} (h : ∀ s : Store, s.Quiet (f s)) :
    (change f).Tame d env base returns loop :=
  .update fun w sound _ => ⟨leads_store sound (h w.store), trivial⟩

/-- Making something that is no code. No signal comes of it. -/
theorem follows_make {f : Store → α × Store} {ends : Signal → Prop}
    (h : ∀ s : Store, s.Quiet (f s).2) : (make f).Follows d env base (fun _ _ => True) ends :=
  fun w sound _ => ⟨leads_store sound (h w.store), trivial⟩

theorem tame_make {f : Store → α × Store} (h : ∀ s : Store, s.Quiet (f s).2) :
    (make f).Tame d env base returns loop :=
  follows_make h

theorem tame_newArray {items : List Value} : (newArray items).Tame d env base returns loop :=
  tame_make fun _ => .of_arenas rfl rfl rfl rfl

theorem tame_newMap {entries : OrderedMap Value} :
    (newMap entries).Tame d env base returns loop :=
  tame_make fun _ => .of_arenas rfl rfl rfl rfl

/-- An entity that is made is one to which frames may belong. -/
theorem follows_newEntity {env' : EnvId} {under : Option Nat} {ends : Signal → Prop} :
    (make (·.newEntity env' under)).Follows d env base (fun entity w => d.homes w entity) ends :=
  fun w sound _ => ⟨leads_store sound (.newEntity w.store env' under),
    Lawful.homing.newEntity env' under sound⟩

/-- Making a promise. -/
theorem follows_newPromise {label : String} {ends : Signal → Prop} :
    (make (·.newPromise label)).Follows d env base (fun _ _ => True) ends :=
  fun _ sound _ => ⟨Lawful.promising.make label sound, trivial⟩

theorem tame_newPromise {label : String} :
    (make (·.newPromise label)).Tame d env base returns loop :=
  follows_newPromise

/-- Making a function whose code fits its site. -/
theorem tame_newFunction {callable : Callable} (h : d.Admits base callable) :
    (newFunction callable).Tame d env base returns loop :=
  fun _ sound later => ⟨Lawful.pushFunction sound (h.later (Lawful.lasting later)), trivial⟩

theorem tame_fromHost {value : HostValue} : (fromHost value).Tame d env base returns loop :=
  tame_make fun s => s.quiet_ofHost value

theorem tame_effect {effect : Effect} : (Eval.effect effect).Tame d env base returns loop :=
  tame_modify (fun _ => ⟨rfl, rfl, rfl, fun _ => id, fun _ => Nat.le_refl _, rfl, rfl, fun _ => rfl,
    fun _ => rfl, fun _ => rfl, rfl, rfl, rfl, rfl, rfl⟩) (fun _ => .of_environments rfl)
    fun _ => ⟨rfl, rfl⟩

theorem tame_emit {event : Event} : (emit event).Tame d env base returns loop := tame_effect

/-! ### Frames -/

/-- Asking for the entity of a frame. -/
theorem follows_this? {frame : FrameId} {ends : Signal → Prop} :
    (this? frame).Follows d env base (fun found w =>
      found = w.store.frames.this? frame ∧ ∀ entity ∈ found, d.homes w entity) ends :=
  .query fun _ sound _ => ⟨rfl, fun _ belongs => Lawful.homing.this sound belongs⟩

/-- A new frame belongs to the entity it is given, and has room for names. -/
theorem follows_newFrame {parent : FrameId} {this : Option EntityRef} {ends : Signal → Prop}
    (stands : d.stands base parent) (home : ∀ entity ∈ this, d.homes base entity) :
    (newFrame (some parent) this).Follows d env base
      (fun frame w => w.store.frames.this? frame = this ∧ d.roomy w frame ∧ d.stands w frame) ends :=
  fun _ sound later =>
    have lasting := Lawful.lasting later
    have pushed := Lawful.pushFrame sound (lasting.stands stands) fun entity mem =>
      lasting.homes (home entity mem)
    ⟨pushed.1, Frames.this?_push .., pushed.2⟩

/-- A frame inside another one supports all the code that the other one does. -/
theorem follows_childFrame {parent : FrameId} {t : Site} {ends : Signal → Prop}
    (supports : d.Supports base t parent) :
    (childFrame parent).Follows d env base
      (fun frame w => d.Supports w t frame ∧ d.roomy w frame) ends := by
  refine follows_this?.bind fun found w later belongs => ?_
  refine (follows_newFrame (supports.lasts later).stands belongs.2).imp (fun frame w' made => ?_)
    fun _ ends => ends
  refine ⟨⟨fun inside => ?_, made.2.2⟩, made.2.1⟩
  rw [made.1, belongs.1]
  exact (supports.lasts later).entity inside

theorem tame_declare {frame : FrameId} {name : String} {value : Value} (room : d.roomy base frame) :
    (declare frame name value).Tame d env base returns loop :=
  fun _ sound later => ⟨Lawful.declare sound (Lawful.roomy_later later room), trivial⟩

theorem tame_declareAll {frame : FrameId} {names : List (String × Value)}
    (room : d.roomy base frame) : (declareAll frame names).Tame d env base returns loop := by
  induction names with
  | nil => exact tame_pure
  | cons entry names ih => exact (tame_declare room).andThen fun _ => ih

/-! ### Turns -/

theorem tame_suspend {wait : Wait} (plain : wait.Plain) :
    (suspend wait).Tame d env base returns loop :=
  fun w sound _ => ⟨d.rests_of_sound sound, d.yields_refl w, fun _ rests resumes =>
    ⟨Lawful.suspend sound plain rests resumes, trivial⟩⟩

theorem tame_tick : tick.Tame d env base returns loop := by
  intro w sound _
  obtain ⟨store, environments, queue, locks, clock, ⟨task, interpreter, left, rival, alarm⟩, effects,
    incidents, history, calls, promiseSteps⟩ := w
  have stepped (left' : Nat) := Lawful.quiet sound (World.Quiet.withTurn ⟨store, environments, queue,
    locks, clock, ⟨task, interpreter, left, rival, alarm⟩, effects, incidents, history, calls,
    promiseSteps⟩ ⟨task, interpreter, left', rival, alarm⟩ (clock + 1) rfl rfl)
    (.of_environments rfl) ⟨rfl, rfl⟩
  cases left with
  | succ left => exact ⟨stepped left, trivial⟩
  | zero =>
    dsimp only [tick]
    split
    · have plain : Wait.Plain .turn := trivial
      exact (tame_suspend plain _ (stepped 0).sound (d.later_refl _)).rebase (stepped 0).later
        (stepped 0).yields
    · exact ⟨stepped slice, trivial⟩

end Eval

end ScriptEngine
