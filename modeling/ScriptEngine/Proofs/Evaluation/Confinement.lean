import ScriptEngine.Proofs.Evaluation.Permissive
import ScriptEngine.Proofs.Evaluation.Regime
import ScriptEngine.Proofs.Evaluation.Rounds
import ScriptEngine.Proofs.Store.Scoping

/-!
# Code stays where it belongs

To keep worlds accepted, and frames to their entities, is a discipline, and one that all tasks share.
Another one is that what code refers to is there: the frames in which it stands and those around them,
and the entities to which they belong.

* `Discipline.accepted`, `Accord.accepted`: worlds are to be accepted, and frames to keep their
  entities.
* `World.Grounded`, `Discipline.grounded`, `Accord.grounded`: what code refers to is to be there besides.
* `Eval.Confined`: evaluations that go from accepted worlds to accepted worlds, and are left only by
  the signals that may do so.
* `Eval.confined_run`: evaluation through any number of levels is confined.
-/

namespace ScriptEngine

/-! ## The discipline -/

/-- Worlds are to be accepted, and frames are to keep their entities. -/
def Regime.accepted : Regime where
  sound := World.Accepted
  later := World.Later
  refl := fun _ _ has => has
  trans := fun ab bc frame has => bc frame (ab frame has)

/-- Worlds are to be accepted whoever goes on, and frames to keep their entities. Imports may stand
anywhere, and names be declared in any frame. -/
def Discipline.accepted : Discipline where
  sound := World.Accepted
  rests := World.Accepted
  later := World.Later
  yields := World.Later
  resumes := fun _ => World.Later
  imports := True
  roomy := fun _ _ => True
  rests_of_sound := fun accepted => accepted
  later_refl := fun _ _ has => has
  later_trans := fun ab bc frame has => bc frame (ab frame has)
  yields_refl := fun _ _ has => has
  yields_trans := fun ab bc frame has => bc frame (ab frame has)

/-- No matter what is counted, code stays as it is. -/
theorem World.SameCode.leads_accepted {w w' : World} (h : w.SameCode w') (accepted : w.Accepted) :
    Discipline.accepted.Leads w w' :=
  ⟨h.accepted accepted, h.later, h.later⟩

instance : Discipline.accepted.Permissive where
  imports := rfl
  roomy := fun _ _ => trivial
  stands := fun _ _ => trivial
  homes := fun _ _ => trivial
  accepted := id
  world_later := id
  change := fun _ accepted later _ _ _ _ => ⟨accepted, later, later⟩
  suspend := fun {w w' wait} _ accepted later => by
    have same : w'.SameCode (w'.resume w) := .withTurn w' _ w'.clock
    exact ⟨same.accepted accepted, fun frame has => same.later frame (later frame has), same.later⟩
  call := fun accepted _ => .of_leads ((World.SameCode.withCalls ..).leads_accepted accepted)
    ⟨.refl _, id, id⟩ fun accepted => (World.SameCode.withCalls ..).leads_accepted accepted
  interpreter := fun env accepted => .of_leads
    ((World.SameCode.withCalls ..).leads_accepted accepted) ⟨.refl _, id, id⟩
    fun accepted => (World.SameCode.withCalls ..).leads_accepted accepted
  promising := .of_leads fun _ _ _ accepted =>
    (World.Quiet.withPromises ..).sameCode.leads_accepted accepted

namespace Eval

variable {α : Type} {base : World} {returns loop : Bool}

/-! ## Evaluations -/

/-- An evaluation goes from accepted worlds to accepted worlds, and only the signals that may do so
leave it. -/
def Confined (base : World) (x : Eval α) (returns loop : Bool) : Prop :=
  x.Upholds .accepted base (fun _ _ => True) (Signal.Within returns loop)

end Eval

/-- To follow the discipline is to uphold the regime. -/
theorem Progress.Follows.upholds {α : Type} {base now : World} {post : α → World → Prop}
    {ends : Signal → Prop} {p : Progress α} (h : p.Follows .accepted base now post ends) :
    p.Upholds .accepted now post ends := by
  induction p generalizing now with
  | done value w => exact ⟨h.1.sound, h.1.yields, h.2⟩
  | stopped stop w =>
    cases stop with
    | signal s => exact ⟨h.1.sound, h.1.yields, fun _ same => Stop.signal.inj same ▸ h.2⟩
    | unfinished => exact ⟨h.1, h.2, fun _ same => by cases same⟩
  | waiting wait w resume ih =>
    exact ⟨h.1, h.2.1, fun w' accepted later => ih w' (h.2.2 w' accepted later)⟩

namespace Eval

variable {α : Type} {base : World} {returns loop : Bool}

theorem confined_of_tame {x : Eval α} (h : ∀ env, x.Tame .accepted env base returns loop) :
    x.Confined base returns loop :=
  fun env w accepted later => (h env w accepted later).upholds

end Eval

/-- A machine evaluates expressions and blocks that suit their site so that only the signals meant
for them leave them, and worlds stay accepted. -/
structure Machine.Confined (m : Machine) : Prop where
  expr {base t e frame} : e.Suits t → base.Supports t frame →
    (m.run (.expr e frame)).Confined base false t.inLoop
  block {base t body frame} : body.Suits t → base.Supports t frame →
    (m.run (.block body frame)).Confined base true t.inLoop

/-- Evaluation through any number of levels is confined. -/
theorem Eval.confined_run (levels : Nat) : Machine.Confined ⟨fun goal => goal.run levels⟩ where
  expr {_ t e _} suits supports := confined_of_tame fun _ =>
    (tame_run_open levels).expr ((e.fits_iff_suits t).mpr suits) ⟨supports, trivial⟩
  block {_ t body _} suits supports := confined_of_tame fun _ =>
    (tame_run_open levels).block ((body.fits_iff_suits t).mpr suits) ⟨supports, trivial⟩
      fun _ => trivial

/-! ## Tasks side by side -/

/-- All tasks follow the same discipline. -/
def Accord.accepted : Accord where
  discipline := fun _ => .accepted
  rests := World.Accepted
  rely := fun _ => World.Later
  accepts := fun w job => job.task.Accepted w
  fresh := fun _ _ => True
  rests_iff := .rfl
  rely_refl := fun _ _ _ has => has
  rely_trans := fun ab bc frame has => bc frame (ab frame has)
  yields := fun _ later => later
  resumes := fun later _ => later
  turn := fun turn clock accepted => (World.SameCode.withTurn _ turn clock).accepted accepted
  rely_turn := fun _ _ _ _ _ has => has
  queue := fun accepted => ⟨accepted.withQueue fun _ mem => (by cases mem), accepted.queue⟩
  rely_queue := fun _ _ _ has => has
  accepts_rely := fun later accepted => accepted.later later
  fresh_rely := fun _ _ => trivial
  loses := fun {w} task lock accepted =>
    have same : w.SameCode (w.lose task lock) := .lose w task lock
    ⟨same.accepted accepted, fun _ _ => same.later⟩
  sound := fun {t w} env accepted _ _ =>
    have same : w.SameCode (w.newInterpreter env) := .withCalls w _ _
    ⟨same.accepted accepted, same.later⟩
  starts := fun {t w job} accepted suits _ _ => by
    have tame := Eval.tame_run_open (d := .accepted) Eval.levels
    exact Eval.tame_fulfil tame (Eval.tame_task_of_accepted tame (suits.later fun _ has => has)
      fun _ _ _ => trivial)

/-! ## What code refers to -/

/-- No frame is lost, and no entity. -/
structure Store.Grows (s s' : Store) : Prop where
  frames : s.frames.frames.size ≤ s'.frames.frames.size
  entities (env : EnvId) : (s.arena env).size ≤ (s'.arena env).size

theorem Store.Grows.refl (s : Store) : s.Grows s :=
  ⟨Nat.le_refl _, fun _ => Nat.le_refl _⟩

theorem Store.Grows.trans {a b c : Store} (h : a.Grows b) (h' : b.Grows c) : a.Grows c :=
  ⟨Nat.le_trans h.frames h'.frames, fun env => Nat.le_trans (h.entities env) (h'.entities env)⟩

theorem Store.HasEntity.grows {s s' : Store} {entity : EntityRef} (h : s.HasEntity entity)
    (grows : s.Grows s') : s'.HasEntity entity :=
  Nat.lt_of_lt_of_le h (grows.entities entity.env)

/-- The frame around a frame is there, and the entity that it belongs to. -/
def Frame.Grounded (s : Store) (f : Frame) : Prop :=
  (∀ parent ∈ f.parent, parent < s.frames.frames.size) ∧ ∀ entity ∈ f.this, s.HasEntity entity

/-- So are the frame in which the code of a function stands, and the entity that it is bound to. -/
def Callable.Grounded (s : Store) : Callable → Prop
  | .closure _ frame => frame < s.frames.frames.size
  | .curried target _ this => target.Grounded s ∧ ∀ entity ∈ this, s.HasEntity entity
  | .native _ | .method _ _ | .remote _ _ => True

/-- And the frame in which the code of a task stands. A program will have one of its own. -/
def Task.Grounded (s : Store) : Task → Prop
  | .block _ frame => frame < s.frames.frames.size
  | .program _ _ | .apply _ _ | .method _ _ _ => True

theorem Frame.Grounded.grows {s s' : Store} {f : Frame} (h : f.Grounded s) (grows : s.Grows s') :
    f.Grounded s' :=
  ⟨fun parent mem => Nat.lt_of_lt_of_le (h.1 parent mem) grows.frames,
    fun entity mem => (h.2 entity mem).grows grows⟩

theorem Callable.Grounded.grows {s s' : Store} {callable : Callable} (h : callable.Grounded s)
    (grows : s.Grows s') : callable.Grounded s' := by
  induction callable with
  | closure definition frame => exact Nat.lt_of_lt_of_le h grows.frames
  | curried target bound this ih =>
    exact ⟨ih h.1, fun entity mem => (h.2 entity mem).grows grows⟩
  | native builtin => trivial
  | method receiver name => trivial
  | remote name spec => trivial

theorem Task.Grounded.grows {s s' : Store} {task : Task} (h : task.Grounded s)
    (grows : s.Grows s') : task.Grounded s' := by
  cases task with
  | block body frame => exact Nat.lt_of_lt_of_le h grows.frames
  | program body args => trivial
  | apply callback args => trivial
  | method entity name args => trivial

/-- What frames, functions and jobs refer to is there. -/
structure World.Grounded (w : World) : Prop where
  frames : ∀ f ∈ w.store.frames.frames, f.Grounded w.store
  functions : ∀ callable ∈ w.store.functions, callable.Grounded w.store
  queue : ∀ job ∈ w.queue, job.task.Grounded w.store

namespace World.Grounded

variable {w w' : World}

theorem frame {id : FrameId} {f : Frame} (h : w.Grounded)
    (found : w.store.frames.frame? id = some f) : f.Grounded w.store :=
  h.frames f (Array.mem_of_getElem? found)

/-- The frames around frames are there. -/
theorem closed (h : w.Grounded) : w.store.frames.Closed :=
  fun _ _ parent found stands => (h.frame found).1 parent stands

/-- So are the entities of frames. -/
theorem hasEntity {id : FrameId} {entity : EntityRef} (h : w.Grounded)
    (belongs : w.store.frames.this? id = some entity) : w.store.HasEntity entity := by
  obtain ⟨f, found, this⟩ := Option.bind_eq_some_iff.mp belongs
  exact (h.frame found).2 entity this

/-- The function under a number refers to what is there, also if none was put there. -/
theorem function (h : w.Grounded) (id : FunctionId) : (w.store.function id).Grounded w.store := by
  rw [Store.function, Array.getD_eq_getD_getElem?]
  cases found : w.store.functions[id]? with
  | some callable => exact h.functions callable (Array.mem_of_getElem? found)
  | none => trivial

/-- Frames, functions and jobs that were there before stay grounded. The others have to be so. -/
theorem change (h : w.Grounded) (grows : w.store.Grows w'.store)
    (frames : ∀ f ∈ w'.store.frames.frames,
      (∃ old ∈ w.store.frames.frames, f.parent = old.parent ∧ f.this = old.this) ∨
        f.Grounded w'.store)
    (functions : ∀ callable ∈ w'.store.functions,
      callable ∈ w.store.functions ∨ callable.Grounded w'.store)
    (queue : ∀ job ∈ w'.queue, job ∈ w.queue ∨ job.task.Grounded w'.store) : w'.Grounded where
  frames f mem := by
    obtain ⟨old, there, parent, this⟩ | grounded := frames f mem
    · rw [Frame.Grounded, parent, this]
      exact (h.frames old there).grows grows
    · exact grounded
  functions callable mem :=
    (functions callable mem).elim (fun old => (h.functions callable old).grows grows) id
  queue job mem := (queue job mem).elim (fun old => (h.queue job old).grows grows) id

/-- Nothing has happened to any of them. -/
theorem same (h : w.Grounded) (frames : w'.store.frames.frames = w.store.frames.frames)
    (functions : w'.store.functions = w.store.functions) (queue : w'.queue = w.queue)
    (grows : w.store.Grows w'.store) : w'.Grounded :=
  h.change grows (fun f mem => .inl ⟨f, frames ▸ mem, rfl, rfl⟩) (fun _ mem => .inl (functions ▸ mem))
    fun _ mem => .inl (queue ▸ mem)

end World.Grounded

theorem World.Quiet.grows {w w' : World} (h : w.Quiet w') : w.store.Grows w'.store :=
  ⟨Nat.le_of_eq (congrArg Array.size h.frames.symm), h.entities⟩

/-- A frame more. -/
theorem Store.grows_push (s : Store) (parent : Option FrameId) (this : Option EntityRef) :
    s.Grows { s with frames := (s.frames.push parent this).2 } :=
  ⟨Nat.le_of_lt (Nat.lt_of_lt_of_eq (Nat.lt_succ_self _) (Array.size_push _).symm),
    fun _ => Nat.le_refl _⟩

theorem World.Grounded.push {w : World} {parent : Option FrameId} {this : Option EntityRef}
    (h : w.Grounded) (around : ∀ frame ∈ parent, frame < w.store.frames.frames.size)
    (home : ∀ entity ∈ this, w.store.HasEntity entity) :
    { w with store.frames := (w.store.frames.push parent this).2 }.Grounded := by
  have grows := w.store.grows_push parent this
  refine h.change grows (fun f mem => ?_) (fun _ mem => .inl mem) fun _ mem => .inl mem
  obtain mem | rfl := Array.mem_push.mp mem
  · exact .inl ⟨f, mem, rfl, rfl⟩
  · exact .inr (Frame.Grounded.grows (s := w.store) ⟨around, home⟩ grows)

/-- What a name means has nothing to do with what is around its frame. -/
theorem Frames.mem_link {s : Frames} {id : FrameId} {name : String} {slot : SlotId} {f : Frame}
    (mem : f ∈ (s.link id name slot).frames) :
    ∃ old ∈ s.frames, f.parent = old.parent ∧ f.this = old.this := by
  obtain ⟨i, bound, rfl⟩ := Array.mem_iff_getElem.mp mem
  have there : i < s.frames.size := Nat.lt_of_lt_of_eq bound Array.size_modify
  refine ⟨s.frames[i], Array.getElem_mem there, ?_⟩
  simp only [link, Array.getElem_modify]
  split
  · exact ⟨rfl, rfl⟩
  · exact ⟨rfl, rfl⟩

/-- Worlds are to be accepted, and what their code refers to is to be there. Frames are to keep their
entities, and no frame or entity is to be lost. -/
def Discipline.grounded : Discipline where
  sound := fun w => w.Accepted ∧ w.Grounded
  rests := fun w => w.Accepted ∧ w.Grounded
  later := fun w w' => w.Later w' ∧ w.store.Grows w'.store
  yields := fun w w' => w.Later w' ∧ w.store.Grows w'.store
  resumes := fun _ w w' => w.Later w' ∧ w.store.Grows w'.store
  imports := True
  roomy := fun _ _ => True
  stands := fun w frame => frame < w.store.frames.frames.size
  homes := fun w entity => w.store.HasEntity entity
  rests_of_sound := fun sound => sound
  later_refl := fun w => ⟨.refl w, .refl w.store⟩
  later_trans := fun ab bc => ⟨ab.1.trans bc.1, ab.2.trans bc.2⟩
  yields_refl := fun w => ⟨.refl w, .refl w.store⟩
  yields_trans := fun ab bc => ⟨ab.1.trans bc.1, ab.2.trans bc.2⟩

namespace Discipline

variable {w w' : World}

/-- What leads from accepted worlds to accepted ones does no harm if it keeps what is there. -/
theorem Reaches.grounded (h : accepted.Leads w w') (grounded : w'.Grounded)
    (grows : w.store.Grows w'.store) : Discipline.grounded.Leads w w' :=
  ⟨⟨h.sound, grounded⟩, ⟨h.later, grows⟩, h.yields, grows⟩

/-- Neither frames nor functions nor jobs have anything to do with it. -/
theorem Reaches.grounded_of_same (h : accepted.Leads w w') (sound : Discipline.grounded.sound w)
    (store : w'.store = w.store) (queue : w'.queue = w.queue) : Discipline.grounded.Leads w w' :=
  have grows : w.store.Grows w'.store := store ▸ .refl w.store
  h.grounded (sound.2.same (congrArg (fun s => s.frames.frames) store)
    (congrArg Store.functions store) queue grows) grows

/-- A function may be made if it is accepted and what it refers to is there. -/
theorem admits_grounded {callable : Callable} :
    grounded.Admits w callable ↔ accepted.Admits w callable ∧ callable.Grounded w.store := by
  induction callable with
  | closure definition frame =>
    refine ⟨fun ⟨t, fits, supports⟩ => ⟨⟨t, fits, supports.entity, trivial⟩, supports.stands⟩, ?_⟩
    exact fun ⟨⟨t, fits, supports⟩, stands⟩ => ⟨t, fits, supports.entity, stands⟩
  | curried target bound this ih =>
    refine ⟨fun ⟨admits, homes⟩ => ?_, fun ⟨⟨admits, _⟩, isGrounded, homes⟩ => ?_⟩
    · exact ⟨⟨(ih.mp admits).1, fun _ _ => trivial⟩, (ih.mp admits).2, homes⟩
    · exact ⟨ih.mpr ⟨admits, isGrounded⟩, homes⟩
  | native builtin => exact ⟨fun _ => ⟨trivial, trivial⟩, fun _ => trivial⟩
  | method receiver name => exact ⟨fun _ => ⟨trivial, trivial⟩, fun _ => trivial⟩
  | remote name spec => exact ⟨fun _ => ⟨trivial, trivial⟩, fun _ => trivial⟩

/-- A task may wait if it is accepted and what it refers to is there. -/
theorem fits_grounded {task : Task} (h : task.Fits grounded w) :
    task.Fits accepted w ∧ task.Grounded w.store := by
  cases task with
  | block body frame =>
    obtain ⟨t, outside, fits, supports, -⟩ := h
    exact ⟨⟨t, outside, fits, ⟨supports.entity, trivial⟩, trivial⟩, supports.stands⟩
  | program body args => exact h.elim
  | apply callback args => exact ⟨trivial, trivial⟩
  | method entity name args => exact ⟨trivial, trivial⟩

/-- One job more. -/
theorem leads_enqueue_grounded {job : Job} (sound : grounded.sound w)
    (suits : job.task.Accepted w) (isGrounded : job.task.Grounded w.store) :
    grounded.Leads w (w.enqueue job) :=
  (leads_enqueue (d := accepted) sound.1 suits).grounded
    (sound.2.change (.refl _) (fun f mem => .inl ⟨f, mem, rfl, rfl⟩) (fun _ mem => .inl mem)
      fun other mem => by
        obtain rfl | mem := List.mem_cons.mp mem
        · exact .inr isGrounded
        · exact .inl mem)
    (.refl _)

/-- One frame more, in which code may stand. -/
theorem leads_push_grounded {parent : Option FrameId} {this : Option EntityRef}
    (sound : grounded.sound w) (around : ∀ frame ∈ parent, grounded.stands w frame)
    (home : ∀ entity ∈ this, grounded.homes w entity) :
    grounded.Leads w { w with store.frames := (w.store.frames.push parent this).2 } ∧
      grounded.stands { w with store.frames := (w.store.frames.push parent this).2 }
        (w.store.frames.push parent this).1 := by
  have pushed : accepted.Leads w { w with store.frames := (w.store.frames.push parent this).2 } :=
    (World.SameCode.pushed w parent this).leads_accepted sound.1
  refine ⟨pushed.grounded (sound.2.push around home) (w.store.grows_push parent this), ?_⟩
  exact Nat.lt_of_lt_of_eq (Nat.lt_succ_self _) (Array.size_push _).symm

/-- Names may be bound as long as frames stay where they are. -/
theorem leads_bind_grounded {s : Frames} {id : FrameId} {name : String} {slot : SlotId}
    (h : accepted.Leads w w') (sound : grounded.sound w)
    (functions : w'.store.functions = w.store.functions)
    (arenas : w'.store.arenas = w.store.arenas) (queue : w'.queue = w.queue)
    (same : s.frames = w.store.frames.frames) (linked : w'.store.frames = s.link id name slot) :
    grounded.Leads w w' := by
  have grows : w.store.Grows w'.store := by
    refine ⟨?_, fun env => Nat.le_of_eq (by rw [Store.arena, Store.arena, arenas])⟩
    rw [linked, ← same]
    exact Nat.le_of_eq Array.size_modify.symm
  refine h.grounded (sound.2.change grows (fun f mem => .inl ?_) (fun _ mem => .inl (functions ▸ mem))
    fun _ mem => .inl (queue ▸ mem)) grows
  rw [linked] at mem
  exact same ▸ Frames.mem_link mem

/-- Whose turn it is does not matter, nor which calls have been counted. -/
theorem leads_withCalls_grounded {turn : Turn} {calls : List CallEvent} (sound : grounded.sound w) :
    grounded.Leads w { w with turn, calls } :=
  ((World.SameCode.withCalls w turn calls).leads_accepted sound.1).grounded_of_same sound rfl rfl

theorem reaches_resume_grounded (rests : grounded.rests w')
    (later : w.Later w' ∧ w.store.Grows w'.store) : grounded.Reaches w w' (w'.resume w) := by
  have resumed : grounded.Leads w' (w'.resume w) :=
    ((World.SameCode.withTurn w' _ w'.clock).leads_accepted rests.1).grounded_of_same rests rfl rfl
  exact resumed.rebase later (grounded.yields_refl w')

instance : grounded.Lawful where
  lasting := fun later => ⟨later.1, fun stands => Nat.lt_of_lt_of_le stands later.2.frames,
    fun homes => homes.grows later.2⟩
  roomy_later := fun _ _ => trivial
  homing := {
    this := fun sound belongs => sound.2.hasEntity belongs
    member := fun _ found => Store.hasEntity_of_member? found
    newEntity := fun env base _ => Store.hasEntity_newEntity env base }
  function := fun id sound => admits_grounded.mpr
    ⟨Lawful.function (d := accepted) id sound.1, sound.2.function id⟩
  quiet := fun sound quiet bindings promises =>
    (Lawful.quiet (d := accepted) sound.1 quiet bindings promises).grounded
      (sound.2.same quiet.frames quiet.functions quiet.queue quiet.grows) quiet.grows
  pushFrame := fun sound stands home =>
    have pushed := leads_push_grounded sound (fun _ same => Option.some.inj same ▸ stands) home
    ⟨pushed.1, trivial, pushed.2⟩
  declare := fun {w _ _ value} sound _ =>
    leads_bind_grounded (s := (w.store.frames.newSlot value).2)
      (Lawful.declare (d := accepted) sound.1 trivial) sound rfl rfl rfl rfl rfl
  pushFunction := fun {w callable} sound admits => by
    have admits := admits_grounded.mp admits
    have grows : w.store.Grows (w.pushFunction callable).store :=
      ⟨Nat.le_refl _, fun _ => Nat.le_refl _⟩
    refine (Lawful.pushFunction (d := accepted) sound.1 admits.1).grounded
      (sound.2.change grows (fun f mem => .inl ⟨f, mem, rfl, rfl⟩) (fun other mem => ?_)
        fun _ mem => .inl mem) grows
    obtain mem | rfl := Array.mem_push.mp mem
    · exact .inl mem
    · exact .inr (admits.2.grows grows)
  enqueue := fun sound fits =>
    have fits := fits_grounded fits
    leads_enqueue_grounded sound (fits.1.accepted rfl) fits.2
  suspend := fun _ _ rests resumes => reaches_resume_grounded rests resumes
  call := fun sound _ => .of_leads (leads_withCalls_grounded sound) ⟨.refl _, id, id⟩
    leads_withCalls_grounded
  interpreter := fun _ sound => .of_leads (leads_withCalls_grounded sound) ⟨.refl _, id, id⟩
    leads_withCalls_grounded
  link := fun {w link slot} imports sound =>
    leads_bind_grounded (s := w.store.frames) (Lawful.link (d := accepted) imports sound.1) sound
      rfl rfl rfl rfl rfl
  missed := fun imports sound =>
    (Lawful.missed (d := accepted) imports sound.1).grounded_of_same sound rfl rfl
  promising := .of_leads fun {w} promises promiseSteps rival sound =>
    have quiet := World.Quiet.withPromises w promises promiseSteps rival
    (quiet.sameCode.leads_accepted sound.1).grounded
      (sound.2.same quiet.frames quiet.functions quiet.queue quiet.grows) quiet.grows

instance : grounded.Open where
  imports := rfl
  roomy := fun _ _ => trivial
  accepted := fun sound => sound.1
  beside := fun sound store same _ _ _ =>
    (same.leads_accepted sound.1).grounded_of_same sound store same.queue
  pushRoot := fun sound => leads_push_grounded sound (fun _ no => by cases no) fun _ no => by cases no
  program := fun sound suits => leads_enqueue_grounded sound suits trivial
  awaken := fun _ rests resumes => reaches_resume_grounded rests resumes

end Discipline

/-- All tasks follow it. -/
def Accord.grounded : Accord where
  discipline := fun _ => .grounded
  rests := fun w => w.Accepted ∧ w.Grounded
  rely := fun _ w w' => w.Later w' ∧ w.store.Grows w'.store
  accepts := fun w job => job.task.Accepted w ∧ job.task.Grounded w.store
  fresh := fun _ _ => True
  rests_iff := .rfl
  rely_refl := fun _ w => ⟨.refl w, .refl w.store⟩
  rely_trans := fun ab bc => ⟨ab.1.trans bc.1, ab.2.trans bc.2⟩
  yields := fun _ later => later
  resumes := fun later _ => later
  turn := fun {w} turn clock rests =>
    ⟨(World.SameCode.withTurn w turn clock).accepted rests.1, rests.2.same rfl rfl rfl (.refl _)⟩
  rely_turn := fun _ w _ _ => ⟨.refl w, .refl w.store⟩
  queue := fun {w} rests => by
    refine ⟨⟨rests.1.withQueue fun _ mem => (by cases mem), ?_⟩, fun job mem =>
      ⟨rests.1.queue job mem, rests.2.queue job mem⟩⟩
    exact rests.2.change (.refl w.store) (fun f mem => .inl ⟨f, mem, rfl, rfl⟩)
      (fun _ mem => .inl mem) fun _ mem => by cases mem
  rely_queue := fun _ w => ⟨.refl w, .refl w.store⟩
  accepts_rely := fun later accepts => ⟨accepts.1.later later.1, accepts.2.grows later.2⟩
  fresh_rely := fun _ _ => trivial
  loses := fun {w} task lock rests => by
    obtain ⟨locks, history, same⟩ := w.lose_eq task lock
    have leads : Discipline.grounded.Leads w (w.lose task lock) :=
      ((World.SameCode.lose w task lock).leads_accepted rests.1).grounded_of_same rests
        (by rw [same]) (by rw [same])
    exact ⟨leads.sound, fun _ _ => leads.yields⟩
  sound := fun _ rests _ _ =>
    have leads := Discipline.leads_withCalls_grounded rests
    ⟨leads.sound, leads.yields⟩
  starts := fun {t w job} rests accepts _ _ => by
    have tame := Eval.tame_run_open (d := .grounded) Eval.levels
    refine Eval.tame_fulfil tame (Eval.tame_task_of_accepted tame
      (accepts.1.later fun _ has => has) fun body frame same => ?_)
    have isGrounded := accepts.2
    rw [same] at isGrounded
    exact isGrounded

end ScriptEngine
