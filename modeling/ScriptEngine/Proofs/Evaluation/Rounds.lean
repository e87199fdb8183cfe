import ScriptEngine.Evaluation.Pool
import ScriptEngine.Proofs.Evaluation.Plain

/-!
# Tasks side by side

Each task of a pool follows a discipline of its own. They agree if whatever one task does between
two waits is something that each other one puts up with while it waits.

* `Accord`: disciplines that agree.
* `Accord.Passes`: what becomes of the world in turns and between them.
* `Paused.Keeps`, `Pool.Keeps`, `Round.Keeps`: what waits goes on well in every world to come.
* `Pool.Keeps.yields`: the turn of another task changes nothing about that.
* `Round.Keeps.advance`, `Round.Keeps.finish`: one step of a round, and the round until the host has
  ended or for some steps.
* `Pool.Keeps.run`: an evaluation of the host.
-/

namespace ScriptEngine

/-- Disciplines of tasks that agree. -/
structure Accord where
  discipline : TaskId → Discipline
  /-- The worlds in which tasks may wait. -/
  rests : World → Prop
  /-- What a task puts up with while it waits. -/
  rely : TaskId → World → World → Prop
  /-- The jobs that may be started. -/
  accepts : World → Job → Prop
  /-- No task of this number has been there. -/
  fresh : World → TaskId → Prop
  rests_iff {t : TaskId} {w : World} : (discipline t).rests w ↔ rests w
  rely_refl (t : TaskId) (w : World) : rely t w w
  rely_trans {t : TaskId} {a b c : World} : rely t a b → rely t b c → rely t a c
  yields {t other : TaskId} {w w' : World} : other ≠ t → (discipline t).yields w w' →
    rely other w w'
  resumes {α : Type} {p : Paused α} {w w' : World} : rely p.task w w' → p.isReady w' = true →
    (discipline p.task).resumes p.wait w w'
  /-- Turns and the clock are the business of rounds. -/
  turn {w : World} (turn : Turn) (clock : Nat) : rests w → rests { w with turn, clock }
  rely_turn (t : TaskId) (w : World) (turn : Turn) (clock : Nat) : rely t w { w with turn, clock }
  /-- So is the queue. -/
  queue {w : World} : rests w → rests { w with queue := [] } ∧ ∀ job ∈ w.queue, accepts w job
  rely_queue (t : TaskId) (w : World) : rely t w { w with queue := [] }
  accepts_rely {t : TaskId} {w w' : World} {job : Job} : rely t w w' → accepts w job →
    accepts w' job
  fresh_rely {t : TaskId} {w w' : World} : rely t w w' → fresh w t → fresh w' t
  /-- What a task has held is free for others when it crashes. -/
  loses {w : World} (task : TaskId) (lock : Lock) : rests w → rests (w.lose task lock) ∧
    ∀ other, other ≠ task → rely other w (w.lose task lock)
  /-- A new task may go on with a new interpreter. -/
  sound {t : TaskId} {w : World} (env : EnvId) : rests w → fresh w t → w.turn.task = t →
    (discipline t).sound (w.newInterpreter env) ∧ (discipline t).yields w (w.newInterpreter env)
  /-- A job that may be started goes on well with it. -/
  starts {t : TaskId} {w : World} {job : Job} : rests w → accepts w job → fresh w t →
    w.turn.task = t → (Eval.fulfil ⟨Eval.goal⟩ job.promise job.task).Tame (discipline t) job.env
      (w.newInterpreter job.env) false false

/-- What turns of tasks, and rounds between them, make of a world. -/
inductive Accord.Passes (a : Accord) (w : World) : World → Prop
  | refl : a.Passes w w
  | turn {w' : World} (turn : Turn) (clock : Nat) : a.Passes w w' →
    a.Passes w { w' with turn, clock }
  | queue {w' : World} : a.Passes w w' → a.Passes w { w' with queue := [] }
  | yields {t : TaskId} {w' w'' : World} : a.Passes w w' → (a.discipline t).yields w' w'' →
    a.Passes w w''
  | loses {w' : World} (task : TaskId) (lock : Lock) : a.Passes w w' → a.Passes w (w'.lose task lock)

theorem Accord.Passes.trans {a : Accord} {w w' w'' : World} (h : a.Passes w w')
    (h' : a.Passes w' w'') : a.Passes w w'' := by
  induction h' with
  | refl => exact h
  | turn turn clock _ ih => exact ih.turn turn clock
  | queue _ ih => exact ih.queue
  | yields _ yields ih => exact ih.yields yields
  | loses task lock _ ih => exact ih.loses task lock

section

variable {α : Type} {a : Accord} {w w' : World}

/-- In every world to come, a task that waits goes on well in its turn. -/
def Paused.Keeps (a : Accord) (p : Paused α) (w : World) : Prop :=
  ∀ w', a.rests w' → a.rely p.task w w' → p.isReady w' = true → w'.turn.task = p.task →
    ∃ base, (p.resume w').Follows (a.discipline p.task) base w' (fun _ _ => True)
      (Signal.Within false false)

/-- The numbers of the tasks of a pool. -/
def Pool.numbers (p : Pool) : List TaskId := p.tasks.map (·.task)

/-- The tasks of a pool go on well, and its jobs may be started; tasks are numbered in their
order. -/
structure Pool.Keeps (a : Accord) (p : Pool) (w : World) : Prop where
  tasks : ∀ task ∈ p.tasks, task.Keeps a w
  distinct : p.numbers.Nodup
  below : ∀ t ∈ p.numbers, t < p.next
  jobs : ∀ job ∈ p.jobs, a.accepts w job
  fresh : ∀ t, p.next ≤ t → a.fresh w t

/-- The host of a round goes on well beside its tasks. -/
structure Round.Keeps (a : Accord) (r : Round α) (w : World) : Prop where
  host : r.host.Keeps a w
  apart : r.host.task ∉ r.pool.numbers
  old : r.host.task < r.next
  pool : r.pool.Keeps a w

theorem Paused.isReady_turn (p : Paused α) (w : World) (turn : Turn) :
    p.isReady { w with turn } = p.isReady w := by
  cases same : p.wait <;> simp [isReady, same]

theorem Paused.Keeps.rely {p : Paused α} (h : p.Keeps a w) (rely : a.rely p.task w w') :
    p.Keeps a w' :=
  fun w'' rests later => h w'' rests (a.rely_trans rely later)

/-! ## Crashes -/

/-- What others put up with when a task is gone from a world. -/
structure Accord.Leaves (a : Accord) (task : TaskId) (w w' : World) : Prop where
  rests : a.rests w'
  rely (other : TaskId) : other ≠ task → a.rely other w w'
  passes : a.Passes w w'

theorem Accord.Leaves.refl (rests : a.rests w) (task : TaskId) : a.Leaves task w w :=
  ⟨rests, fun other _ => a.rely_refl other w, .refl⟩

/-- A task that has lost some locks leaves the others as they were. -/
theorem Accord.leaves_lose (rests : a.rests w) (task : TaskId) (locks : List Lock) :
    a.Leaves task w (locks.foldl (fun w lock => w.lose task lock) w) := by
  induction locks generalizing w with
  | nil => exact .refl rests task
  | cons lock locks ih =>
    obtain ⟨rests, rely⟩ := a.loses task lock rests
    have rest := ih rests
    exact ⟨rest.rests, fun other apart => a.rely_trans (rely other apart) (rest.rely other apart),
      (Accord.Passes.loses task lock .refl).trans rest.passes⟩

/-- So does a task that has stopped. -/
theorem Round.leaves_left (rests : a.rests w) (task : TaskId) (stop : Stop) :
    a.Leaves task w (Round.left w task stop) := by
  match stop with
  | .unfinished .crash => exact Accord.leaves_lose rests task _
  | .unfinished .endless | .signal _ => exact .refl rests task

/-! ## Pools -/

namespace Pool.Keeps

variable {p : Pool} {task : Paused Unit} {tasks : List (Paused Unit)}

theorem empty (fresh : ∀ t, a.fresh w t) : Pool.empty.Keeps a w where
  tasks _ mem := absurd mem List.not_mem_nil
  distinct := List.nodup_nil
  below _ mem := absurd mem List.not_mem_nil
  jobs _ mem := absurd mem List.not_mem_nil
  fresh t _ := fresh t

theorem rely (h : p.Keeps a w) (rely : ∀ t, a.rely t w w') : p.Keeps a w' where
  tasks task mem := (h.tasks task mem).rely (rely _)
  distinct := h.distinct
  below := h.below
  jobs job mem := a.accepts_rely (rely p.next) (h.jobs job mem)
  fresh t le := a.fresh_rely (rely t) (h.fresh t le)

/-- What the tasks of a pool put up with from another one leaves them as they were. -/
theorem others {other : TaskId} (h : p.Keeps a w) (apart : other ∉ p.numbers) (old : other < p.next)
    (rely : ∀ t, t ≠ other → a.rely t w w') : p.Keeps a w' :=
  have later {t : TaskId} (le : p.next ≤ t) : a.rely t w w' :=
    rely t (Nat.ne_of_gt (Nat.lt_of_lt_of_le old le))
  { tasks := fun task mem => (h.tasks task mem).rely <| rely _
      (fun same => apart (List.mem_map.mpr ⟨task, mem, same⟩))
    distinct := h.distinct
    below := h.below
    jobs := fun job mem => a.accepts_rely (later (Nat.le_refl _)) (h.jobs job mem)
    fresh := fun t le => a.fresh_rely (later le) (h.fresh t le) }

/-- What another task does in its turn leaves those of a pool as they were. -/
theorem yields {other : TaskId} (h : p.Keeps a w) (apart : other ∉ p.numbers) (old : other < p.next)
    (yields : (a.discipline other).yields w w') : p.Keeps a w' :=
  h.others apart old fun _ differs => a.yields differs yields

/-- The order of the tasks does not matter. -/
theorem perm (h : p.Keeps a w) (perm : p.tasks.Perm tasks) : Pool.Keeps a { p with tasks } w where
  tasks task mem := h.tasks task (perm.mem_iff.mpr mem)
  distinct := (perm.map _).nodup_iff.mp h.distinct
  below t mem := h.below t ((perm.map _).mem_iff.mpr mem)
  jobs := h.jobs
  fresh := h.fresh

/-- One task is added. -/
theorem cons (h : p.Keeps a w) (goesOn : task.Keeps a w) (apart : task.task ∉ p.numbers)
    (old : task.task < p.next) : Pool.Keeps a { p with tasks := task :: p.tasks } w where
  tasks := List.forall_mem_cons.mpr ⟨goesOn, h.tasks⟩
  distinct := List.nodup_cons.mpr ⟨apart, h.distinct⟩
  below := List.forall_mem_cons.mpr ⟨old, h.below⟩
  jobs := h.jobs
  fresh := h.fresh

/-- One task is taken out. -/
theorem of_cons (h : Pool.Keeps a { p with tasks := task :: tasks } w) :
    Pool.Keeps a { p with tasks } w ∧ task.Keeps a w ∧
      task.task ∉ tasks.map (·.task) ∧ task.task < p.next :=
  have distinct := List.nodup_cons.mp h.distinct
  ⟨⟨(List.forall_mem_cons.mp h.tasks).2, distinct.2, (List.forall_mem_cons.mp h.below).2, h.jobs,
    h.fresh⟩, (List.forall_mem_cons.mp h.tasks).1, distinct.1, (List.forall_mem_cons.mp h.below).1⟩

/-- The first job is started as the next task. -/
theorem of_job {job : Job} {jobs : List Job} (h : Pool.Keeps a { p with jobs := job :: jobs } w) :
    Pool.Keeps a { p with jobs, next := p.next + 1 } w ∧ a.accepts w job ∧ a.fresh w p.next ∧
      p.next ∉ p.numbers :=
  have jobsAccepted := List.forall_mem_cons.mp h.jobs
  ⟨⟨h.tasks, h.distinct, fun t mem => Nat.lt_succ_of_lt (h.below t mem), jobsAccepted.2,
    fun t le => h.fresh t (Nat.le_of_succ_le le)⟩, jobsAccepted.1, h.fresh _ (Nat.le_refl _),
    fun mem => Nat.lt_irrefl _ (h.below _ mem)⟩

end Pool.Keeps

/-! ## Rounds -/

namespace Round

theorem Keeps.rely {r : Round α} (h : r.Keeps a w) (rely : ∀ t, a.rely t w w') :
    r.Keeps a w' :=
  ⟨h.host.rely (rely _), h.apart, h.old, h.pool.rely rely⟩

/-- What comes of a round in a world: tasks may wait, and the round goes on well. -/
structure Leads (a : Accord) (base : World) (r : Round α) (w : World) : Prop where
  rests : a.rests w
  keeps : r.Keeps a w
  passes : a.Passes base w

theorem Leads.behind {base : World} {r : Round α} (h : Leads a w r w') (passes : a.Passes base w) :
    Leads a base r w' :=
  ⟨h.rests, h.keeps, passes.trans h.passes⟩

/-- Where a progress has got to, tasks may wait, and others can go on there. -/
theorem rests_and_yields {β : Type} {t : TaskId} {p : Progress β} {base : World}
    {post : β → World → Prop} {ends : Signal → Prop}
    (follows : p.Follows (a.discipline t) base w post ends) :
    a.rests p.world ∧ (a.discipline t).yields w p.world := by
  have ended {w'} (reaches : (a.discipline t).Reaches base w w') :
      a.rests w' ∧ (a.discipline t).yields w w' :=
    ⟨a.rests_iff.mp ((a.discipline t).rests_of_sound reaches.sound), reaches.yields⟩
  cases p with
  | done value w' => exact ended follows.1
  | stopped stop w' =>
    cases stop with
    | signal s => exact ended follows.1
    | unfinished halt => exact ⟨a.rests_iff.mp follows.1, follows.2⟩
  | waiting wait w' resume => exact ⟨a.rests_iff.mp follows.1, follows.2.1⟩

/-- What waits in its turn goes on well later. -/
theorem keeps_of_follows {β : Type} {t : TaskId} {wait : Wait} {resume : World → Progress β}
    {base : World} (follows : (Progress.waiting wait w' resume).Follows (a.discipline t) base w
      (fun _ _ => True) (Signal.Within false false)) : Paused.Keeps a ⟨t, wait, resume⟩ w' :=
  fun w'' rests rely ready _ =>
    ⟨base, follows.2.2 w'' (a.rests_iff.mpr rests) (a.resumes rely ready)⟩

/-- The turn of a task leaves what waits as it was, and the task goes on well itself if it waits
now. -/
theorem Keeps.afterTurn {r : Round α} {task : TaskId} {p : Progress Unit} {base : World}
    (h : r.Keeps a w) (apart : task ∉ r.pool.numbers) (differs : r.host.task ≠ task)
    (old : task < r.next) (follows : p.Follows (a.discipline task) base w (fun _ _ => True)
      (Signal.Within false false)) :
    Leads a w (r.afterTurn task p).1 (r.afterTurn task p).2 := by
  obtain ⟨rests, yields⟩ := rests_and_yields follows
  have host := h.host.rely (a.yields differs yields)
  have pool := h.pool.yields apart old yields
  cases p with
  | done value w' => exact ⟨rests, ⟨host, h.apart, h.old, pool⟩, .yields .refl yields⟩
  | stopped stop w' =>
    have leaves := leaves_left rests task stop
    exact ⟨leaves.rests, ⟨host.rely (leaves.rely _ differs), h.apart, h.old,
      pool.others apart old leaves.rely⟩, (Accord.Passes.yields .refl yields).trans leaves.passes⟩
  | waiting wait w' resume =>
    have perm : (⟨task, wait, resume⟩ :: r.tasks).Perm
        ((⟨task, wait, resume⟩ :: r.behind).reverse ++ r.ahead) := by
      rw [List.reverse_cons, List.append_assoc]
      exact List.perm_middle.symm
    have added := (pool.cons (keeps_of_follows follows) apart old).perm perm
    refine ⟨rests, ⟨host, fun mem => ?_, h.old, added⟩, .yields .refl yields⟩
    rcases List.mem_cons.mp ((perm.map _).mem_iff.mpr mem) with same | mem
    · exact differs same
    · exact h.apart mem

/-- One step of a round goes on well. -/
theorem Keeps.advance {r : Round α} (limit : Nat) (h : r.Keeps a w) (rests : a.rests w) :
    Leads a w (r.advance limit w).2.1 (r.advance limit w).2.2 := by
  obtain ⟨next, host, ahead, behind, jobs, busy⟩ := r
  obtain ⟨hostGoes, apart, old, pool⟩ := h
  have passes (turn : Turn) (clock : Nat) : a.rests { w with turn, clock } ∧
      ∀ t, a.rely t w { w with turn, clock } :=
    ⟨a.turn turn clock rests, fun t => a.rely_turn t w turn clock⟩
  cases ahead with
  | cons task ahead =>
    have perm : (behind.reverse ++ task :: ahead).Perm (task :: (behind.reverse ++ ahead)) :=
      List.perm_middle
    obtain ⟨others, goesOn, alone, started⟩ := (pool.perm perm).of_cons
    have apart' := fun mem => apart ((perm.map (·.task)).mem_iff.mpr mem)
    obtain ⟨differs, rest⟩ := List.ne_and_not_mem_of_not_mem_cons apart'
    dsimp only [Round.advance]
    split
    · next ready =>
      have begins := passes ((Round.mk next host ahead behind jobs busy).turn task.task w).turn w.clock
      obtain ⟨base, follows⟩ := goesOn _ begins.1 (begins.2 _)
        ((task.isReady_turn w _).trans ready) rfl
      have keeps : Keeps a ⟨next, host, ahead, behind, jobs, busy⟩ w :=
        ⟨hostGoes, rest, old, others⟩
      exact ((keeps.rely begins.2).afterTurn alone differs started follows).behind (.turn _ _ .refl)
    · have same : (task :: behind).reverse ++ ahead = behind.reverse ++ task :: ahead := by
        rw [List.reverse_cons, List.append_assoc, List.singleton_append]
      refine ⟨rests, ⟨hostGoes, ?_, old, ?_⟩, .refl⟩
      · rwa [Pool.numbers, Round.pool, Round.tasks, same]
      · rwa [Round.pool, Round.tasks, same]
  | nil =>
    -- All tasks had their turn: jobs come in, one of them starts, or the next round begins.
    have again : Keeps a ⟨next, host, behind.reverse, [], jobs, false⟩ w := by
      have same : behind.reverse ++ [] = [].reverse ++ behind.reverse := by simp
      refine ⟨hostGoes, ?_, old, ?_⟩
      · rwa [Pool.numbers, Round.pool, Round.tasks, ← same]
      · rwa [Round.pool, Round.tasks, ← same]
    unfold Round.advance
    split
    · next no => cases no
    · next job queue _ none same =>
      obtain ⟨emptied, accepted⟩ := a.queue rests
      have pool := pool.rely fun t => a.rely_queue t w
      refine ⟨emptied, ⟨hostGoes.rely (a.rely_queue _ w), apart, old, pool.tasks, pool.distinct,
        pool.below, fun other mem => ?_, pool.fresh⟩, .queue .refl⟩
      exact a.accepts_rely (a.rely_queue next w) (accepted other (same ▸ List.mem_reverse.mp mem))
    · dsimp only
      split
      · next job rest _ _ _ =>
        obtain ⟨others, accepted, unknown, alone⟩ :=
          Pool.Keeps.of_job (p := ⟨next, behind.reverse ++ [], rest⟩) pool
        have keeps : Keeps a ⟨next + 1, host, [], behind, rest, busy⟩ w :=
          ⟨hostGoes, apart, Nat.lt_succ_of_lt old, others⟩
        have begins := passes ((Round.mk (next + 1) host [] behind rest busy).turn next
          { w with clock := w.clock + startingTime }).turn (w.clock + startingTime)
        have accepted := a.accepts_rely (begins.2 next) accepted
        have unknown := a.fresh_rely (begins.2 next) unknown
        obtain ⟨sound, yields⟩ := a.sound job.env begins.1 unknown rfl
        exact ((keeps.rely begins.2).afterTurn alone (Nat.ne_of_lt old) (Nat.lt_succ_self next)
          ((a.starts begins.1 accepted unknown rfl).anew sound yields)).behind (.turn _ _ .refl)
      · split
        · exact ⟨rests, again, .refl⟩
        · exact ⟨(passes w.turn _).1, again.rely (passes w.turn _).2, .turn _ _ .refl⟩
        · exact ⟨rests, again, .refl⟩

/-- So does a round until the host has ended, or for some steps, and what is left of it after
that. -/
theorem Keeps.finish {r : Round α} {limit steps : Nat} (h : r.Keeps a w) (rests : a.rests w) :
    a.rests (finish limit steps r w).2.2 ∧
      (finish limit steps r w).2.1.Keeps a (finish limit steps r w).2.2 ∧
        a.Passes w (finish limit steps r w).2.2 := by
  induction steps generalizing r w with
  | zero => exact ⟨rests, h.pool, .refl⟩
  | succ steps ih =>
    rw [Round.finish]
    split
    · next ready =>
      have begins : a.rests (r.turn r.host.task w) := a.turn _ w.clock rests
      have rely : ∀ t, a.rely t w (r.turn r.host.task w) := fun t => a.rely_turn t w _ w.clock
      obtain ⟨base, follows⟩ := h.host _ begins (rely _) ((r.host.isReady_turn w _).trans ready) rfl
      obtain ⟨rests', yields⟩ := rests_and_yields follows
      have pool := (h.pool.rely rely).yields h.apart h.old yields
      have passes : a.Passes w _ := .yields (.turn _ _ .refl) yields
      split
      · next w' ended => rw [ended] at rests' pool passes; exact ⟨rests', pool, passes⟩
      · next stop w' ended =>
        rw [ended] at rests' pool passes
        have leaves := leaves_left rests' r.host.task stop
        exact ⟨leaves.rests, pool.others h.apart h.old leaves.rely, passes.trans leaves.passes⟩
      · next wait w' resume ended =>
        rw [ended] at rests' pool follows passes
        have keeps : Keeps a { r with host := { r.host with wait, resume }, busy := true } w' :=
          ⟨keeps_of_follows follows, h.apart, h.old, pool⟩
        have goesOn := ih keeps rests'
        exact ⟨goesOn.1, goesOn.2.1, passes.trans goesOn.2.2⟩
    · have goes := h.advance limit rests
      split
      · next ended =>
        rw [ended] at goes
        have goesOn := ih goes.keeps goes.rests
        exact ⟨goesOn.1, goesOn.2.1, goes.passes.trans goesOn.2.2⟩
      · next ended =>
        rw [ended] at goes
        exact ⟨goes.rests, goes.keeps.pool, goes.passes⟩

end Round

/-- An evaluation of the host in an environment leads to a world in which tasks may wait, and what is
left of it goes on well there. -/
theorem Pool.Keeps.run {p : Pool} {limit : Nat} {x : Eval α} {env : EnvId} (h : p.Keeps a w)
    (rests : a.rests w) (follows : ∀ base, x.Tame (a.discipline p.next) env base false false) :
    a.rests (p.run limit env x w).2.2 ∧
      (p.run limit env x w).2.1.Keeps a (p.run limit env x w).2.2 ∧
        a.Passes w (p.run limit env x w).2.2 := by
  refine Round.Keeps.finish ⟨fun w' rests' rely _ task => ?_, fun mem => ?_, Nat.lt_succ_self _,
    h.tasks, h.distinct, fun t mem => Nat.lt_succ_of_lt (h.below t mem), h.jobs,
    fun t le => h.fresh t (Nat.le_of_succ_le le)⟩ rests
  · obtain ⟨sound, yields⟩ := a.sound env rests'
      (a.fresh_rely rely (h.fresh _ (Nat.le_refl _))) task
    exact ⟨_, (follows _).anew sound yields⟩
  · exact Nat.lt_irrefl _ (h.below _ mem)

end

end ScriptEngine
