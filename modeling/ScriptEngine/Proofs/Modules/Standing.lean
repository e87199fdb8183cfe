import Mathlib.Data.List.Nodup
import ScriptEngine.Proofs.Evaluation.Locks

/-!
# How tasks stand to the lock of modules

One task at a time runs the modules of an environment for those that import them. The others have
nothing to do with that, or wait until it is their turn; then no module is in progress.

* `Standing`, `Standing.of`: how a task stands to a lock.
* `Guarded`: how the lock and the modules in progress belong together.
* `Standing.Lasts`: what a task that waits puts up with.
* `taken`, `of_acquire`, `of_release`, `of_forfeit`: what becomes of it when a task takes the lock, gives
  it back, or loses it.
-/

namespace ScriptEngine

/-- How a task stands to the lock under which an environment runs modules. -/
inductive Standing
  /-- It neither holds the lock nor waits for it. -/
  | outside
  /-- It waits for the lock. -/
  | queued
  /-- It holds the lock so many times, while these modules are in progress. -/
  | owner (count : Nat) (progress : List String)

/-- The standing of a task to a lock that is held like this, or is free, while some modules are in
progress. -/
def Standing.of (hold? : Option Hold) (progress : List String) (task : TaskId) : Standing :=
  match hold? with
  | none => .outside
  | some hold =>
    if hold.owner = task then .owner hold.count progress
    else if task ∈ hold.waiting then .queued
    else .outside

/-- No module is in progress unless the lock is held. Nobody waits for it twice, and its owner does
not wait. -/
def Guarded (hold? : Option Hold) (progress : List String) : Prop :=
  match hold? with
  | none => progress = []
  | some hold => 0 < hold.count ∧ (hold.owner :: hold.waiting).Nodup

/-- A standing lasts, but who waits for the lock may get it. No module is in progress then. -/
def Standing.Lasts (s s' : Standing) : Prop := s' = s ∨ s = .queued ∧ s' = .owner 1 []

namespace Standing

variable {hold? : Option Hold} {hold : Hold} {progress progress' : List String}
  {task other : TaskId} {lock : Lock} {count : Nat} {t : LockTable}

theorem Lasts.refl (s : Standing) : s.Lasts s := .inl rfl

theorem Lasts.trans {a b c : Standing} (h : a.Lasts b) (h' : b.Lasts c) : a.Lasts c := by
  rcases h with rfl | ⟨rfl, rfl⟩
  · exact h'
  · rcases h' with rfl | ⟨no, -⟩
    · exact .inr ⟨rfl, rfl⟩
    · cases no

/-- Who does not wait stays where it is. -/
theorem Lasts.eq {s s' : Standing} (h : s.Lasts s') (settled : s ≠ .queued) : s' = s := by
  rcases h with same | ⟨queued, -⟩
  · exact same
  · exact absurd queued settled

theorem of_owner (mine : hold.owner = task) :
    of (some hold) progress task = .owner hold.count progress :=
  if_pos mine

theorem of_other (apart : hold.owner ≠ task) :
    of (some hold) progress task = if task ∈ hold.waiting then .queued else .outside :=
  if_neg apart

/-- Who holds the lock is its owner. -/
theorem exists_of_owner (h : of hold? progress task = .owner count progress') :
    ∃ hold, hold? = some hold ∧ hold.owner = task ∧ hold.count = count ∧ progress' = progress := by
  match hold? with
  | none => cases h
  | some hold =>
    by_cases mine : hold.owner = task
    · rw [of_owner mine] at h
      cases h
      exact ⟨hold, rfl, mine, rfl, rfl⟩
    · rw [of_other mine] at h
      split at h <;> cases h

/-- Whether the lock is held by a task can be asked. -/
theorem isHeldBy_iff : t.isHeldBy lock task = true ↔
    ∃ count progress', of (t.hold? lock) progress task = .owner count progress' := by
  unfold LockTable.isHeldBy
  cases t.hold? lock with
  | none => simp [of]
  | some hold =>
    by_cases mine : hold.owner = task
    · simp [mine, of_owner mine]
    · rw [of_other mine]
      split <;> simp [mine]

/-! ## Taking the lock -/

section

variable (guarded : Guarded (t.hold? lock) progress)

include guarded

/-- A task that does not wait already may ask for the lock. -/
theorem guarded_acquire (settled : of (t.hold? lock) progress task ≠ .queued) :
    Guarded ((t.acquire lock task).hold? lock) progress := by
  rw [LockTable.hold?_acquire]
  cases found : t.hold? lock with
  | none => exact ⟨Nat.one_pos, by simp⟩
  | some hold =>
    rw [found] at guarded settled
    dsimp only
    split
    · exact ⟨Nat.succ_pos _, guarded.2⟩
    · next apart =>
      refine ⟨guarded.1, ?_⟩
      have fresh : task ∉ hold.waiting := fun waits => settled ((of_other apart).trans (if_pos waits))
      obtain ⟨owner, waiting⟩ := List.nodup_cons.mp guarded.2
      refine List.nodup_cons.mpr ⟨fun mem => ?_, ?_⟩
      · rcases List.mem_append.mp mem with mem | mem
        · exact owner mem
        · exact apart (List.mem_singleton.mp mem)
      · refine waiting.append (List.nodup_singleton _) ?_
        simpa using fresh

/-- Who is outside gets the lock at once if it is free, or waits for it. -/
theorem of_acquire_outside (outside : of (t.hold? lock) progress task = .outside) :
    of ((t.acquire lock task).hold? lock) progress task = .owner 1 [] ∨
      of ((t.acquire lock task).hold? lock) progress task = .queued := by
  rw [LockTable.hold?_acquire]
  cases found : t.hold? lock with
  | none =>
    rw [found] at guarded
    obtain rfl : progress = [] := guarded
    exact .inl (if_pos rfl)
  | some hold =>
    rw [found] at outside
    have apart : hold.owner ≠ task := by
      intro mine
      rw [of_owner mine] at outside
      cases outside
    dsimp only
    rw [if_neg apart]
    exact .inr ((if_neg apart).trans (if_pos (List.mem_append_right _ List.mem_cons_self)))

omit guarded

/-- The owner gets the lock once more. -/
theorem of_acquire_owner (owner : of (t.hold? lock) progress task = .owner count progress) :
    of ((t.acquire lock task).hold? lock) progress task = .owner (count + 1) progress := by
  obtain ⟨hold, found, mine, same, -⟩ := exists_of_owner owner
  rw [LockTable.hold?_acquire, found]
  dsimp only
  rw [if_pos mine, of_owner (by exact mine), same]

/-- The others stand as they did. -/
theorem of_acquire_other (apart : task ≠ other) :
    of ((t.acquire lock task).hold? lock) progress other = of (t.hold? lock) progress other := by
  rw [LockTable.hold?_acquire]
  cases t.hold? lock with
  | none =>
    refine (of_other apart).trans ?_
    simp [of]
  | some hold =>
    dsimp only
    split
    · next mine =>
      have apart : hold.owner ≠ other := mine ▸ apart
      rw [of_other apart, of_other (by exact apart)]
    · by_cases mine : hold.owner = other
      · rw [of_owner mine, of_owner (by exact mine)]
      · rw [of_other mine, of_other (by exact mine)]
        simp [apart.symm]

end

/-- The standing of who has taken the lock once more. -/
def taken : Standing → Standing
  | .owner count progress => .owner (count + 1) progress
  | .outside | .queued => .owner 1 []

/-- Who asks for the lock gets it, or waits for it if it stood outside. -/
theorem of_acquire (guarded : Guarded (t.hold? lock) progress)
    (settled : of (t.hold? lock) progress task ≠ .queued) :
    if (t.acquire lock task).isHeldBy lock task = true then
      of ((t.acquire lock task).hold? lock) progress task = (of (t.hold? lock) progress task).taken
    else
      of (t.hold? lock) progress task = .outside ∧
        of ((t.acquire lock task).hold? lock) progress task = .queued := by
  have held_iff : (t.acquire lock task).isHeldBy lock task = true ↔ ∃ count progress',
      of ((t.acquire lock task).hold? lock) progress task = .owner count progress' := isHeldBy_iff
  cases standing : of (t.hold? lock) progress task with
  | outside =>
    rcases of_acquire_outside guarded standing with taken | waits
    · rw [if_pos (held_iff.mpr ⟨1, [], taken⟩)]
      exact taken
    · rw [if_neg fun held => ?_]
      · exact ⟨rfl, waits⟩
      · obtain ⟨_, _, owner⟩ := held_iff.mp held
        rw [waits] at owner
        cases owner
  | queued => exact absurd standing settled
  | owner count progress' =>
    obtain ⟨-, -, -, -, rfl⟩ := exists_of_owner standing
    have taken := of_acquire_owner standing
    rw [if_pos (held_iff.mpr ⟨_, _, taken⟩)]
    exact taken

/-! ## Giving it back -/

/-- The owner of a lock that is passed on is outside, and the first one that waits may have it. -/
theorem of_passed (guarded : Guarded (some hold) progress) :
    Guarded hold.passed? [] ∧ of hold.passed? [] hold.owner = .outside ∧
      ∀ other, other ≠ hold.owner →
        (of (some hold) progress other).Lasts (of hold.passed? [] other) := by
  obtain ⟨-, distinct⟩ := guarded
  obtain ⟨alone, waiting⟩ := List.nodup_cons.mp distinct
  have before {other : TaskId} (apart : other ≠ hold.owner) : of (some hold) progress other =
      if other ∈ hold.waiting then .queued else .outside :=
    of_other apart.symm
  unfold Hold.passed?
  cases rest : hold.waiting with
  | nil =>
    refine ⟨rfl, rfl, fun other apart => ?_⟩
    rw [before apart, rest]
    simp [of, Lasts]
  | cons next rest' =>
    rw [rest] at alone waiting
    obtain ⟨differs, rest''⟩ := List.ne_and_not_mem_of_not_mem_cons alone
    refine ⟨⟨Nat.one_pos, waiting⟩, ?_, fun other apart => ?_⟩
    · exact (of_other (by exact Ne.symm differs)).trans (if_neg rest'')
    · rw [before apart, rest]
      by_cases first : next = other
      · subst first
        rw [if_pos List.mem_cons_self, of_owner rfl]
        exact .inr ⟨rfl, rfl⟩
      · rw [of_other (by exact first)]
        simp [Ne.symm first, Lasts]

section

variable (guarded : Guarded (t.hold? lock) progress)
  (owner : of (t.hold? lock) progress task = .owner count progress)

include guarded owner

/-- Who has held the lock more than once goes on to hold it. -/
theorem of_release_again (more : 1 < count) :
    Guarded ((t.release lock).hold? lock) progress ∧
      of ((t.release lock).hold? lock) progress task = .owner (count - 1) progress ∧
        ∀ other, of ((t.release lock).hold? lock) progress other =
          if other = task then .owner (count - 1) progress
          else of (t.hold? lock) progress other := by
  obtain ⟨hold, found, mine, rfl, -⟩ := exists_of_owner owner
  rw [LockTable.hold?_release found, if_pos more, found]
  rw [found] at guarded
  refine ⟨⟨Nat.sub_pos_of_lt more, guarded.2⟩, of_owner (by exact mine), fun other => ?_⟩
  split
  · next same => rw [same, of_owner (by exact mine)]
  · next apart =>
    have apart : hold.owner ≠ other := fun same => apart (same.symm.trans mine)
    rw [of_other apart, of_other (by exact apart)]

/-- When the lock is given back for the last time, and no module is in progress, its owner is outside,
and the first one that waits may have it. -/
theorem of_release_last (last : count = 1) (none : progress = []) :
    Guarded ((t.release lock).hold? lock) progress ∧
      of ((t.release lock).hold? lock) progress task = .outside ∧
        ∀ other, other ≠ task → (of (t.hold? lock) progress other).Lasts
          (of ((t.release lock).hold? lock) progress other) := by
  obtain ⟨hold, found, rfl, same, -⟩ := exists_of_owner owner
  have once : ¬ 1 < hold.count := by omega
  rw [LockTable.hold?_release found, if_neg once, found, none]
  exact of_passed (none ▸ found ▸ guarded)

/-- When the lock is lost and no module is in progress any longer, the same is true. -/
theorem of_forfeit :
    Guarded ((t.forfeit lock).hold? lock) [] ∧
      of ((t.forfeit lock).hold? lock) [] task = .outside ∧
        ∀ other, other ≠ task → (of (t.hold? lock) progress other).Lasts
          (of ((t.forfeit lock).hold? lock) [] other) := by
  obtain ⟨hold, found, rfl, -, -⟩ := exists_of_owner owner
  rw [LockTable.hold?_forfeit found, found]
  exact of_passed (found ▸ guarded)

end

/-- Who has taken the lock and gives it back stands as before, and nobody else loses anything. -/
theorem of_release {before : Standing} (guarded : Guarded (t.hold? lock) progress)
    (settled : before ≠ .queued) (held : ∀ count progress', before = .owner count progress' → 0 < count)
    (taken : of (t.hold? lock) progress task = before.taken) :
    Guarded ((t.release lock).hold? lock) progress ∧
      of ((t.release lock).hold? lock) progress task = before ∧
        ∀ other, other ≠ task → (of (t.hold? lock) progress other).Lasts
          (of ((t.release lock).hold? lock) progress other) := by
  cases before with
  | outside =>
    obtain ⟨-, -, -, -, none⟩ := exists_of_owner taken
    subst none
    exact of_release_last guarded taken rfl rfl
  | queued => exact absurd rfl settled
  | owner count progress' =>
    obtain ⟨-, -, -, -, rfl⟩ := exists_of_owner taken
    obtain ⟨guarded', mine, others⟩ := of_release_again guarded taken
      (Nat.succ_lt_succ (held count _ rfl))
    refine ⟨guarded', mine, fun other apart => .inl ?_⟩
    rw [others, if_neg apart]

end Standing

end ScriptEngine
