import ScriptEngine.Evaluation.Lock

/-!
# Locks

* `hold?_insert`, `hold?_erase`: how locks are held after a change.
* `hold?_acquire_of_ne`, `hold?_release_of_ne`, `hold?_forfeit_of_ne`: taking a lock, giving it back and
  losing it leaves the others alone.
* `hold?_acquire`, `hold?_release`, `hold?_forfeit`: what becomes of the lock itself.
-/

namespace ScriptEngine

/-- How a lock is held when its owner does not hold it any longer, unless it is free then. -/
def Hold.passed? (hold : Hold) : Option Hold :=
  match hold.waiting with
  | [] => none
  | next :: waiting => some ⟨hold.lock, next, 1, waiting⟩

end ScriptEngine

namespace ScriptEngine.LockTable

variable {t : LockTable} {lock other : Lock} {hold : Hold} {task : TaskId}

theorem lock_of_hold? (h : t.hold? lock = some hold) : hold.lock = lock := by
  simpa using List.find?_some h

theorem hold?_erase : (t.erase lock).hold? other = if lock = other then none else t.hold? other := by
  simp only [hold?, erase]
  split
  · next same =>
    subst same
    simp
  · next differs =>
    rw [List.find?_filter]
    congr 1
    funext hold
    by_cases same : hold.lock = other
    · have apart : other ≠ lock := fun back => differs back.symm
      simp [same, apart]
    · simp [same]

theorem hold?_insert :
    (t.insert hold).hold? other = if hold.lock = other then some hold else t.hold? other := by
  rw [insert, hold?, List.find?_cons]
  split
  · next same => simp [of_decide_eq_true same]
  · next differs =>
    have differs : hold.lock ≠ other := of_decide_eq_false differs
    rw [if_neg differs]
    exact hold?_erase.trans (if_neg differs)

/-- Taking a lock leaves the other ones alone. -/
theorem hold?_acquire_of_ne (h : lock ≠ other) : (t.acquire lock task).hold? other = t.hold? other := by
  unfold acquire
  split
  · rw [hold?_insert, if_neg h]
  · next hold found =>
    have apart : hold.lock ≠ other := lock_of_hold? found ▸ h
    split
    · rw [hold?_insert, if_neg apart]
    · rw [hold?_insert, if_neg apart]

theorem hold?_pass_of_ne (h : hold.lock ≠ other) : (t.pass hold).hold? other = t.hold? other := by
  unfold pass
  split
  · rw [hold?_erase, if_neg h]
  · rw [hold?_insert, if_neg h]

/-- So does giving it back. -/
theorem hold?_release_of_ne (h : lock ≠ other) : (t.release lock).hold? other = t.hold? other := by
  unfold release
  split
  · rfl
  · next hold found =>
    have apart : hold.lock ≠ other := lock_of_hold? found ▸ h
    split
    · rw [hold?_insert, if_neg apart]
    · exact hold?_pass_of_ne apart

/-- And so does losing it. -/
theorem hold?_forfeit_of_ne (h : lock ≠ other) : (t.forfeit lock).hold? other = t.hold? other := by
  unfold forfeit
  split
  · rfl
  · next hold found => exact hold?_pass_of_ne (lock_of_hold? found ▸ h)

/-- Who takes a lock gets it, gets it once more, or waits for it. -/
theorem hold?_acquire :
    (t.acquire lock task).hold? lock = some (match t.hold? lock with
      | none => ⟨lock, task, 1, []⟩
      | some hold =>
        if hold.owner = task then { hold with count := hold.count + 1 }
        else { hold with waiting := hold.waiting ++ [task] }) := by
  unfold acquire
  cases found : t.hold? lock with
  | none => exact hold?_insert.trans (if_pos rfl)
  | some hold =>
    have same := lock_of_hold? found
    dsimp only
    split
    · rw [hold?_insert, if_pos same]
    · rw [hold?_insert, if_pos same]

theorem hold?_pass (found : t.hold? lock = some hold) :
    (t.pass hold).hold? lock = hold.passed? := by
  have same := lock_of_hold? found
  unfold pass Hold.passed?
  cases hold.waiting with
  | nil => exact hold?_erase.trans (if_pos same)
  | cons next waiting => exact hold?_insert.trans (if_pos same)

/-- A lock that is given back for the last time goes to the first one that waits for it. -/
theorem hold?_release (found : t.hold? lock = some hold) :
    (t.release lock).hold? lock =
      if 1 < hold.count then some { hold with count := hold.count - 1 } else hold.passed? := by
  have same := lock_of_hold? found
  unfold release
  rw [found]
  dsimp only
  split
  · rw [hold?_insert, if_pos same]
  · exact hold?_pass found

/-- So does one that is lost. -/
theorem hold?_forfeit (found : t.hold? lock = some hold) :
    (t.forfeit lock).hold? lock = hold.passed? := by
  rw [forfeit, found]
  exact hold?_pass found

end ScriptEngine.LockTable
