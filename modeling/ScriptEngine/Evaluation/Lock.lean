import ScriptEngine.Value

/-!
# Locks

A lock is held by one task at a time, and its owner may take it as often as it likes. Whoever asks
for a lock that is taken waits, and gets it in the order of asking when it is free again.

* `LockTable.acquire`: a task takes a lock, or waits for it.
* `LockTable.release`: the owner gives a lock back once, the last time to whoever waits first.
* `LockTable.forfeit`: the owner loses a lock at once, however often it has taken it.
-/

namespace ScriptEngine

/-- The number of a task. -/
abbrev TaskId := Nat

/-- What a lock guards. -/
inductive LockName
  /-- The running of modules that are imported. -/
  | modules
  /-- What scripts run under no key. -/
  | plain
  /-- What scripts run under a key. -/
  | keyed (key : String)
deriving Repr, DecidableEq

/-- A lock of an environment. -/
structure Lock where
  env : EnvId
  name : LockName
deriving Repr, DecidableEq

/-- A lock that is taken. -/
structure Hold where
  lock : Lock
  owner : TaskId
  /-- How often the owner has taken it. -/
  count : Nat
  /-- Who waits for it, the first one to get it first. -/
  waiting : List TaskId
deriving Repr, DecidableEq

/-- The locks that are taken. -/
structure LockTable where
  holds : List Hold
deriving Repr

namespace LockTable

/-- No lock is taken. -/
def empty : LockTable := ⟨[]⟩

/-- How a lock is held, if it is taken. -/
def hold? (t : LockTable) (lock : Lock) : Option Hold :=
  t.holds.find? fun hold => hold.lock = lock

/-- Whether a task holds a lock. -/
def isHeldBy (t : LockTable) (lock : Lock) (task : TaskId) : Bool :=
  (t.hold? lock).any fun hold => hold.owner = task

/-- The table without a lock. -/
def erase (t : LockTable) (lock : Lock) : LockTable :=
  ⟨t.holds.filter fun hold => hold.lock ≠ lock⟩

/-- Puts a hold in the place of that of the same lock. -/
def insert (t : LockTable) (hold : Hold) : LockTable :=
  ⟨hold :: (t.erase hold.lock).holds⟩

/-- A task takes a lock if that is free or its own, and else begins to wait for it. -/
def acquire (t : LockTable) (lock : Lock) (task : TaskId) : LockTable :=
  match t.hold? lock with
  | none => t.insert ⟨lock, task, 1, []⟩
  | some hold =>
    if hold.owner = task then t.insert { hold with count := hold.count + 1 }
    else t.insert { hold with waiting := hold.waiting ++ [task] }

/-- A lock that its owner does not hold any longer is free, or goes to whoever waits first. -/
def pass (t : LockTable) (hold : Hold) : LockTable :=
  match hold.waiting with
  | [] => t.erase hold.lock
  | next :: waiting => t.insert ⟨hold.lock, next, 1, waiting⟩

/-- The owner of a lock gives it back once. -/
def release (t : LockTable) (lock : Lock) : LockTable :=
  match t.hold? lock with
  | none => t
  | some hold =>
    if 1 < hold.count then t.insert { hold with count := hold.count - 1 } else t.pass hold

/-- The owner of a lock loses it. -/
def forfeit (t : LockTable) (lock : Lock) : LockTable :=
  match t.hold? lock with
  | none => t
  | some hold => t.pass hold

end LockTable

end ScriptEngine
