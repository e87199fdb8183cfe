import Mathlib.Data.List.Nodup
import ScriptEngine.Evaluation.World

/-!
# The history of modules

The milestones of a world tell which modules an environment runs now for those that import them, and
which ones it has initialised. A history is orderly if each milestone could follow what came before.

* `inProgress`, `completed`: the modules that are being run, and those that have come to their end.
* `Milestone.Follows`, `Orderly`: what may come when.
* `Orderly.nodup`: no module is in progress twice, initialised twice, or both at once.
-/

namespace ScriptEngine

/-- The modules that an environment has begun to run and that have neither come to their end nor
panicked, nor been given up with a task that has crashed, the latest first. -/
def inProgress (env : EnvId) : List Milestone → List String
  | [] => []
  | .began env' name :: earlier =>
    if env' = env then name :: inProgress env earlier else inProgress env earlier
  | .initialised env' _ _ :: earlier | .failed env' _ _ :: earlier =>
    if env' = env then (inProgress env earlier).tail else inProgress env earlier
  | .abandoned env' :: earlier => if env' = env then [] else inProgress env earlier
  | .opened _ _ :: earlier | .left _ :: earlier | .linked _ :: earlier | .missed _ :: earlier
  | .unknown _ _ :: earlier => inProgress env earlier

/-- The modules that have come to their end in an environment and their frames, the latest first. -/
def completed (env : EnvId) : List Milestone → List (String × FrameId)
  | [] => []
  | .initialised env' name frame :: earlier =>
    if env' = env then (name, frame) :: completed env earlier else completed env earlier
  | .opened _ _ :: earlier | .began _ _ :: earlier | .failed _ _ _ :: earlier
  | .abandoned _ :: earlier | .left _ :: earlier | .linked _ :: earlier | .missed _ :: earlier
  | .unknown _ _ :: earlier => completed env earlier

/-- What a milestone needs to have come before. A module begins only if it is neither in progress nor
initialised. The one that ends is the one that began last. What is imported comes from a module that
is initialised; if it has no slot there, a return has left that module. No module is unknown. -/
def Milestone.Follows (earlier : List Milestone) : Milestone → Prop
  | .opened frame _ => ∀ task, .opened frame task ∉ earlier
  | .began env name => name ∉ inProgress env earlier ∧ name ∉ (completed env earlier).map (·.1)
  | .initialised env name frame =>
    (inProgress env earlier).head? = some name ∧ ∃ task, .opened frame task ∈ earlier
  | .failed env name _ => (inProgress env earlier).head? = some name
  | .abandoned _ => True
  | .left frame => ∃ task, .opened frame task ∈ earlier
  | .linked link =>
    (∃ task, .opened link.importer task ∈ earlier) ∧
      (link.source, link.exporter) ∈ completed link.env earlier
  | .missed link =>
    (link.source, link.exporter) ∈ completed link.env earlier ∧ .left link.exporter ∈ earlier
  | .unknown _ _ => False

/-- Every milestone follows the ones before it. -/
def Orderly : List Milestone → Prop
  | [] => True
  | milestone :: earlier => milestone.Follows earlier ∧ Orderly earlier

variable {history earlier : List Milestone} {env : EnvId} {name : String} {frame : FrameId}

theorem mem_completed_iff :
    (name, frame) ∈ completed env history ↔ .initialised env name frame ∈ history := by
  induction history with
  | nil => simp [completed]
  | cons milestone earlier ih =>
    cases milestone with
    | initialised env' name' frame' =>
      rw [completed, List.mem_cons, ← ih]
      split
      · next same => subst same; simp
      · next apart => simp [Ne.symm apart]
    | _ => simp [completed, ih]

namespace Orderly

theorem of_suffix (h : Orderly history) (suffix : earlier <:+ history) : Orderly earlier := by
  induction history with
  | nil => exact List.suffix_nil.mp suffix ▸ trivial
  | cons milestone rest ih =>
    rcases List.suffix_cons_iff.mp suffix with rfl | suffix
    · exact h
    · exact ih h.2 suffix

/-- No module is in progress twice, none is initialised twice, and none is both at once. -/
theorem nodup (h : Orderly history) :
    (inProgress env history ++ (completed env history).map (·.1)).Nodup := by
  induction history with
  | nil => exact List.nodup_nil
  | cons milestone earlier ih =>
    have before := ih h.2
    cases milestone with
    | began env' name =>
      rw [inProgress, completed]
      split
      · next same =>
        subst same
        exact List.nodup_cons.mpr ⟨fun mem => (List.mem_append.mp mem).elim h.1.1 h.1.2, before⟩
      · exact before
    | initialised env' name frame =>
      rw [inProgress, completed]
      split
      · next same =>
        -- What was the first one in progress is the first one initialised now.
        subst same
        obtain ⟨rest, first⟩ := List.head?_eq_some_iff.mp h.1.1
        rw [first] at before ⊢
        exact (List.perm_middle.nodup_iff).mpr before
      · exact before
    | failed env' name cause =>
      rw [inProgress, completed]
      split
      · exact before.sublist (List.Sublist.append_right (List.tail_sublist _) _)
      · exact before
    | abandoned env' =>
      rw [inProgress, completed]
      split
      · exact before.of_append_right
      · exact before
    | _ => exact before

/-- A frame is opened by one task only. -/
theorem opened_unique (h : Orderly history) {task task' : TaskId}
    (opened : .opened frame task ∈ history) (opened' : .opened frame task' ∈ history) :
    task = task' := by
  induction history with
  | nil => cases opened
  | cons milestone earlier ih =>
    rcases List.mem_cons.mp opened with rfl | old
    · rcases List.mem_cons.mp opened' with same | old'
      · cases same; rfl
      · exact absurd old' (h.1 task')
    · rcases List.mem_cons.mp opened' with rfl | old'
      · exact absurd old (h.1 task)
      · exact ih h.2 old old'

/-- The frame of a module that has been initialised was opened before. -/
theorem exists_opened (h : Orderly history) (done : (name, frame) ∈ completed env history) :
    ∃ task, .opened frame task ∈ history := by
  induction history with
  | nil => cases done
  | cons milestone earlier ih =>
    have before (done : (name, frame) ∈ completed env earlier) :
        ∃ task, .opened frame task ∈ milestone :: earlier := by
      obtain ⟨task, mem⟩ := ih h.2 done
      exact ⟨task, List.mem_cons_of_mem _ mem⟩
    cases milestone with
    | initialised env' name' frame' =>
      rcases List.mem_cons.mp (mem_completed_iff.mp done) with same | mem
      · cases same
        obtain ⟨task, mem⟩ := h.1.2
        exact ⟨task, List.mem_cons_of_mem _ mem⟩
      · exact before (mem_completed_iff.mpr mem)
    | _ => exact before done

/-- What was imported came from a module that is initialised. -/
theorem of_linked (h : Orderly history) {link : Link} (linked : .linked link ∈ history) :
    (∃ task, .opened link.importer task ∈ history) ∧
      (link.source, link.exporter) ∈ completed link.env history := by
  induction history with
  | nil => cases linked
  | cons milestone earlier ih =>
    obtain ⟨⟨task, mem⟩, done⟩ : (∃ task, .opened link.importer task ∈ earlier) ∧
        (link.source, link.exporter) ∈ completed link.env earlier := by
      rcases List.mem_cons.mp linked with rfl | old
      · exact h.1
      · exact ih h.2 old
    refine ⟨⟨task, List.mem_cons_of_mem _ mem⟩, mem_completed_iff.mpr ?_⟩
    exact List.mem_cons_of_mem _ (mem_completed_iff.mp done)

/-- What was not to be found came from a module that is initialised, though a return has left it. -/
theorem of_missed (h : Orderly history) {link : Link} (missed : .missed link ∈ history) :
    (link.source, link.exporter) ∈ completed link.env history ∧ .left link.exporter ∈ history := by
  induction history with
  | nil => cases missed
  | cons milestone earlier ih =>
    obtain ⟨done, left⟩ : (link.source, link.exporter) ∈ completed link.env earlier ∧
        .left link.exporter ∈ earlier := by
      rcases List.mem_cons.mp missed with rfl | old
      · exact h.1
      · exact ih h.2 old
    refine ⟨mem_completed_iff.mpr ?_, List.mem_cons_of_mem _ left⟩
    exact List.mem_cons_of_mem _ (mem_completed_iff.mp done)

/-- Every module that is imported is there. -/
theorem not_mem_unknown (h : Orderly history) : .unknown env name ∉ history := by
  induction history with
  | nil => exact List.not_mem_nil
  | cons milestone earlier ih =>
    intro mem
    rcases List.mem_cons.mp mem with rfl | old
    · exact h.1
    · exact ih h.2 old

end Orderly

end ScriptEngine
