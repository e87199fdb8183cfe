import ScriptEngine.Proofs.Evaluation.Places
import ScriptEngine.Proofs.Modules.Engines
import ScriptEngine.Proofs.Store.Matching

/-!
# Assigning the parts of a value

An assignment to a pattern takes the whole value apart before it assigns the first name, so a value that
does not fit changes nothing. The names are assigned one after the other, each for itself: one that cannot
be assigned stops the assignment, but what stands before it has been assigned by then.

* `Store.putAll`: values that are put into cells one after the other.
* `Eval.Roomy`: there is room for the values of names; `Eval.roomy_of_bounded`: frames see to that.
* `Eval.assignNames_done`, `Eval.assignNames_stopped`: names that can all be assigned, and the first one that
  cannot.
* `Eval.destructure`: what an assignment to a pattern does when its value is there.
* `Eval.Assigned`: every name has its part, and nothing else has changed.
* `Eval.assign_all_or_nothing`: an assignment to a pattern does all or nothing, unless a name that cannot be
  assigned stands behind another one.
-/

namespace ScriptEngine

namespace Store

variable {s : Store} {frame : FrameId} {cell other : Cell} {value : Value} {name : String}

/-! ## The cells of names -/

theorem there_put : other.There (s.put value cell) ↔ other.There s := by
  cases other with
  | slot id =>
    cases cell with
    | slot id' =>
      show id < (s.frames.slots.setIfInBounds id' value).size ↔ id < s.frames.slots.size
      rw [Array.size_setIfInBounds]
    | _ => rfl
  | member entity name =>
    cases cell with
    | member holder key =>
      rw [Cell.There, Cell.There, put, arena_define]
      split
      · rw [Arena.size_define]
      · rfl
    | _ => rfl
  | item id index => rw [Cell.There, Cell.There, size_array_put]
  | entry id key =>
    cases cell with
    | entry id' key' =>
      show id < (s.maps.modify id' _).size ↔ id < s.maps.size
      rw [Array.size_modify]
    | _ => rfl

theorem target_put_of_ne {holder entity : EntityRef} {key : String} (ne : name ≠ key) :
    (s.put value (.member holder key)).target entity name = s.target entity name := by
  have found : ((s.put value (.member holder key)).arena entity.env).find? entity.id name =
      (s.arena entity.env).find? entity.id name := by
    rw [put, arena_define]
    split
    · simp only [Arena.find?, Arena.chain_define, Arena.own?_define_of_ne ne]
    · rfl
  rw [target, target, Arena.target, Arena.target, found]

/-- Assigning one name does not change which cells names mean. -/
theorem nameCell?_put_of_nameCell? {key : String} (there : cell.There s)
    (leads : s.nameCell? frame key = some cell) (name : String) :
    (s.put value cell).nameCell? frame name = s.nameCell? frame name := by
  by_cases same : name = key
  · subst same
    rw [leads, nameCell?_put there leads]
  · rw [nameCell?] at leads
    cases means : s.frames.slot? frame key with
    | some slot =>
      rw [means] at leads
      cases leads
      have slots : (s.put value (.slot slot)).frames.slot? frame name = s.frames.slot? frame name :=
        Frames.slot?_write
      rw [nameCell?, nameCell?, slots]
      rfl
    | none =>
      rw [means] at leads
      obtain ⟨entity, -, rfl⟩ := Option.map_eq_some_iff.mp leads
      have targets (holder : EntityRef) : (s.put value (.member (s.target entity key) key)).target
          holder name = s.target holder name := target_put_of_ne same
      rw [nameCell?, nameCell?]
      simp only [targets]
      rfl

/-! ## Several cells -/

/-- Puts values into cells one after the other. -/
def putAll (s : Store) (rows : List (Cell × Value)) : Store :=
  rows.foldl (fun s row => s.put row.2 row.1) s

/-- The cells of those names that mean one. -/
def rowsOf (s : Store) (frame : FrameId) (names : List (String × Value)) : List (Cell × Value) :=
  names.filterMap fun row => (s.nameCell? frame row.1).map fun cell => (cell, row.2)

theorem rowsOf_put {key : String} (there : cell.There s) (leads : s.nameCell? frame key = some cell)
    (names : List (String × Value)) : (s.put value cell).rowsOf frame names = s.rowsOf frame names := by
  simp only [rowsOf, nameCell?_put_of_nameCell? there leads]

theorem rowsOf_cons {names : List (String × Value)} (leads : s.nameCell? frame name = some cell) :
    s.rowsOf frame ((name, value) :: names) = (cell, value) :: s.rowsOf frame names := by
  rw [rowsOf, List.filterMap_cons, leads]
  rfl

theorem exists_of_mem_rowsOf {names : List (String × Value)} {row : Cell × Value}
    (mem : row ∈ s.rowsOf frame names) :
    ∃ named ∈ names, s.nameCell? frame named.1 = some row.1 := by
  obtain ⟨named, among, made⟩ := List.mem_filterMap.mp mem
  obtain ⟨cell, leads, rfl⟩ := Option.map_eq_some_iff.mp made
  exact ⟨named, among, leads⟩

/-- A cell that no row names holds what it held. -/
theorem content_putAll_of_not_mem {rows : List (Cell × Value)} (apart : ∀ row ∈ rows, row.1 ≠ cell) :
    (s.putAll rows).content cell = s.content cell := by
  induction rows generalizing s with
  | nil => rfl
  | cons row rows ih =>
    have first : cell ≠ row.1 := (apart row List.mem_cons_self).symm
    exact (ih fun other mem => apart other (List.mem_cons_of_mem _ mem)).trans (content_put_of_ne first)

/-- A cell holds the value of the last row that names it. -/
theorem content_putAll_of_last {before after : List (Cell × Value)} (there : cell.There s)
    (apart : ∀ row ∈ after, row.1 ≠ cell) :
    (s.putAll (before ++ (cell, value) :: after)).content cell = some value := by
  induction before generalizing s with
  | nil => exact (content_putAll_of_not_mem apart).trans (content_put_self there)
  | cons row before ih => exact ih (there_put.mpr there)

end Store

namespace Eval

variable {m : Machine} {env : EnvId} {w : World} {frame : FrameId} {names : List (String × Value)}

/-! ## Names one after the other -/

/-- There is room for the values of the names that mean a cell. -/
def Roomy (s : Store) (frame : FrameId) (names : List (String × Value)) : Prop :=
  ∀ row ∈ names, ∀ cell, s.nameCell? frame row.1 = some cell → cell.There s

/-- There is room for all names where `this` is an entity of the store and the slots of frames are
there, as they are in every engine. -/
theorem roomy_of_bounded {s : Store} (bounded : s.frames.Bounded)
    (own : ∀ entity, s.frames.this? frame = some entity → entity.id < (s.arena entity.env).size) :
    Roomy s frame names := by
  intro row _ cell leads
  rw [Store.nameCell?] at leads
  cases means : s.frames.slot? frame row.1 with
  | some slot =>
    rw [means] at leads
    cases leads
    obtain ⟨⟨outer, bound⟩, -⟩ := Frames.bound_of_slotFrom? means
    exact bounded outer row.1 slot bound
  | none =>
    rw [means] at leads
    obtain ⟨entity, this, rfl⟩ := Option.map_eq_some_iff.mp leads
    exact Arena.target_lt_size (own entity this)

/-- The world in which the names have been assigned that mean a cell. -/
def assigned (w : World) (frame : FrameId) (names : List (String × Value)) : World :=
  { w with store := w.store.putAll (w.store.rowsOf frame names) }

theorem assignNames_cons {name : String} {value : Value} {cell : Cell}
    (leads : w.store.nameCell? frame name = some cell) :
    assignNames frame ((name, value) :: names) env w =
      assignNames frame names env (w.put value cell) := by
  have first := writes_assignName frame name value env w
  rw [leads] at first
  rw [assignNames, bind_eq, first]
  rfl

theorem assigned_cons {name : String} {value : Value} {cell : Cell} (there : cell.There w.store)
    (leads : w.store.nameCell? frame name = some cell) :
    assigned w frame ((name, value) :: names) = assigned (w.put value cell) frame names := by
  rw [assigned, assigned, World.put, Store.rowsOf_cons leads, Store.rowsOf_put there leads]
  rfl

theorem Roomy.put {name : String} {value : Value} {cell : Cell}
    (roomy : Roomy w.store frame ((name, value) :: names))
    (leads : w.store.nameCell? frame name = some cell) :
    cell.There w.store ∧ Roomy (w.put value cell).store frame names := by
  have there : cell.There w.store := roomy _ List.mem_cons_self cell leads
  refine ⟨there, fun row mem other means => Store.there_put.mpr ?_⟩
  have means : (w.store.put value cell).nameCell? frame row.1 = some other := means
  rw [Store.nameCell?_put_of_nameCell? there leads] at means
  exact roomy row (List.mem_cons_of_mem _ mem) other means

/-- Names that can all be assigned are assigned. -/
theorem assignNames_done (roomy : Roomy w.store frame names)
    (can : ∀ row ∈ names, w.store.nameCell? frame row.1 ≠ none) :
    assignNames frame names env w = .done () (assigned w frame names) := by
  induction names generalizing w with
  | nil => rfl
  | cons row names ih =>
    obtain ⟨name, value⟩ := row
    obtain ⟨cell, leads⟩ := Option.ne_none_iff_exists'.mp (can _ List.mem_cons_self)
    obtain ⟨there, rest⟩ := roomy.put leads
    rw [assignNames_cons leads, assigned_cons there leads]
    refine ih rest fun row mem => ?_
    show (w.store.put value cell).nameCell? frame row.1 ≠ none
    rw [Store.nameCell?_put_of_nameCell? there leads]
    exact can row (List.mem_cons_of_mem _ mem)

/-- The first name that cannot be assigned stops the assignment. Those before it have been assigned. -/
theorem assignNames_stopped {before after : List (String × Value)} {name : String} {part : Value}
    (roomy : Roomy w.store frame before)
    (can : ∀ row ∈ before, w.store.nameCell? frame row.1 ≠ none)
    (cannot : w.store.nameCell? frame name = none) :
    assignNames frame (before ++ (name, part) :: after) env w =
      .stopped (.signal (.panic (.varNotFound name))) (assigned w frame before) := by
  induction before generalizing w with
  | nil =>
    rw [List.nil_append, assignNames, bind_eq, assignName_of_none cannot]
    rfl
  | cons row before ih =>
    obtain ⟨key, value⟩ := row
    obtain ⟨cell, leads⟩ := Option.ne_none_iff_exists'.mp (can _ List.mem_cons_self)
    obtain ⟨there, rest⟩ := roomy.put leads
    have means (n : String) : (w.put value cell).store.nameCell? frame n = w.store.nameCell? frame n :=
      Store.nameCell?_put_of_nameCell? there leads n
    rw [List.cons_append, assignNames_cons leads, assigned_cons there leads]
    refine ih rest (fun row mem => ?_) (by rwa [means])
    rw [means]
    exact can row (List.mem_cons_of_mem _ mem)

theorem nameCell?_assigned (roomy : Roomy w.store frame names) (name : String) :
    (assigned w frame names).store.nameCell? frame name = w.store.nameCell? frame name := by
  induction names generalizing w with
  | nil => rfl
  | cons row names ih =>
    obtain ⟨key, value⟩ := row
    cases leads : w.store.nameCell? frame key with
    | none =>
      have same : assigned w frame ((key, value) :: names) = assigned w frame names := by
        rw [assigned, assigned, Store.rowsOf, Store.rowsOf, List.filterMap_cons, leads]
        rfl
      rw [same]
      exact ih fun row mem => roomy row (List.mem_cons_of_mem _ mem)
    | some cell =>
      obtain ⟨there, rest⟩ := roomy.put leads
      rw [assigned_cons there leads, ih rest]
      exact Store.nameCell?_put_of_nameCell? there leads name

/-! ## All of a pattern -/

/-- What an assignment to a pattern does when its value is there. -/
def destructure (pattern : Pattern) (value : Value) (frame : FrameId) : Eval Value := do
  match ← ask (·.bindPattern pattern value) with
  | some names =>
    assignNames frame names
    return value
  | none => mismatch pattern value

theorem assign_pattern (m : Machine) (op : AssignOp) (pattern : Pattern) (e : Expr) (frame : FrameId)
    (env : EnvId) (w : World) : assign m op (.pattern pattern) e frame env w =
      (eval m e frame env w).bind fun value w => destructure pattern value frame env w :=
  bind_eq ..

/-- Names have been assigned: each of them means its part, unless one behind it means the same cell, and
no other cell has changed. -/
structure Assigned (frame : FrameId) (names : List (String × Value)) (w w' : World) : Prop where
  parts : ∀ before name part after, names = before ++ (name, part) :: after →
    (∀ row ∈ after, w.store.nameCell? frame row.1 ≠ w.store.nameCell? frame name) →
    ∀ env, Reads w' part (lookup frame name env w')
  others : ∀ cell, (∀ row ∈ names, w.store.nameCell? frame row.1 ≠ some cell) →
    w'.store.content cell = w.store.content cell

theorem assigned_assigned (roomy : Roomy w.store frame names)
    (can : ∀ row ∈ names, w.store.nameCell? frame row.1 ≠ none) :
    Assigned frame names w (assigned w frame names) where
  parts before name part after split apart env := by
    subst split
    obtain ⟨cell, leads⟩ := Option.ne_none_iff_exists'.mp (can (name, part) (by simp))
    have there : cell.There w.store := roomy (name, part) (by simp) cell leads
    have rows : w.store.rowsOf frame (before ++ (name, part) :: after) =
        w.store.rowsOf frame before ++ (cell, part) :: w.store.rowsOf frame after := by
      rw [← Store.rowsOf_cons leads, Store.rowsOf, Store.rowsOf, Store.rowsOf, List.filterMap_append]
    refine reads_lookup ((nameCell?_assigned roomy name).trans leads) ?_
    rw [assigned, rows]
    refine Store.content_putAll_of_last there fun row mem same => ?_
    obtain ⟨named, among, means⟩ := Store.exists_of_mem_rowsOf mem
    exact apart named among (means.trans (same ▸ leads.symm))
  others cell apart := by
    refine Store.content_putAll_of_not_mem fun row mem same => ?_
    obtain ⟨named, among, means⟩ := Store.exists_of_mem_rowsOf mem
    exact apart named among (same ▸ means)

section

variable {pattern : Pattern} {value : Value}

theorem destructure_of_none (misfit : w.store.bindPattern pattern value = none) :
    ∃ cause, destructure pattern value frame env w = .stopped (.signal (.panic cause)) w := by
  refine ⟨Store.mismatch (w.store.report value) pattern, ?_⟩
  rw [destructure, bind_eq, ask, Progress.bind, misfit]
  rfl

theorem destructure_of_some (fits : w.store.bindPattern pattern value = some names) :
    destructure pattern value frame env w =
      (assignNames frame names env w).bind fun _ w => .done value w := by
  rw [destructure, bind_eq, ask, Progress.bind, fits]
  exact bind_eq ..

end

/-- An assignment to a pattern evaluates the value and takes it apart. A value that does not fit changes
nothing. If it fits, the names of the pattern are assigned in order up to the first one that means no cell:
what stands before that one has been assigned then, and nothing else. So unless a name that means no cell
stands behind one that does, all or nothing is done: either every name has its part, or nothing has
changed. -/
theorem assign_all_or_nothing (m : Machine) (op : AssignOp) (pattern : Pattern) (e : Expr)
    (frame : FrameId) :
    (∀ env w, assign m op (.pattern pattern) e frame env w =
      (eval m e frame env w).bind fun value w => destructure pattern value frame env w) ∧
    ∀ (env : EnvId) (w : World) (value : Value),
      (w.store.bindPattern pattern value = none →
        ∃ cause, destructure pattern value frame env w = .stopped (.signal (.panic cause)) w) ∧
      ∀ names, w.store.bindPattern pattern value = some names → Roomy w.store frame names →
        names.map (·.1) = pattern.bindings ∧
        (∀ before name part after, names = before ++ (name, part) :: after →
          (∀ row ∈ before, w.store.nameCell? frame row.1 ≠ none) →
          w.store.nameCell? frame name = none →
          destructure pattern value frame env w =
            .stopped (.signal (.panic (.varNotFound name))) (assigned w frame before)) ∧
        ((∀ row rest, names = row :: rest → w.store.nameCell? frame row.1 ≠ none →
            ∀ other ∈ rest, w.store.nameCell? frame other.1 ≠ none) →
          (∃ w', destructure pattern value frame env w = .done value w' ∧ Assigned frame names w w') ∨
          ∃ cause, destructure pattern value frame env w = .stopped (.signal (.panic cause)) w) := by
  refine ⟨assign_pattern m op pattern e frame, fun env w value => ⟨destructure_of_none,
    fun names fits roomy => ?_⟩⟩
  have done (can : ∀ row ∈ names, w.store.nameCell? frame row.1 ≠ none) :
      ∃ w', destructure pattern value frame env w = .done value w' ∧ Assigned frame names w w' := by
    rw [destructure_of_some fits, assignNames_done roomy can]
    exact ⟨_, rfl, assigned_assigned roomy can⟩
  have stopped (before : List (String × Value)) (name : String) (part : Value)
      (after : List (String × Value)) (split : names = before ++ (name, part) :: after)
      (can : ∀ row ∈ before, w.store.nameCell? frame row.1 ≠ none)
      (cannot : w.store.nameCell? frame name = none) :
      destructure pattern value frame env w =
        .stopped (.signal (.panic (.varNotFound name))) (assigned w frame before) := by
    subst split
    rw [destructure_of_some fits, assignNames_stopped
      (fun row mem => roomy row (List.mem_append_left _ mem)) can cannot]
    rfl
  refine ⟨w.store.names_bindPattern fits, stopped, fun orderly => ?_⟩
  cases names with
  | nil => exact .inl (done nofun)
  | cons row rest =>
    by_cases cannot : w.store.nameCell? frame row.1 = none
    · exact .inr ⟨.varNotFound row.1, stopped [] row.1 row.2 rest rfl nofun cannot⟩
    · exact .inl (done (List.forall_mem_cons.mpr ⟨cannot, orderly row rest rfl cannot⟩))

/-- A world with a frame of two variables. -/
def couple : World :=
  { World.empty with
    store := { Store.empty with
      frames := ⟨#[⟨[("a", 0), ("b", 1)], none, none⟩], #[.null, .null], []⟩ } }

/-- Both variables get their parts. -/
theorem assign_all_or_nothing_of_couple :
    couple.store.bindPattern (.tuple [.bind "a", .bind "b"]) (.tuple [.bool true, .unit]) =
        some [("a", .bool true), ("b", .unit)] ∧
      Roomy couple.store 0 [("a", .bool true), ("b", .unit)] ∧
      ∃ w', destructure (.tuple [.bind "a", .bind "b"]) (.tuple [.bool true, .unit]) 0 0 couple =
          .done (.tuple [.bool true, .unit]) w' ∧
        Assigned 0 [("a", .bool true), ("b", .unit)] couple w' := by
  have fits : couple.store.bindPattern (.tuple [.bind "a", .bind "b"]) (.tuple [.bool true, .unit]) =
      some [("a", .bool true), ("b", .unit)] := rfl
  have first : couple.store.nameCell? 0 "a" = some (.slot 0) := rfl
  have second : couple.store.nameCell? 0 "b" = some (.slot 1) := rfl
  have roomy : Roomy couple.store 0 [("a", .bool true), ("b", .unit)] := by
    simp only [Roomy, List.forall_mem_cons, first, second, Option.some.injEq, forall_eq']
    exact ⟨Nat.zero_lt_two, Nat.one_lt_two, nofun⟩
  have parts := ((assign_all_or_nothing ⟨Eval.goal⟩ .assign (.tuple [.bind "a", .bind "b"]) default 0).2
    0 couple (.tuple [.bool true, .unit])).2 _ fits roomy
  have orderly : ∀ row rest, [("a", Value.bool true), ("b", Value.unit)] = row :: rest →
      couple.store.nameCell? 0 row.1 ≠ none →
      ∀ other ∈ rest, couple.store.nameCell? 0 other.1 ≠ none := by
    rintro row rest ⟨⟩ -
    simp [second]
  rcases parts.2.2 orderly with done | ⟨cause, stopped⟩
  · exact ⟨fits, roomy, done⟩
  · cases stopped

end Eval

namespace Engine

/-- So there is room for all names in every frame, whatever an engine has run. -/
theorem Reached.roomy {e : Engine} {frame : FrameId} {names : List (String × Value)}
    (reached : e.Reached) : Eval.Roomy e.world.store frame names :=
  Eval.roomy_of_bounded reached.modular.bounded fun _ belongs => reached.grounded.hasEntity belongs

/-- The module `var a = true; let s = safe { (a, print) = (false, true) }; a`. -/
def halfwaySample : Module :=
  ⟨"main", ⟨[
    ⟨.nowhere, .declare .varWord
      [⟨.bind "a", some ⟨0, .nowhere, .literal (.bool true)⟩, .nowhere⟩]⟩,
    ⟨.nowhere, .declare .letWord
      [⟨.bind "s", some ⟨1, .nowhere, .safe ⟨[⟨.nowhere, .expression ⟨2, .nowhere,
        .assign .assign (.pattern (.tuple [.bind "a", .bind "print"])) ⟨3, .nowhere,
          .tuple [⟨4, .nowhere, .literal (.bool false)⟩, ⟨5, .nowhere, .literal (.bool true)⟩]⟩⟩
        false⟩], .nowhere⟩⟩, .nowhere⟩]⟩,
    ⟨.nowhere, .expression ⟨6, .nowhere, .name "a"⟩ false⟩], .nowhere⟩⟩

/-- The analysis accepts that program. The assignment panics, since nothing can be assigned to `print`,
and the variable before it has changed. -/
theorem assigned_halfway :
    (halfwaySample.analyze [] true).toBool = true ∧
      (runAmong [halfwaySample] "main").2.Reached ∧
      ((runAmong [halfwaySample] "main").2.world.store.captured 0).map (fun _ => ()) =
        .error (.varNotFound "print") ∧
      (runAmong [halfwaySample] "main").1.toOption.map (·.isTruthy) = some false :=
  ⟨by decide +kernel, .runAmong, by decide +kernel, by decide +kernel⟩

end Engine

end ScriptEngine
