import ScriptEngine.Proofs.Analysis.Balance
import ScriptEngine.Proofs.Analysis.Walk

/-!
# Names of the host that a module overwrites

An analysis comes across the names that are written, and what they mean there. Those that mean
something of the root cannot be written among other bindings, unless an entity is around them.

* `Analysis.overwritten`: these names.
* `Onward`: a step forgets none of them.
* `onward_bind`, `onward_inScope` and the others: one rule for each way to put steps together.
-/

namespace ScriptEngine

/-- The name that is written outside of any entity where it means something of the root. -/
def Encounter.overwritten? : Encounter → Option String
  | .written name scope inside =>
    if scope = ScopeTable.root ∧ inside = false then some name else none
  | .declared _ _ | .met _ _ _ => none

/-- The names that are written outside of any entity where they mean something of the root. -/
def Analysis.overwritten (a : Analysis) : List String := a.trace.filterMap Encounter.overwritten?

namespace Analyzing

/-- The names that were written outside of any entity where they meant something of the root. -/
def State.overwritten (s : State) : List String := s.trace.filterMap Encounter.overwritten?

variable {α β : Type} {x : Analyzer α} {f : α → Analyzer β}

/-- A step forgets no name that was overwritten. -/
def Onward (x : Analyzer α) : Prop :=
  ∀ setting s a s', x setting s = .ok (a, s') → s.overwritten ⊆ s'.overwritten

theorem onward_pure (a : α) : Onward (pure a) := by
  intro setting s b s' run
  cases run
  exact List.Subset.refl _

theorem onward_bind (h : Onward x) (h' : ∀ a, Onward (f a)) : Onward (x >>= f) := by
  intro setting s b s'' run
  obtain ⟨a, s', first, second⟩ := bind_eq_ok run
  exact List.Subset.trans (h setting s a s' first) (h' a setting s' b s'' second)

theorem onward_get : Onward (get : Analyzer State) := by
  intro setting s a s' run
  cases run
  exact List.Subset.refl _

theorem onward_read : Onward (read : Analyzer Setting) := by
  intro setting s a s' run
  cases run
  exact List.Subset.refl _

theorem onward_fail (fault : SemanticFault) (position : Position) :
    Onward (fail fault position : Analyzer α) := by
  intro setting s a s' run
  cases run

theorem onward_ite {c : Prop} [Decidable c] {y : Analyzer α} (h : Onward x) (h' : Onward y) :
    Onward (if c then x else y) := by
  split
  · exact h
  · exact h'

/-- A change that no overwritten name depends on. -/
theorem onward_modify {g : State → State} (same : ∀ s, (g s).overwritten = s.overwritten) :
    Onward (modify g) := by
  intro setting s a s' run
  cases run
  exact fun name mem => (same s).symm ▸ mem

theorem onward_forM {ι : Type} {f : ι → Analyzer Unit} (h : ∀ i, Onward (f i)) (items : List ι) :
    Onward (items.forM f) := by
  induction items with
  | nil => exact onward_pure ()
  | cons item items ih => exact onward_bind (h item) fun _ => ih

/-! ### Steps -/

theorem onward_meetWrite (name : String) (scope : ScopeId) (inside : Bool) :
    Onward (meetWrite name scope inside) := by
  intro setting s a s' run
  cases run
  exact (List.sublist_cons_self _ s.trace).filterMap _ |>.subset

theorem onward_recordType (id : Nat) (type : TypeExpr) : Onward (recordType id type) :=
  onward_modify fun _ => rfl

theorem onward_declare (name : String) (kind : SymbolKind) (assignable : Bool) (type : TypeExpr)
    (position : Position) : Onward (declare name kind assignable type position) := by
  intro setting s a s' run
  obtain ⟨_, _, first, run⟩ := bind_eq_ok run
  cases first
  cases declared : s.table.declare s.current ⟨name, kind, assignable, type, position⟩ with
  | ok table =>
    rw [declared] at run
    cases run
    exact List.Subset.refl _
  | error old =>
    rw [declared] at run
    cases run

theorem onward_readName (id : Nat) (position : Position) (name : String) :
    Onward (readName id position name) := by
  refine onward_bind onward_get fun s => onward_bind (onward_modify fun _ => rfl) fun _ => ?_
  split
  · exact onward_bind (onward_modify fun _ => rfl) fun _ => onward_pure _
  · refine onward_ite (onward_bind (onward_modify fun _ => rfl) fun _ => onward_pure _) ?_
    refine onward_bind onward_read fun setting => ?_
    refine onward_ite (onward_bind (onward_fail _ _) fun _ => ?_) ?_
    all_goals
      refine onward_bind (onward_modify fun _ => rfl) fun _ => ?_
      refine onward_bind (onward_modify fun _ => rfl) fun _ => ?_
      exact onward_bind (onward_modify fun _ => rfl) fun _ => onward_pure _

theorem onward_writeName (id : Nat) (position : Position) (name : String) (type : TypeExpr) :
    Onward (writeName id position name type) := by
  have entityOnly (s : State) : Onward (if 0 < s.entityDepth then recordType id .unknown
      else fail (.undeclaredAssignment name) position) :=
    onward_ite (onward_recordType id _) (onward_fail _ _)
  refine onward_bind onward_get fun s => onward_bind (onward_modify fun _ => rfl) fun _ => ?_
  split
  · refine onward_ite ?_ (entityOnly s)
    refine onward_bind (onward_modify fun _ => rfl) fun _ => ?_
    refine onward_bind (onward_modify fun _ => rfl) fun _ => ?_
    exact onward_bind (onward_recordType id _) fun _ => onward_meetWrite _ _ _
  · exact entityOnly s

theorem onward_checkName (position : Position) (name : String) :
    Onward (checkName position name) := by
  refine onward_bind onward_get fun s => ?_
  split
  · exact onward_ite (onward_meetWrite _ _ _) (onward_ite (onward_fail _ _) (onward_pure ()))
  · exact onward_ite (onward_fail _ _) (onward_pure ())

theorem onward_checkPatternNames (p : Pattern) (position : Position) :
    Onward (checkPatternNames p position) :=
  onward_forM (onward_checkName position) p.bindings

theorem onward_infer_name {e : Expr} {name : String} (named : e.kind = .name name) :
    Onward (infer e) := by
  obtain ⟨id, position, kind⟩ := e
  obtain rfl : kind = .name name := named
  unfold infer inferKind
  exact onward_bind (onward_readName id position name) fun _ =>
    onward_bind (onward_recordType id _) fun _ => onward_pure _

theorem onward_scopedType (space : Expr) (name : String) : Onward (scopedType space name) := by
  refine onward_bind onward_get fun s => ?_
  split <;> exact onward_pure _

theorem onward_complete (type : TypeExpr) : Onward (complete type) :=
  onward_modify fun s => by split <;> rfl

theorem onward_of_remarks (h : ∃ a remarks, Remarks x a remarks) : Onward x := by
  obtain ⟨a, remarks, said⟩ := h
  intro setting s b s' run
  cases (said.run setting s).symm.trans run
  exact List.Subset.refl _

theorem onward_of_checks {x : Analyzer Unit} (h : Checks x) : Onward x := by
  intro setting s a s' run
  obtain ⟨rfl, -⟩ := h setting s s' run
  exact List.Subset.refl _

/-! ### Surroundings -/

/-- Nothing is forgotten on the way out of a scope, an entity or a loop. -/
theorem onward_leave {g : State → State} (same : ∀ s, (g s).overwritten = s.overwritten) (a : α) :
    Onward (do modify g; return a) :=
  onward_bind (onward_modify same) fun _ => onward_pure a

theorem onward_inScope (kind : ScopeKind) (h : Onward x) : Onward (inScope kind x) :=
  onward_bind onward_get fun _ => onward_bind (onward_modify fun _ => rfl) fun _ =>
    onward_bind h (onward_leave fun _ => rfl)

theorem onward_inEntity (h : Onward x) : Onward (inEntity x) :=
  onward_bind (onward_modify fun _ => rfl) fun _ =>
    onward_bind (onward_inScope .entity h) (onward_leave fun _ => rfl)

theorem onward_inLoop (h : Onward x) : Onward (inLoop x) :=
  onward_bind (onward_modify fun _ => rfl) fun _ => onward_bind h (onward_leave fun _ => rfl)

theorem onward_outsideLoops (h : Onward x) : Onward (outsideLoops x) :=
  onward_bind onward_get fun _ => onward_bind (onward_modify fun _ => rfl) fun _ =>
    onward_bind h (onward_leave fun _ => rfl)

/-- Nor on the way out of a body. -/
theorem onward_leaveBoundary (a : α) : Onward (do
    let completions := (← get).boundaries.headD []
    modify fun s => { s with boundaries := s.boundaries.tail }
    return (a, completions)) :=
  onward_bind onward_get fun _ => onward_bind (onward_modify fun _ => rfl) fun _ => onward_pure _

theorem onward_inBoundary (h : Onward x) : Onward (inBoundary x) :=
  onward_bind (onward_modify fun _ => rfl) fun _ => onward_bind h onward_leaveBoundary

end Analyzing

end ScriptEngine
