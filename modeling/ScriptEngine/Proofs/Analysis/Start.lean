import ScriptEngine.Analysis.Infer
import ScriptEngine.Proofs.Scope.Entries

/-!
# Where an analysis begins and ends

* `Module.analyze_eq`: the analysis of a module is the walk over its statements.
* `State.start_held?`: what is declared before the first statement.
* `State.start_rooted`, `State.start_size`: the scope of the module stands in the root.
-/

namespace ScriptEngine.Analyzing.State

/-- Names that are defined one after another in the root. -/
theorem held?_foldl_define (kind : SymbolKind) (names : List String) (t : ScopeTable)
    (there : 0 < t.size) :
    let defined := names.foldl (fun table name =>
      table.define ScopeTable.root ⟨name, kind, true, .unknown, .nowhere⟩) t
    t.SameShape defined ∧ ∀ id name, defined.held? id name =
      if id = ScopeTable.root ∧ name ∈ names then some ⟨name, kind, true, .unknown, .nowhere⟩
      else t.held? id name := by
  induction names generalizing t with
  | nil => exact ⟨.refl t, fun id name => by simp⟩
  | cons first names ih =>
    let next := t.define ScopeTable.root ⟨first, kind, true, .unknown, .nowhere⟩
    have shape : t.SameShape next := ScopeTable.sameShape_define
    obtain ⟨onward, entries⟩ := ih next (Nat.lt_of_lt_of_eq there shape.size.symm)
    refine ⟨shape.trans onward, fun id name => (entries id name).trans ?_⟩
    rw [ScopeTable.held?_define]
    by_cases atRoot : id = ScopeTable.root
    · subst atRoot
      by_cases same : first = name
      · subst same
        by_cases again : first ∈ names <;> simp [again, ScopeTable.root, there]
      · have apart : name ≠ first := fun h => same h.symm
        simp [same, apart]
    · have apart : ScopeTable.root ≠ id := fun h => atRoot h.symm
      simp [atRoot, apart]

variable (bindings : List String)

/-- The names of the root before the first statement. -/
def rootTable : ScopeTable :=
  bindings.foldl (fun table name =>
    table.define ScopeTable.root ⟨name, .external, true, .unknown, .nowhere⟩)
      (builtinNames.foldl (fun table name =>
        table.define ScopeTable.root ⟨name, .builtin, true, .unknown, .nowhere⟩) .empty)

theorem rootTable_spec :
    ScopeTable.empty.SameShape (rootTable bindings) ∧ ∀ id name, (rootTable bindings).held? id name =
      if id = ScopeTable.root then
        if name ∈ bindings then some ⟨name, .external, true, .unknown, .nowhere⟩
        else if name ∈ builtinNames then some ⟨name, .builtin, true, .unknown, .nowhere⟩
        else none
      else none := by
  obtain ⟨shape, builtins⟩ := held?_foldl_define .builtin builtinNames .empty (by decide)
  obtain ⟨shape', externals⟩ := held?_foldl_define .external bindings _
    (Nat.lt_of_lt_of_eq (by decide) shape.size.symm)
  refine ⟨shape.trans shape', fun id name => (externals id name).trans ?_⟩
  rw [builtins]
  by_cases atRoot : id = ScopeTable.root
  · subst atRoot
    simp [ScopeTable.held?, ScopeTable.scope?, ScopeTable.empty, ScopeTable.root, Scope.get?]
  · have outside : ScopeTable.empty.held? id name = none := by
      cases id with
      | zero => exact absurd rfl atRoot
      | succ id => simp [ScopeTable.held?, ScopeTable.scope?, ScopeTable.empty]
    simp [atRoot, outside]

theorem start_table : (start bindings).table =
    ((rootTable bindings).push ScopeTable.root .module).2.define moduleScope
      ⟨argsName, .variable, true, .array .unknown, .nowhere⟩ := rfl

theorem size_rootTable : (rootTable bindings).size = moduleScope :=
  (rootTable_spec bindings).1.size

/-- The root and the scope of the module are there. -/
theorem start_size : (start bindings).table.size = 2 := by
  rw [start_table, ScopeTable.sameShape_define.size, ScopeTable.size_push, size_rootTable]
  rfl

/-- The scope of the module stands in the root. -/
theorem start_rooted : (start bindings).table.Rooted := by
  have rooted : (rootTable bindings).Rooted := by
    refine (rootTable_spec bindings).1.rooted ⟨fun found => ?_, fun there apart => ?_⟩
    · obtain ⟨scope, there, inside⟩ := Option.bind_eq_some_iff.mp found
      obtain ⟨here, rfl⟩ := Array.getElem?_eq_some_iff.mp there
      obtain rfl := Nat.lt_one_iff.mp here
      cases inside
    · exact absurd (Nat.lt_one_iff.mp there) apart
  refine ScopeTable.sameShape_define.rooted (rooted.push ?_)
  rw [size_rootTable]
  decide

/-- The scopes do not depend on what the host binds. -/
theorem start_sameShape (bindings' : List String) :
    (start bindings).table.SameShape (start bindings').table := by
  have root := (rootTable_spec bindings).1.symm.trans (rootTable_spec bindings').1
  rw [start_table, start_table]
  exact (ScopeTable.sameShape_define.symm.trans (root.push _ _)).trans ScopeTable.sameShape_define

/-- What is declared before the first statement. -/
theorem start_held? (id : ScopeId) (name : String) : (start bindings).table.held? id name =
    if id = moduleScope then
      if name = argsName then some ⟨argsName, .variable, true, .array .unknown, .nowhere⟩ else none
    else if id = ScopeTable.root then
      if name ∈ bindings then some ⟨name, .external, true, .unknown, .nowhere⟩
      else if name ∈ builtinNames then some ⟨name, .builtin, true, .unknown, .nowhere⟩
      else none
    else none := by
  rw [start_table, ScopeTable.held?_define, ScopeTable.held?_push, (rootTable_spec bindings).2,
    ScopeTable.size_push, size_rootTable]
  by_cases inModule : id = moduleScope
  · subst inModule
    by_cases args : name = argsName
    · simp [args]
    · have apart : argsName ≠ name := fun h => args h.symm
      simp [args, apart, moduleScope, ScopeTable.root]
  · have apart : moduleScope ≠ id := fun h => inModule h.symm
    simp [inModule, apart]

/-- What an analysis has found when it has come to its end. -/
def analysis (s : State) : Analysis :=
  ⟨s.table, moduleScope, s.types, s.meanings, s.warnings.toList, s.trace⟩

end ScriptEngine.Analyzing.State

open ScriptEngine.Analyzing in
/-- The analysis of a module is the walk over its statements. -/
theorem ScriptEngine.Module.analyze_eq (m : Module) (bindings : List String) (strict : Bool) :
    m.analyze bindings strict =
      (analyzeStatements m.statements ⟨m.name, strict⟩ (.start bindings)).map (·.2.analysis) := by
  unfold Module.analyze
  cases walk : analyzeStatements m.statements ⟨m.name, strict⟩ (.start bindings) <;>
    · simp only [ReaderT.run, StateT.run, walk]
      rfl
