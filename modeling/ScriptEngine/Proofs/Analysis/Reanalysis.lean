import ScriptEngine.Proofs.Analysis.Lockstep
import ScriptEngine.Proofs.Analysis.Start

/-!
# Analysing a module again

* `Analysis.Same`: two analyses have found the same.
* `Module.analyze_rebound`: what becomes of a module that is analysed among other names of the host.
* `Module.analyze_of_exact`: nothing new is found among the same names.
-/

namespace ScriptEngine

open Analyzing

/-- Two analyses have found the same, whatever the order of declarations. -/
structure Analysis.Same (a b : Analysis) : Prop where
  table : a.table.Alike b.table
  moduleScope : b.moduleScope = a.moduleScope
  types : b.types = a.types
  meanings : b.meanings = a.meanings
  warnings : b.warnings = a.warnings

theorem Analysis.Same.trans {a b c : Analysis} (h : a.Same b) (h' : b.Same c) : a.Same c :=
  ⟨h.table.trans h'.table, h'.moduleScope.trans h.moduleScope, h'.types.trans h.types,
    h'.meanings.trans h.meanings, h'.warnings.trans h.warnings⟩

/-- Before the first statement nothing is overwritten. -/
theorem Analyzing.State.start_overwritten (bindings : List String) :
    (start bindings).overwritten = [] := by
  refine List.filterMap_eq_nil_iff.mpr fun encounter met => ?_
  obtain rfl | ⟨name, -, rfl⟩ := (List.mem_cons.mp met).imp_right List.mem_map.mp
  · rfl
  · rfl

/-- What is known in the root before the first statement. -/
theorem Analyzing.State.start_knows?_root (bindings : List String) (name : String) :
    (start bindings).table.knows? ScopeTable.root name =
      if Rebinding.Bound bindings name then some true else none := by
  rw [ScopeTable.knows?, start_held?, if_neg (by decide), if_pos rfl]
  by_cases bound : name ∈ bindings
  · simp [bound, Rebinding.Bound, SymbolEntry.isKnown]
  · by_cases builtin : name ∈ builtinNames <;>
      simp [bound, builtin, Rebinding.Bound, SymbolEntry.isKnown]

/-- Two analyses of a module begin beside each other. -/
theorem Rebinding.Beside.start (r : Rebinding) :
    r.Beside (State.start r.before) (State.start r.after) := by
  have tables : r.Tables (State.start r.before).table (State.start r.after).table := by
    refine ⟨State.start_sameShape r.before r.after, State.start_rooted r.before,
      fun id name kept => ?_, fun name => ?_, fun name => ?_⟩
    · by_cases atRoot : id = ScopeTable.root
      · obtain ⟨stays, isOld⟩ := kept atRoot
        have same : Bound r.after name ↔ Bound r.before name :=
          ⟨fun after => Decidable.byContradiction fun new => isOld ⟨new, after⟩,
            fun before => Decidable.byContradiction fun gone => stays ⟨before, gone⟩⟩
        rw [atRoot, State.start_knows?_root, State.start_knows?_root]
        simp only [same]
      · rw [ScopeTable.knows?, ScopeTable.knows?, State.start_held?, State.start_held?,
          if_neg atRoot, if_neg atRoot]
    · simp [State.start_knows?_root]
    · simp [State.start_knows?_root]
  refine ⟨tables, ?_, Nat.one_ne_zero, rfl, rfl, rfl, fun name mem => ?_,
    fun exact => ⟨⟨tables.shape, ?_⟩, rfl, rfl, rfl, rfl, rfl⟩⟩
  · rw [State.start_size]
    exact Nat.lt_succ_self Analyzing.moduleScope
  · rw [State.start_overwritten] at mem
    cases mem
  · intro id name
    simp only [State.start_held?, exact name]

/-- A module that is analysed again among other bindings is accepted, with the same findings if the
bindings are the same, unless it overwrites a name that is no longer bound: then it is rejected at
such a name. Where undeclared names are rejected, the bindings are supposed to be the same. -/
theorem Module.analyze_rebound {m : Module} (r : Rebinding) {strict : Bool} {a : Analysis}
    (strictly : strict = true → r.Exact) (analysed : m.analyze r.before strict = .ok a) :
    (∃ b, m.analyze r.after strict = .ok b ∧ (r.Exact → a.Same b) ∧
      ∀ name ∈ a.overwritten, Rebinding.Bound r.after name) ∨
    ∃ name position, m.analyze r.after strict =
      .error ⟨.undeclaredAssignment name, m.name, position⟩ ∧
        r.Breaks m.parts a.overwritten name := by
  rw [Module.analyze_eq] at analysed ⊢
  cases walk : analyzeStatements m.statements ⟨m.name, strict⟩ (.start r.before) with
  | error e =>
    rw [walk] at analysed
    cases analysed
  | ok result =>
    obtain ⟨type, s⟩ := result
    rw [walk] at analysed
    obtain rfl := Except.ok.inj analysed
    obtain ⟨-, follows⟩ := (following_lawful r).analyzeStatements m
    rcases follows ⟨m.name, strict⟩ _ _ _ _ strictly (.start r) walk with
      ⟨type', t, again, beside, -, -⟩ | ⟨name, position, failed, breaks⟩
    · refine .inl ⟨t.analysis, ?_, fun exact => ?_, beside.spared⟩
      · rw [again]
        rfl
      · have same := beside.same exact
        refine ⟨same.table, rfl, same.types, same.meanings, ?_⟩
        exact congrArg Array.toList same.warnings
    · refine .inr ⟨name, position, ?_, breaks⟩
      rw [failed]
      rfl

/-- Among the same bindings the same is found. -/
theorem Module.analyze_of_exact {m : Module} {r : Rebinding} {strict : Bool} {a : Analysis}
    (exact : r.Exact) (analysed : m.analyze r.before strict = .ok a) :
    ∃ b, m.analyze r.after strict = .ok b ∧ a.Same b := by
  rcases Module.analyze_rebound r (fun _ => exact) analysed with
    ⟨b, again, same, -⟩ | ⟨_, _, -, breaks⟩
  · exact ⟨b, again, same exact⟩
  · exact absurd breaks.drops exact.not_drops

end ScriptEngine
