import Mathlib.Data.List.Nodup
import ScriptEngine.Proofs.Analysis.Coverage

/-!
# The findings of an analysis are complete

* `Analysis.Complete`: every expression of a module has a type, every name that is read has a
  meaning, and every meaning is accounted for.
* `Module.complete_of_analyze`: whatever an analysis accepts.
-/

namespace ScriptEngine

/-- Every expression of a module has a type, every name whose value is used has a meaning, and the
meaning of a name is accounted for by where the name was met and by what was declared there. -/
structure Analysis.Complete (a : Analysis) (m : Module) : Prop where
  types : ∀ e ∈ m.exprs, e.id ∈ a.types
  meanings : ∀ e name, .value e ∈ m.parts → e.kind = .name name → e.id ∈ a.meanings
  declared : ∀ scope name, (a.table.held? scope name).isSome ↔ .declared scope name ∈ a.trace
  accounts : ∀ e ∈ m.exprs, ∀ name ref, e.kind = .name name → a.meanings[e.id]? = some ref →
    Accounts a.table a.trace e.id name ref

namespace Analyzing

/-- An analysis begins with what is declared before the first statement. -/
theorem State.Sound.start (bindings : List String) : (State.start bindings).Sound where
  rooted := start_rooted bindings
  there := by
    rw [start_size]
    exact Nat.lt_succ_self moduleScope
  entity inside := absurd inside (Nat.lt_irrefl 0)
  declared id name := by
    rw [start_held?]
    show _ ↔ Encounter.declared id name ∈ Encounter.declared moduleScope argsName ::
      (builtinNames ++ bindings).map (.declared ScopeTable.root)
    by_cases inModule : id = moduleScope
    · subst inModule
      by_cases args : name = argsName <;> simp [args, moduleScope, ScopeTable.root]
    · by_cases atRoot : id = ScopeTable.root
      · subst atRoot
        by_cases bound : name ∈ bindings
        · simp [inModule, bound]
        · by_cases builtin : name ∈ builtinNames <;> simp [inModule, bound, builtin]
      · have apart : ScopeTable.root ≠ id := fun h => atRoot h.symm
        simp [inModule, atRoot, apart]
  meanings id ref recorded := by
    have none : (∅ : Std.HashMap Nat SymbolRef)[id]? = some ref := recorded
    simp at none

/-- A name that was met under the number of an expression of a module is that of the expression, if
no two of them have the same number. -/
theorem State.Covers.name_of_met {m : Module} {bindings : List String} {s : State}
    (covers : Covers m.parts (.start bindings) s) (distinct : (m.exprs.map (·.id)).Nodup) {e : Expr}
    {name met : String} {scope : ScopeId} (mem : e ∈ m.exprs) (named : e.kind = .name name)
    (inTrace : .met e.id met scope ∈ s.trace) : met = name := by
  rcases covers.met _ _ _ inTrace with before | ⟨part, there, other, isExpr, sameId, isName⟩
  · simp [State.start] at before
  · have otherMem : other ∈ m.exprs := List.mem_filterMap.mpr ⟨part, there, isExpr⟩
    obtain rfl := List.inj_on_of_nodup_map distinct otherMem mem sameId
    exact ExprKind.name.inj (isName.symm.trans named)

end Analyzing

open Analyzing in
/-- The findings about a module that an analysis accepts are complete, if no two of its expressions
have the same number. -/
theorem Module.complete_of_analyze {m : Module} {bindings : List String} {strict : Bool}
    {a : Analysis} (analysed : m.analyze bindings strict = .ok a)
    (distinct : (m.exprs.map (·.id)).Nodup) : a.Complete m := by
  rw [Module.analyze_eq] at analysed
  cases walk : analyzeStatements m.statements ⟨m.name, strict⟩ (.start bindings) with
  | error e =>
    rw [walk] at analysed
    cases analysed
  | ok result =>
    obtain ⟨type, s⟩ := result
    rw [walk] at analysed
    obtain rfl := Except.ok.inj analysed
    have covers : State.Covers m.parts (.start bindings) s :=
      covering_lawful.analyzeStatements m _ _ _ _ walk (.start bindings)
    refine ⟨fun e mem => ?_, covers.meanings, covers.sound.declared,
      fun e mem name ref named recorded => ?_⟩
    · obtain ⟨part, there, same⟩ := List.mem_filterMap.mp mem
      exact covers.types part there e same
    · obtain ⟨met, scope, earlier, onward, accounts⟩ := covers.sound.meanings e.id ref recorded
      obtain rfl := covers.name_of_met distinct mem named (onward.subset List.mem_cons_self)
      exact ⟨scope, earlier, onward, accounts⟩

/-- An entity with two members, of which the first is a name that nothing declares and the second one
the name of the first. -/
def entitySample : Module :=
  ⟨"main", ⟨[
    ⟨.nowhere, .declare .letWord [⟨.bind "o", some ⟨3, .nowhere, .entity [
      ⟨"a", ⟨1, .nowhere, .name "x"⟩, .nowhere⟩,
      ⟨"b", ⟨2, .nowhere, .name "a"⟩, .nowhere⟩]⟩, .nowhere⟩]⟩,
    ⟨.nowhere, .expression ⟨4, .nowhere, .name "o"⟩ false⟩], .nowhere⟩⟩

theorem Module.complete_of_entitySample :
    ∃ a, entitySample.analyze [] true = .ok a ∧ a.Complete entitySample := by
  have accepted : (entitySample.analyze [] true).toBool = true := by decide +kernel
  cases analysed : entitySample.analyze [] true with
  | error e => rw [analysed] at accepted; cases accepted
  | ok a => exact ⟨a, rfl, complete_of_analyze analysed (by decide)⟩

end ScriptEngine
