import ScriptEngine.Scope.Basic

/-!
# The names of a scope

* `Scope.names`, `ScopeTable.names`: the names that a scope declares, in the order of declaration.
* `ScopeTable.names_declare`: a declaration adds a name that was not there.
* `ScopeTable.names_push`, `ScopeTable.names_retype`: other changes of a table add none.
-/

namespace ScriptEngine

namespace Scope

/-- The names that a scope declares, in the order of declaration. -/
def names (s : Scope) : List String := s.entries.map (·.name)

theorem get?_isSome_iff {s : Scope} {name : String} : (s.get? name).isSome ↔ name ∈ s.names := by
  simp [get?, names, List.find?_isSome]

theorem get?_eq_none_iff {s : Scope} {name : String} : s.get? name = none ↔ name ∉ s.names := by
  rw [← get?_isSome_iff]
  cases s.get? name <;> simp

/-- A declaration takes the place of one of the same name, or comes behind all others. -/
theorem names_insert (s : Scope) (entry : SymbolEntry) :
    (s.insert entry).names =
      if entry.name ∈ s.names then s.names else s.names ++ [entry.name] := by
  unfold insert
  split
  · next there =>
    rw [if_pos (get?_isSome_iff.mp there), names, List.map_map]
    refine List.map_congr_left fun old _ => ?_
    simp only [Function.comp_apply]
    split
    · next same => exact (beq_iff_eq.mp same).symm
    · rfl
  · next new =>
    rw [if_neg fun mem => new (get?_isSome_iff.mpr mem), names, List.map_append]
    rfl

end Scope

namespace ScopeTable

variable {t t' : ScopeTable} {id other : ScopeId} {entry : SymbolEntry}

/-- The names that a scope of a table declares. -/
def names (t : ScopeTable) (id : ScopeId) : List String := ((t.scope? id).map (·.names)).getD []

theorem scope?_modify (f : Scope → Scope) :
    (t.modify id f).scope? other = if id = other then (t.scope? other).map f else t.scope? other := by
  simp [scope?, modify, Array.getElem?_modify]

theorem size_modify (f : Scope → Scope) : (t.modify id f).size = t.size := by
  simp [size, modify]

/-- A new scope leaves the others as they are. -/
theorem names_push {parent : ScopeId} {kind : ScopeKind} (there : id < t.size) :
    (t.push parent kind).2.names id = t.names id := by
  have apart : id ≠ t.scopes.size := Nat.ne_of_lt there
  simp [names, scope?, push, Array.getElem?_push, apart]

/-- A new scope has no names. -/
theorem names_push_self {parent : ScopeId} {kind : ScopeKind} (same : t.size = id) :
    (t.push parent kind).2.names id = [] := by
  simp [names, scope?, push, ← same, size, Scope.names]

theorem size_push {parent : ScopeId} {kind : ScopeKind} :
    (t.push parent kind).2.size = t.size + 1 := by
  simp [size, push]

theorem names_define_of_ne (h : id ≠ other) : (t.define id entry).names other = t.names other := by
  rw [names, define, scope?_modify, if_neg h, names]

/-- A definition adds a name to its scope that was not there. -/
theorem names_define (there : id < t.size) (fresh : entry.name ∉ t.names id) :
    (t.define id entry).names id = t.names id ++ [entry.name] := by
  have found : t.scope? id = some t.scopes[id] := Array.getElem?_eq_getElem there
  have before : t.names id = t.scopes[id].names := by
    rw [names, found]
    rfl
  rw [before] at fresh ⊢
  rw [names, define, scope?_modify, if_pos rfl, found]
  exact (Scope.names_insert _ entry).trans (if_neg fresh)

/-- What a name stands for may change. -/
theorem names_define_of_mem (h : entry.name ∈ t.names id) :
    (t.define id entry).names other = t.names other := by
  rw [names, define, scope?_modify]
  split
  · next same =>
    subst same
    unfold names at h ⊢
    cases found : t.scope? id with
    | none => rfl
    | some scope =>
      rw [found] at h
      exact (scope.names_insert entry).trans (if_pos h)
  · rfl

/-- A declaration adds a name to its scope that was not there. -/
theorem names_declare (h : t.declare id entry = .ok t') :
    t'.size = t.size ∧ (∀ other, id ≠ other → t'.names other = t.names other) ∧
      (id < t.size → entry.name ∉ t.names id ∧ t'.names id = t.names id ++ [entry.name]) := by
  unfold declare at h
  split at h
  · cases h
  · next new =>
    obtain rfl := Except.ok.inj h
    refine ⟨size_modify _, fun other apart => names_define_of_ne apart, fun there => ?_⟩
    have found : t.scope? id = some t.scopes[id] := Array.getElem?_eq_getElem there
    have fresh : entry.name ∉ t.names id := by
      rw [found, Option.bind_some] at new
      rw [names, found]
      exact Scope.get?_eq_none_iff.mp new
    exact ⟨fresh, names_define there fresh⟩

/-- What a search finds stands in a scope that it has come to. -/
theorem exists_of_search {α : Type} {f : Scope → Option α} {fuel : Nat} {found : ScopeId} {a : α}
    (h : t.search f fuel id = some (found, a)) :
    ∃ scope, t.scope? found = some scope ∧ f scope = some a := by
  induction fuel generalizing id with
  | zero => cases h
  | succ fuel ih =>
    rw [search] at h
    obtain ⟨scope, there, h⟩ := Option.bind_eq_some_iff.mp h
    cases answer : f scope with
    | some b =>
      rw [answer] at h
      obtain ⟨rfl, rfl⟩ := Prod.mk.inj (Option.some.inj h)
      exact ⟨scope, there, answer⟩
    | none =>
      rw [answer] at h
      obtain ⟨parent, -, h⟩ := Option.bind_eq_some_iff.mp h
      exact ih h

/-- A name whose type changes stays in its place. -/
theorem names_retype {name : String} {f : TypeExpr → TypeExpr} :
    (t.retype id name f).names other = t.names other := by
  unfold retype
  split
  · next found entry same =>
    refine names_define_of_mem ?_
    obtain ⟨scope, there, got⟩ := exists_of_search same
    have named : entry.name ∈ scope.names := List.mem_map_of_mem (List.mem_of_find?_eq_some got)
    rwa [names, there]
  · rfl

theorem size_retype {name : String} {f : TypeExpr → TypeExpr} :
    (t.retype id name f).size = t.size := by
  unfold retype
  split
  · exact size_modify _
  · rfl

end ScopeTable

end ScriptEngine
