import ScriptEngine.Host.Binding
import ScriptEngine.Proofs.OrderedMap

/-!
# Names and remote calls among bindings

* `Bindings.nodup_names`, `Bindings.resolve?_bind`: a name is bound once, to what it was bound
  to last.
* `Bindings.resolve?_ofRemotes_remotes`: the remote calls of bindings are bound again as they were,
  and nothing else is.
* `Bindings.mem_names_ofRemotes_remotes`: the names of these.
-/

namespace ScriptEngine

/-- Whether a name is bound to a remote call. -/
def Binding.isRemote : Binding → Bool
  | .remote _ => true
  | .object _ | .hostClass _ => false

namespace Bindings

variable {b : Bindings} {name : String}

/-- No name is bound twice. -/
theorem nodup_names (b : Bindings) : b.names.Nodup := b.entries.nodup_keys

/-- What names are bound to when something is bound to one. -/
theorem resolve?_bind (b : Bindings) (name other : String) (binding : Binding) :
    (b.bind name binding).resolve? other =
      if other = name then some binding else b.resolve? other :=
  b.entries.get?_insert name other binding

/-- To bind a class is to bind its name. -/
theorem eq_bind_of_bindClass {b' : Bindings} {ref : ClassRef}
    (bound : b.bindClass name ref = .ok b') : b' = b.bind name (.hostClass ref) := by
  unfold bindClass at bound
  split at bound
  · exact (Except.ok.inj bound).symm
  · cases bound

/-- The one name that is bound. -/
theorem entries_bind_empty (name : String) (binding : Binding) :
    (empty.bind name binding).entries.entries = [(name, binding)] :=
  OrderedMap.entries_insert binding List.not_mem_nil

theorem mem_names_iff : name ∈ b.names ↔ ∃ binding, b.resolve? name = some binding := by
  simp only [resolve?, OrderedMap.get?_eq_some_iff, names, Rows.keys, List.mem_map]
  constructor
  · rintro ⟨⟨_, binding⟩, mem, rfl⟩
    exact ⟨binding, mem⟩
  · rintro ⟨binding, mem⟩
    exact ⟨_, mem, rfl⟩

/-- The remote calls among the bindings, in the order of their binding. -/
theorem remotes_perm (b : Bindings) : b.remotes.Perm (b.entries.entries.filterMap fun row =>
    match row.2 with
    | .remote spec => some (row.1, spec)
    | _ => none) :=
  List.mergeSort_perm _ _

theorem mem_remotes {spec : RemoteSpec} :
    (name, spec) ∈ b.remotes ↔ (name, .remote spec) ∈ b.entries.entries := by
  rw [b.remotes_perm.mem_iff, List.mem_filterMap]
  constructor
  · rintro ⟨⟨other, binding⟩, mem, same⟩
    cases binding with
    | remote _ =>
      obtain ⟨rfl, rfl⟩ := Prod.mk.inj (Option.some.inj same)
      exact mem
    | _ => cases same
  · intro mem
    exact ⟨_, mem, rfl⟩

/-- No remote call is named twice. -/
theorem nodup_remotes (b : Bindings) : (b.remotes.map (·.1)).Nodup := by
  rw [(b.remotes_perm.map _).nodup_iff]
  refine b.nodup_names.sublist ?_
  rw [names, Rows.keys]
  induction b.entries.entries with
  | nil => exact .slnil
  | cons row rows ih =>
    obtain ⟨name, binding⟩ := row
    cases binding with
    | remote spec => exact ih.cons_cons name
    | object _ | hostClass _ => exact ih.cons name

/-- Remote calls that are bound one after another. -/
theorem entries_foldl_bind (remotes : List (String × RemoteSpec)) (b : Bindings)
    (distinct : (b.names ++ remotes.map (·.1)).Nodup) :
    (remotes.foldl (fun b (name, spec) => b.bind name (.remote spec)) b).entries.entries =
      b.entries.entries ++ remotes.map fun row => (row.1, .remote row.2) := by
  induction remotes generalizing b with
  | nil => simp
  | cons row remotes ih =>
    obtain ⟨name, spec⟩ := row
    have new : name ∉ b.entries.entries.map (·.1) := by
      intro mem
      exact (List.nodup_append.mp distinct).2.2 name mem name List.mem_cons_self rfl
    have bound := OrderedMap.entries_insert (Binding.remote spec) new
    have later : ((b.bind name (.remote spec)).names ++ remotes.map (·.1)).Nodup := by
      have names : (b.bind name (.remote spec)).names = b.names ++ [name] := by
        rw [Bindings.names, Rows.keys, bind, bound, List.map_append]
        rfl
      rw [names, List.append_assoc]
      exact distinct
    rw [List.foldl_cons, ih _ later, bind, bound, List.append_assoc]
    rfl

theorem entries_ofRemotes {remotes : List (String × RemoteSpec)}
    (distinct : (remotes.map (·.1)).Nodup) :
    (ofRemotes remotes).entries.entries = remotes.map fun row => (row.1, .remote row.2) :=
  entries_foldl_bind remotes .empty distinct

/-- The remote calls of bindings are bound again as they were, and nothing else is. -/
theorem resolve?_ofRemotes_remotes (b : Bindings) (name : String) :
    (ofRemotes b.remotes).resolve? name = (b.resolve? name).filter Binding.isRemote := by
  have entries := entries_ofRemotes b.nodup_remotes
  refine Option.ext fun binding => ?_
  rw [resolve?, resolve?, OrderedMap.get?_eq_some_iff, Option.filter_eq_some_iff,
    OrderedMap.get?_eq_some_iff, entries, List.mem_map]
  constructor
  · rintro ⟨⟨other, spec⟩, mem, same⟩
    obtain ⟨rfl, rfl⟩ := Prod.mk.inj same
    exact ⟨mem_remotes.mp mem, rfl⟩
  · rintro ⟨mem, remote⟩
    cases binding with
    | remote spec => exact ⟨(name, spec), mem_remotes.mpr mem, rfl⟩
    | object _ | hostClass _ => cases remote

/-- The names of the remote calls are among those that are bound. -/
theorem mem_names_ofRemotes_remotes :
    name ∈ (ofRemotes b.remotes).names ↔
      ∃ binding, b.resolve? name = some binding ∧ binding.isRemote = true := by
  rw [mem_names_iff]
  simp only [resolve?_ofRemotes_remotes, Option.filter_eq_some_iff]

end Bindings

end ScriptEngine
