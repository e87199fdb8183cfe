import ScriptEngine.Evaluation.Run
import ScriptEngine.Proofs.Evaluation.Regime
import ScriptEngine.Proofs.Host.Keys

/-!
# Calls of the maps of a host

A map of the host may be filled with a key that stands in several entries. A call finds the first one
only: putting a value adds a key that is not there and no other, and removing a key takes out one entry
of it.

* `HostMap.Answers`, `HostMap.callError`: what calls answer, and why they fail.
* `HostMap.keysAfter`, `HostMap.keys_of_answers`: what a call does to the keys.
* `HostMap.count_keysAfter_le`: a key stands no more often after a call, or only once.
* `Eval.callHost_ok`, `Eval.callHost_error`: a call of a collection that the store holds.
* `Eval.AnswersMap`: what a map of some keys answers.
* `Eval.callHosts_map`: calls one after another, and what is true of the map behind them.
-/

namespace ScriptEngine

namespace HostMap

variable {typeName : HostRef → String} {m m' : HostMap} {name : String} {args : List HostValue}
  {value : HostValue}

/-- The map of these entries. -/
def ofEntries (entries : List (String × HostValue)) : HostMap := ⟨entries.toArray⟩

/-! ## Calls -/

/-- The answer of a call that has as many arguments as the method takes, and the map after it. -/
inductive Answers (typeName : HostRef → String) (m : HostMap) :
    String → List HostValue → HostValue → HostMap → Prop
  | put (key value : HostValue) : Answers typeName m "put" [key, value]
    (m.value (keyOf typeName key)) (m.insert (keyOf typeName key) value)
  | get (key : HostValue) : Answers typeName m "get" [key] (m.value (keyOf typeName key)) m
  | remove (key : HostValue) : Answers typeName m "remove" [key] (m.value (keyOf typeName key))
    (m.erase (keyOf typeName key))
  | contains {name : String} (key : HostValue) : name = "containsKey" ∨ name = "contains_key" →
    Answers typeName m name [key] (.bool (m.contains (keyOf typeName key))) m
  | keys : Answers typeName m "keys" [] (.list (m.keys.map .string)) m
  | values : Answers typeName m "values" [] (.list m.values) m
  | size : Answers typeName m "size" [] (.number (Float.ofNat m.size)) m
  | isEmpty : Answers typeName m "isEmpty" [] (.bool m.isEmpty) m

theorem call_of_answers (h : Answers typeName m name args value m') :
    call typeName m name args = .ok (value, m') := by
  cases h with
  | contains key either => rcases either with rfl | rfl <;> rfl
  | _ => rfl

/-- A call succeeds if the method takes as many arguments as there are. -/
theorem exists_answers (known : arity? name = some args.length) :
    ∃ value m', Answers typeName m name args value m' := by
  unfold arity? at known
  split at known
  · obtain ⟨key, value, rfl⟩ := List.length_eq_two.mp (Option.some.inj known).symm
    exact ⟨_, _, .put key value⟩
  · obtain ⟨key, rfl⟩ := List.length_eq_one_iff.mp (Option.some.inj known).symm
    exact ⟨_, _, .get key⟩
  · obtain ⟨key, rfl⟩ := List.length_eq_one_iff.mp (Option.some.inj known).symm
    exact ⟨_, _, .remove key⟩
  · obtain ⟨key, rfl⟩ := List.length_eq_one_iff.mp (Option.some.inj known).symm
    exact ⟨_, _, .contains key (.inl rfl)⟩
  · obtain ⟨key, rfl⟩ := List.length_eq_one_iff.mp (Option.some.inj known).symm
    exact ⟨_, _, .contains key (.inr rfl)⟩
  · obtain rfl := List.length_eq_zero_iff.mp (Option.some.inj known).symm
    exact ⟨_, _, .keys⟩
  · obtain rfl := List.length_eq_zero_iff.mp (Option.some.inj known).symm
    exact ⟨_, _, .values⟩
  · obtain rfl := List.length_eq_zero_iff.mp (Option.some.inj known).symm
    exact ⟨_, _, .size⟩
  · obtain rfl := List.length_eq_zero_iff.mp (Option.some.inj known).symm
    exact ⟨_, _, .isEmpty⟩
  · cases known

/-- Why a call fails that has another number of arguments, or whose method there is not. -/
def callError (name : String) (args : List HostValue) : HostError :=
  match arity? name with
  | none => .noSuchMethod "HostMap" name
  | some expected => .argumentMismatch name expected args.length

theorem call_of_arity_ne (unknown : arity? name ≠ some args.length) :
    call typeName m name args = .error (callError name args) := by
  unfold call callError
  cases known : arity? name with
  | none => rfl
  | some expected =>
    have other : args.length ≠ expected := fun same => unknown (known.trans (congrArg some same.symm))
    simp only [HostError.checkArity, if_neg other]
    rfl

/-! ## Keys -/

/-- The keys after a call: a key that is put and not there yet comes last, and the first one of a key
that is removed is taken out. -/
def keysAfter (typeName : HostRef → String) (keys : List String) :
    String → List HostValue → List String
  | "put", [key, _] =>
    if keyOf typeName key ∈ keys then keys else keys ++ [keyOf typeName key]
  | "remove", [key] => keys.erase (keyOf typeName key)
  | _, _ => keys

theorem keys_of_answers (h : Answers typeName m name args value m') :
    m'.keys = keysAfter typeName m.keys name args := by
  cases h with
  | put key value => exact Rows.keys_insert value
  | remove key => exact Rows.keys_erase
  | contains key either => rcases either with rfl | rfl <;> rfl
  | _ => rfl

/-- A call that fails leaves the keys. -/
theorem keysAfter_of_arity_ne (keys : List String) (unknown : arity? name ≠ some args.length) :
    keysAfter typeName keys name args = keys := by
  unfold keysAfter
  split
  · exact absurd rfl unknown
  · exact absurd rfl unknown
  · rfl

theorem nodup_keysAfter {keys : List String} (distinct : keys.Nodup) :
    (keysAfter typeName keys name args).Nodup := by
  unfold keysAfter
  split
  · split
    · exact distinct
    · next new =>
      exact distinct.append (List.nodup_singleton _) (List.disjoint_singleton.mpr new)
  · exact distinct.erase _
  · exact distinct

/-- A key stands no more often after a call than before it, or only once. -/
theorem count_keysAfter_le (keys : List String) (key : String) :
    (keysAfter typeName keys name args).count key ≤ max 1 (keys.count key) := by
  unfold keysAfter
  split
  · split
    · exact le_max_right ..
    · next new =>
      rw [List.count_append, List.count_singleton]
      split
      · next same =>
        rw [← beq_iff_eq.mp same, List.count_eq_zero_of_not_mem new]
        exact le_max_left ..
      · exact le_max_right ..
  · exact (List.Sublist.count_le _ List.erase_sublist).trans (le_max_right ..)
  · exact le_max_right ..

/-- The keys after some calls. -/
def keysAfterAll (typeName : HostRef → String) (keys : List String)
    (calls : List (String × List HostValue)) : List String :=
  calls.foldl (fun keys call => keysAfter typeName keys call.1 call.2) keys

theorem nodup_keysAfterAll {keys : List String} (distinct : keys.Nodup)
    (calls : List (String × List HostValue)) : (keysAfterAll typeName keys calls).Nodup := by
  induction calls generalizing keys with
  | nil => exact distinct
  | cons call calls ih => exact ih (nodup_keysAfter distinct)

theorem count_keysAfterAll_le (keys : List String) (calls : List (String × List HostValue))
    (key : String) : (keysAfterAll typeName keys calls).count key ≤ max 1 (keys.count key) := by
  induction calls generalizing keys with
  | nil => exact le_max_right ..
  | cons call calls ih =>
    exact (ih _).trans (max_le (le_max_left ..) (count_keysAfter_le keys key))

end HostMap

/-! ## Calls of a map in the store -/

/-- The world with another object in the place of one of the host. -/
def World.withHost (w : World) (ref : HostRef) (object : HostObject) : World :=
  { w with store := w.store.setHost ref object }

section

variable {w : World} {ref : HostRef} {m next : HostMap} {object : HostObject}

theorem World.withHost_self (there : w.store.host? ref = some object) :
    w.withHost ref object = w := by
  obtain ⟨bound, same⟩ := Array.getElem?_eq_some_iff.mp there
  have kept : w.store.hosts.setIfInBounds ref object = w.store.hosts := by
    rw [← Array.toList_inj, Array.toList_setIfInBounds, ← same, ← Array.getElem_toList]
    exact List.set_getElem_self _
  rw [withHost, Store.setHost, kept]

theorem World.withHost_withHost (w : World) (ref : HostRef) (object object' : HostObject) :
    (w.withHost ref object).withHost ref object' = w.withHost ref object' := by
  rw [withHost, withHost, withHost, Store.setHost, Store.setHost, Store.setHost,
    Array.setIfInBounds_setIfInBounds]

theorem World.host?_withHost (there : w.store.host? ref = some (.map m)) :
    (w.withHost ref (.map next)).store.host? ref = some (.map next) := by
  obtain ⟨bound, -⟩ := Array.getElem?_eq_some_iff.mp there
  exact Array.getElem?_setIfInBounds_self_of_lt bound

/-- An object that stays of its type does not change the names of the types. -/
theorem World.hostTypeName_withHost (there : w.store.host? ref = some (.map m)) :
    (w.withHost ref (.map next)).store.hostTypeName = w.store.hostTypeName := by
  funext other
  show HostTable.typeName (w.store.hosts.setIfInBounds ref (.map next)) other =
    HostTable.typeName w.store.hosts other
  rw [HostTable.typeName, HostTable.typeName]
  by_cases same : ref = other
  · have there : w.store.hosts[other]? = some (.map m) := same ▸ there
    obtain ⟨bound, -⟩ := Array.getElem?_eq_some_iff.mp there
    rw [same, Array.getElem?_setIfInBounds_self_of_lt bound, there]
    rfl
  · rw [Array.getElem?_setIfInBounds_ne same]

end

namespace Eval

variable {machine : Machine} {env : EnvId} {w : World} {ref : HostRef} {m next : HostMap}
  {name : String} {args : List HostValue}

/-- A collection of the host is replaced after a call that succeeds, -/
theorem callHost_ok {object after : HostObject} {value : HostValue}
    (there : w.store.host? ref = some object)
    (called : object.call? w.store.hostTypeName name args = some (.ok (value, after))) :
    callHost machine ref name args env w = .done (.ok value) (w.withHost ref after) := by
  have answered : w.store.callHost? ref name args = some (.ok (value, after)) := by
    rw [Store.callHost?, there]
    exact called
  rw [callHost, bind_eq, ask, Progress.bind, answered]
  rfl

/-- and nothing changes after one that fails. -/
theorem callHost_error {object : HostObject} {e : HostError}
    (there : w.store.host? ref = some object)
    (called : object.call? w.store.hostTypeName name args = some (.error e)) :
    callHost machine ref name args env w = .done (.error e) w := by
  have answered : w.store.callHost? ref name args = some (.error e) := by
    rw [Store.callHost?, there]
    exact called
  rw [callHost, bind_eq, ask, Progress.bind, answered]
  rfl

theorem callHost_map_ok {value : HostValue} (there : w.store.host? ref = some (.map m))
    (h : HostMap.Answers w.store.hostTypeName m name args value next) :
    callHost machine ref name args env w = .done (.ok value) (w.withHost ref (.map next)) := by
  refine callHost_ok there ?_
  rw [HostObject.call?, HostMap.call_of_answers h]
  rfl

theorem callHost_map_read {value : HostValue} (there : w.store.host? ref = some (.map m))
    (h : HostMap.Answers w.store.hostTypeName m name args value m) :
    callHost machine ref name args env w = .done (.ok value) w := by
  rw [callHost_map_ok there h, World.withHost_self there]

theorem callHost_map_error (there : w.store.host? ref = some (.map m))
    (unknown : HostMap.arity? name ≠ some args.length) :
    callHost machine ref name args env w = .done (.error (HostMap.callError name args)) w := by
  refine callHost_error there ?_
  rw [HostObject.call?, HostMap.call_of_arity_ne unknown]
  rfl

/-- Calls of methods of a host object, one after another. -/
def callHosts (machine : Machine) (ref : HostRef) :
    List (String × List HostValue) → Eval (List (Except HostError HostValue))
  | [] => pure []
  | (name, args) :: calls => do
    let answer ← callHost machine ref name args
    return answer :: (← callHosts machine ref calls)

/-- What is true of a map of the host that has some keys: what it answers to the next calls. -/
structure AnswersMap (machine : Machine) (env : EnvId) (ref : HostRef) (w : World)
    (keys : List String) : Prop where
  /-- It is a map of these keys. -/
  there : ∃ m : HostMap, w.store.host? ref = some (.map m) ∧ m.keys = keys
  /-- What has been put is there. -/
  put (key value : HostValue) : ∃ old w',
    callHost machine ref "put" [key, value] env w = .done (.ok old) w' ∧
    callHost machine ref "get" [key] env w' = .done (.ok value) w'
  /-- What has been removed is there no longer if it stood there once. -/
  remove (key : HostValue) : ∃ old w',
    callHost machine ref "remove" [key] env w = .done (.ok old) w' ∧
    ∀ name, name = "containsKey" ∨ name = "contains_key" →
      callHost machine ref name [key] env w' = .done (.ok (.bool
        (1 < keys.count (HostMap.keyOf w.store.hostTypeName key)))) w'
  /-- The size is the number of entries. -/
  size : callHost machine ref "size" [] env w = .done (.ok (.number (Float.ofNat keys.length))) w
  /-- A call changes the keys as its method says, and nothing but the map. -/
  step {name : String} {args : List HostValue} (known : HostMap.arity? name = some args.length) :
    ∃ value next, callHost machine ref name args env w =
        .done (.ok value) (w.withHost ref (.map next)) ∧
      next.keys = HostMap.keysAfter w.store.hostTypeName keys name args
  /-- A call of an unknown method or with another number of arguments fails and changes nothing. -/
  fails {name : String} {args : List HostValue} (unknown : HostMap.arity? name ≠ some args.length) :
    callHost machine ref name args env w = .done (.error (HostMap.callError name args)) w

theorem answersMap (machine : Machine) (env : EnvId) (there : w.store.host? ref = some (.map m)) :
    AnswersMap machine env ref w m.keys where
  there := ⟨m, there, rfl⟩
  put key value := by
    refine ⟨_, _, callHost_map_ok there (.put key value), ?_⟩
    refine (callHost_map_read (World.host?_withHost there) (.get key)).trans ?_
    rw [World.hostTypeName_withHost there, HostMap.value_insert, if_pos rfl]
  remove key := by
    refine ⟨_, _, callHost_map_ok there (.remove key), fun name either => ?_⟩
    refine (callHost_map_read (World.host?_withHost there) (.contains key either)).trans ?_
    rw [World.hostTypeName_withHost there]
    congr 3
    rw [Bool.eq_iff_iff, Rows.contains_iff, Rows.keys_erase, decide_eq_true_iff,
      ← List.count_pos_iff, List.count_erase_self]
    omega
  size := by
    refine (callHost_map_read there .size).trans ?_
    rw [Rows.keys, Rows.entries, List.length_map, Array.length_toList, Rows.size]
  step known := by
    obtain ⟨value, next, answers⟩ := HostMap.exists_answers known
    exact ⟨value, next, callHost_map_ok there answers, HostMap.keys_of_answers answers⟩
  fails unknown := callHost_map_error there unknown

theorem callHosts_map_keys (machine : Machine) (env : EnvId)
    (calls : List (String × List HostValue)) (there : w.store.host? ref = some (.map m)) :
    ∃ answers last,
      callHosts machine ref calls env w = .done answers (w.withHost ref (.map last)) ∧
      last.keys = HostMap.keysAfterAll w.store.hostTypeName m.keys calls := by
  induction calls generalizing w m with
  | nil => exact ⟨[], m, by rw [World.withHost_self there]; rfl, rfl⟩
  | cons call calls ih =>
    obtain ⟨name, args⟩ := call
    obtain ⟨answer, next, first, keys⟩ : ∃ answer next,
        callHost machine ref name args env w = .done answer (w.withHost ref (.map next)) ∧
          next.keys = HostMap.keysAfter w.store.hostTypeName m.keys name args := by
      by_cases known : HostMap.arity? name = some args.length
      · obtain ⟨value, next, done, keys⟩ := (answersMap machine env there).step known
        exact ⟨.ok value, next, done, keys⟩
      · have failed := (answersMap machine env there).fails known
        refine ⟨.error (HostMap.callError name args), m, ?_,
          (HostMap.keysAfter_of_arity_ne m.keys known).symm⟩
        rw [failed, World.withHost_self there]
    have after : (w.withHost ref (.map next)).store.host? ref = some (.map next) :=
      World.host?_withHost there
    obtain ⟨answers, last, others, lastKeys⟩ := ih after
    rw [World.withHost_withHost] at others
    refine ⟨answer :: answers, last, ?_, ?_⟩
    · show (callHost machine ref name args >>= fun answer =>
        callHosts machine ref calls >>= fun answers => pure (answer :: answers)) env w = _
      rw [bind_eq, first, Progress.bind, bind_eq, others]
      rfl
    · rw [lastKeys, World.hostTypeName_withHost there, keys]
      rfl

/-- A map of the host that has been filled with some entries and called some times has the keys that the
calls have left of those of the entries. A key of it stands once, or not more often than among the
entries. -/
theorem callHosts_map (machine : Machine) (env : EnvId) (entries : List (String × HostValue))
    (calls : List (String × List HostValue))
    (there : w.store.host? ref = some (.map (HostMap.ofEntries entries))) :
    ∃ answers keys w', callHosts machine ref calls env w = .done answers w' ∧
      AnswersMap machine env ref w' keys ∧
      keys = HostMap.keysAfterAll w.store.hostTypeName (entries.map (·.1)) calls ∧
      (∀ key, keys.count key ≤ max 1 ((entries.map (·.1)).count key)) ∧
      ((entries.map (·.1)).Nodup → keys.Nodup ∧ keys.length = keys.toFinset.card) := by
  obtain ⟨answers, last, done, keys⟩ := callHosts_map_keys machine env calls there
  refine ⟨answers, last.keys, _, done, answersMap machine env (World.host?_withHost there), keys,
    ?_, fun distinct => ?_⟩
  · rw [keys]
    exact HostMap.count_keysAfterAll_le _ calls
  · have distinct : last.keys.Nodup := keys ▸ HostMap.nodup_keysAfterAll distinct calls
    exact ⟨distinct, (List.toFinset_card_of_nodup distinct).symm⟩

/-- A world in which the host has a map with a key that stands twice. -/
def twiceSample : World :=
  { World.empty with
    store := { Store.empty with
      hosts := #[.map (HostMap.ofEntries [("a", .bool true), ("a", .bool false)])] } }

theorem host?_twiceSample : twiceSample.store.host? 0 =
    some (.map (HostMap.ofEntries [("a", .bool true), ("a", .bool false)])) := rfl

/-- One of two entries of a key is removed. -/
theorem callHosts_map_of_twice : ∃ answers keys w',
    callHosts ⟨fun goal => goal.run 0⟩ 0 [("remove", [.string "a"])] 0 twiceSample =
        .done answers w' ∧
      AnswersMap ⟨fun goal => goal.run 0⟩ 0 0 w' keys ∧ keys = ["a"] := by
  obtain ⟨answers, keys, w', done, law, same, -⟩ :=
    callHosts_map ⟨fun goal => goal.run 0⟩ 0 [("a", .bool true), ("a", .bool false)]
      [("remove", [.string "a"])] host?_twiceSample
  exact ⟨answers, keys, w', done, law, same.trans (by decide +kernel)⟩

/-- So it is still there after it has been removed. -/
theorem callHost_twice : ∃ old w',
    callHost ⟨fun goal => goal.run 0⟩ 0 "remove" [.string "a"] 0 twiceSample =
        .done (.ok old) w' ∧
      callHost ⟨fun goal => goal.run 0⟩ 0 "containsKey" [.string "a"] 0 w' =
        .done (.ok (.bool true)) w' := by
  obtain ⟨old, w', removed, there⟩ :=
    (answersMap ⟨fun goal => goal.run 0⟩ 0 host?_twiceSample).remove (.string "a")
  exact ⟨old, w', removed, there "containsKey" (.inl rfl)⟩

end Eval

end ScriptEngine
