import ScriptEngine.Proofs.Entity.History
import ScriptEngine.Store.Marshal

/-!
# The data that an entity shows to the host

The data of an entity is collected along the chain of bases from its end, while a member is looked up
from its beginning. Both come to the same unless a function stands before data of its name: looking up
finds the function, and the data behind it is collected all the same.

* `Arena.data?`: the own member of an entity, if that is data.
* `Arena.mem_dataMembers_iff`: what is collected is the nearest data of each name.
* `Arena.Overrides`: a function stands before data of its name.
* `Arena.exists_mem_dataMembers`: where one does, data that it overrides is shown.
* `Arena.dataMembers_visible`: what is shown is what is found, where no function overrides data.
-/

namespace ScriptEngine

namespace Arena

variable {a : Arena} {id : Nat} {name : String} {value : Value}

/-! ## Collecting along the chain -/

/-- A member that is no function. -/
def isData (member : String × Value) : Bool := !member.2.isFunction

/-- The own member of an entity, if that is data. -/
def data? (a : Arena) (id : Nat) (name : String) : Option Value :=
  (a.own? id name).filter fun value => !value.isFunction

theorem data?_eq_some_iff :
    a.data? id name = some value ↔ a.own? id name = some value ∧ value.isFunction = false := by
  rw [data?, Option.filter_eq_some_iff, Bool.not_eq_true']

/-- The own member of a name is the only one. -/
theorem own?_eq_some_iff : a.own? id name = some value ↔ (name, value) ∈ a.members id := by
  rw [own?, members]
  cases a.record? id with
  | none => simp
  | some record => exact OrderedMap.get?_eq_some_iff

/-- What is found among the data of one entity from its end. -/
theorem find?_data (id : Nat) (name : String) :
    (((a.members id).filter isData).reverse.find? fun row => row.1 == name).map (·.2) =
      a.data? id name := by
  have unique : (((a.members id).filter isData).reverse.map (·.1)).Nodup := by
    rw [List.map_reverse, List.nodup_reverse]
    exact (a.nodup_names id).sublist (List.filter_sublist.map _)
  ext value
  rw [OrderedMap.find?_eq_some_iff unique, List.mem_reverse, List.mem_filter, data?_eq_some_iff,
    own?_eq_some_iff, isData, Bool.not_eq_true']

/-- What is collected from the end of a chain is found from its beginning. -/
theorem find?_collected (ids : List Nat) (name : String) :
    (((ids.reverse.flatMap a.members).filter isData).reverse.find? fun row => row.1 == name).map
      (·.2) = ids.findSome? (a.data? · name) := by
  induction ids with
  | nil => rfl
  | cons id ids ih =>
    rw [List.reverse_cons, List.flatMap_append, List.flatMap_singleton, List.filter_append,
      List.reverse_append, List.find?_append, Option.map_or, ih, find?_data,
      List.findSome?_cons]
    cases a.data? id name <;> rfl

/-- An entity without an answer may be left out. -/
theorem findSome?_filter_ne {β : Type} {f : Nat → Option β} (silent : f id = none) (ids : List Nat) :
    (ids.filter fun other => !other == id).findSome? f = ids.findSome? f := by
  induction ids with
  | nil => rfl
  | cons other ids ih =>
    by_cases same : other = id
    · simp [same, silent, ih]
    · simp [same, ih, List.findSome?_cons]

/-- An entity that comes again does not count for what is found first. -/
theorem findSome?_eraseDups {β : Type} (f : Nat → Option β) (ids : List Nat) :
    ids.eraseDups.findSome? f = ids.findSome? f := by
  match ids with
  | [] => rfl
  | id :: ids =>
    rw [List.eraseDups_cons, List.findSome?_cons, List.findSome?_cons]
    cases answered : f id with
    | some answer => rfl
    | none =>
      have shorter := List.length_filter_le (fun other => !other == id) ids
      exact (findSome?_eraseDups f _).trans (findSome?_filter_ne answered ids)
termination_by ids.length
decreasing_by exact Nat.lt_succ_of_le shorter

/-- What is collected is the nearest data of each name. -/
theorem mem_dataMembers_iff :
    (name, value) ∈ a.dataMembers id ↔
      (a.chain id).findSome? (a.data? · name) = some value := by
  rw [dataMembers, ← OrderedMap.get?_eq_some_iff,
    OrderedMap.get?_ofList]
  exact Eq.congr_left ((find?_collected _ name).trans (findSome?_eraseDups _ _))

/-- No name is shown twice. -/
theorem nodup_dataMembers : ((a.dataMembers id).map (·.1)).Nodup := by
  unfold dataMembers
  exact OrderedMap.nodup_keys _

theorem get?_eq_findSome? : a.get? id name = (a.chain id).findSome? (a.own? · name) := by
  rw [get?, find?, List.map_findSome?]
  refine congrArg (List.findSome? · _) (funext fun holder => ?_)
  show ((a.own? holder name).map fun value => (holder, value)).map (·.2) = a.own? holder name
  cases a.own? holder name <;> rfl

/-! ## What is shown -/

/-- A function stands before data of its name: looking up finds the function. -/
def Overrides (a : Arena) (id : Nat) (name : String) : Prop :=
  (∃ function, a.get? id name = some function ∧ function.isFunction = true) ∧
    ∃ holder ∈ a.chain id, (a.data? holder name).isSome

/-- What is found first is the first data if it is data. -/
theorem findSome?_data_of_own {ids : List Nat} (found : ids.findSome? (a.own? · name) = some value)
    (data : value.isFunction = false) : ids.findSome? (a.data? · name) = some value := by
  obtain ⟨before, holder, after, rfl, own, lack⟩ := List.findSome?_eq_some_iff.mp found
  refine List.findSome?_eq_some_iff.mpr ⟨before, holder, after, rfl, ?_, fun other mem => ?_⟩
  · exact data?_eq_some_iff.mpr ⟨own, data⟩
  · rw [data?, lack other mem]
    rfl

/-- Where no function overrides data, exactly what is found and is data is shown. -/
theorem mem_dataMembers_iff_get?
    (visible : ¬ a.Overrides id name) :
    (name, value) ∈ a.dataMembers id ↔
      a.get? id name = some value ∧ value.isFunction = false := by
  rw [mem_dataMembers_iff, get?_eq_findSome?]
  refine ⟨fun shown => ?_, fun found => findSome?_data_of_own found.1 found.2⟩
  obtain ⟨holder, mem, data⟩ := List.exists_of_findSome?_eq_some shown
  obtain ⟨other, found⟩ : ∃ other, (a.chain id).findSome? (a.own? · name) = some other := by
    refine Option.isSome_iff_exists.mp (List.findSome?_isSome_iff.mpr ⟨holder, mem, ?_⟩)
    rw [(data?_eq_some_iff.mp data).1]
    rfl
  cases isData : other.isFunction with
  | false =>
    obtain rfl := Option.some.inj (shown.symm.trans (findSome?_data_of_own found isData))
    exact ⟨found, isData⟩
  | true =>
    refine absurd ⟨⟨other, get?_eq_findSome?.trans found, isData⟩, holder, mem, ?_⟩ visible
    rw [data]
    rfl

/-- Where a function overrides data, the data is shown. -/
theorem exists_mem_dataMembers (overrides : a.Overrides id name) :
    ∃ value, (name, value) ∈ a.dataMembers id ∧ a.get? id name ≠ some value := by
  obtain ⟨⟨function, found, isFunction⟩, holder, mem, data⟩ := overrides
  have some : ((a.chain id).findSome? (a.data? · name)).isSome :=
    List.findSome?_isSome_iff.mpr ⟨holder, mem, data⟩
  obtain ⟨value, shown⟩ := Option.isSome_iff_exists.mp some
  refine ⟨value, mem_dataMembers_iff.mpr shown, fun same => ?_⟩
  obtain ⟨other, -, isData⟩ := List.exists_of_findSome?_eq_some shown
  obtain rfl := Option.some.inj (found.symm.trans same)
  cases isFunction.symm.trans (data?_eq_some_iff.mp isData).2

/-! ## Every arena -/

/-- The arena after some changes, of whatever entities. -/
def after (changes : List Change) : Arena := changes.foldl apply .empty

end Arena

namespace Store

variable {s : Store}

/-- Each entry of a host map is a member with its value as the host sees it. -/
theorem forall₂_marshalEntries {fuel : Nat} {members : List (String × Value)}
    {entries : List (String × HostValue)} (crosses : s.marshalEntries fuel members = .ok entries) :
    List.Forall₂ (fun member entry =>
      entry.1 = member.1 ∧ s.marshalFrom fuel member.2 = .ok entry.2) members entries := by
  induction members generalizing entries with
  | nil =>
    rw [marshalEntries] at crosses
    obtain rfl := Except.ok.inj crosses
    exact .nil
  | cons member members ih =>
    rw [marshalEntries] at crosses
    cases first : s.marshalFrom fuel member.2 with
    | error p =>
      rw [first] at crosses
      cases crosses
    | ok value =>
      rw [first] at crosses
      cases others : s.marshalEntries fuel members with
      | error p =>
        rw [others] at crosses
        cases crosses
      | ok rest =>
        rw [others] at crosses
        obtain rfl := Except.ok.inj crosses
        exact .cons ⟨rfl, first⟩ (ih others)

/-- An entity without a host object crosses to the host as the map of its data. -/
theorem exists_map_of_toHost {env : EnvId} {id : Nat} {a : Arena} {shown : HostValue}
    (there : s.arena env = a) (noHost : s.entityHost? ⟨env, id⟩ = none)
    (crosses : s.toHost (.entity ⟨env, id⟩) = .ok shown) : ∃ entries fuel, shown = .map entries ∧
      List.Forall₂ (fun member entry =>
        entry.1 = member.1 ∧ s.marshalFrom fuel member.2 = .ok entry.2) (a.dataMembers id) entries := by
  unfold toHost marshalFrom at crosses
  rw [noHost] at crosses
  simp only [there] at crosses
  cases mapped : s.marshalEntries s.cellCount (a.dataMembers id) with
  | error p =>
    simp only [mapped] at crosses
    cases crosses
  | ok entries =>
    simp only [mapped] at crosses
    obtain rfl := Except.ok.inj crosses
    exact ⟨entries, s.cellCount, rfl, forall₂_marshalEntries mapped⟩

end Store

namespace Arena

/-- What an entity shows to the host, whatever has become of its arena: each name once, and, unless a
function overrides data of that name, exactly the value that the entity finds if that is data. Where
a function does, data that it overrides is shown in its place. The host map of an entity without a
host object has an entry for each member shown. -/
theorem dataMembers_visible (changes : List Change) (id : Nat) :
    (((after changes).dataMembers id).map (·.1)).Nodup ∧
    (∀ name, ¬ (after changes).Overrides id name → ∀ value,
      (name, value) ∈ (after changes).dataMembers id ↔
        (after changes).get? id name = some value ∧ value.isFunction = false) ∧
    (∀ name, (after changes).Overrides id name →
      ∃ value, (name, value) ∈ (after changes).dataMembers id ∧
        (after changes).get? id name ≠ some value) ∧
    ∀ (s : Store) env, s.arena env = after changes → s.entityHost? ⟨env, id⟩ = none →
      ∀ shown, s.toHost (.entity ⟨env, id⟩) = .ok shown → ∃ entries fuel, shown = .map entries ∧
        List.Forall₂ (fun member entry =>
          entry.1 = member.1 ∧ s.marshalFrom fuel member.2 = .ok entry.2)
          ((after changes).dataMembers id) entries := by
  refine ⟨nodup_dataMembers, fun name visible value => mem_dataMembers_iff_get? visible,
    fun name overrides => exists_mem_dataMembers overrides, fun s env there noHost shown crosses =>
        Store.exists_map_of_toHost there noHost crosses⟩

/-- The entity over a prototype with an age shows that age. -/
theorem dataMembers_visible_of_inherited :
    ∃ changes, after changes = inherited ∧ ¬ (after changes).Overrides 1 "age" ∧
      ("age", .number 48) ∈ (after changes).dataMembers 1 := by
  have same : after [.alloc none none, .define 0 "age" (.number 48), .alloc (some 0) none,
      .define 1 "name" (.string "son")] = inherited := by
    simp [after, apply, alloc, define, modify, OrderedMap.insert, Rows.insert, Rows.position?,
      OrderedMap.empty, Rows.empty, empty, inherited]
  have found : inherited.get? 1 "age" = some (.number 48) := rfl
  have visible : ¬ inherited.Overrides 1 "age" := by
    rintro ⟨⟨function, isFound, isFunction⟩, -⟩
    obtain rfl := Option.some.inj (found.symm.trans isFound)
    cases isFunction
  refine ⟨_, same, same ▸ visible, ?_⟩
  exact ((dataMembers_visible _ 1).2.1 "age" (same ▸ visible) _).mpr ⟨same ▸ found, rfl⟩

/-- A prototype with a number and an entity over it that has a function of the same name. -/
def overriding : List Change :=
  [.alloc none none, .define 0 "x" (.number 1), .alloc (some 0) none, .define 1 "x" (.function 0)]

theorem after_overriding : after overriding =
    ⟨#[⟨⟨⟨#[("x", .number 1)]⟩, by decide⟩, none, none⟩,
      ⟨⟨⟨#[("x", .function 0)]⟩, by decide⟩, some 0, none⟩]⟩ := by
  simp [after, overriding, apply, alloc, define, modify, OrderedMap.insert, Rows.insert,
    Rows.position?, OrderedMap.empty, Rows.empty, empty]

/-- The entity shows the number, though what it finds is the function. -/
theorem shown_of_overriding :
    (after overriding).get? 1 "x" = some (.function 0) ∧
    ("x", .number 1) ∈ (after overriding).dataMembers 1 ∧
    ¬ ∀ changes id name value, (name, value) ∈ (after changes).dataMembers id ↔
      (after changes).get? id name = some value ∧ value.isFunction = false := by
  have found : (after overriding).get? 1 "x" = some (.function 0) := by
    rw [after_overriding]
    rfl
  have shown : ("x", .number 1) ∈ (after overriding).dataMembers 1 := by
    rw [mem_dataMembers_iff, after_overriding]
    rfl
  refine ⟨found, shown, fun visible => ?_⟩
  cases found.symm.trans ((visible overriding 1 "x" (.number 1)).mp shown).1

end Arena

end ScriptEngine
