import ScriptEngine.Proofs.Entity.Assignment
import ScriptEngine.Proofs.Store.Frames
import ScriptEngine.Store.Display

/-!
# Cells

What scripts can assign stands in cells: the slots of variables, the own members of entities, the items
of arrays and the entries of maps. A value that is put into a cell is found there, and in no other cell
anything changes.

* `Cell`, `Store.content`, `Store.put`: the cells, what they hold, and putting a value there.
* `Store.content_put_self`, `Store.content_put_of_ne`: a value is put into one cell.
* `Store.target`: the entity that a member is assigned to; `Store.content_target`: what it has is what is
  found under the name, and `Store.target_put`: it stays the same one.
* `Store.shows_put`, `Store.keyOf_put`: a key that does not show a map is the same when the map is written
  to.
-/

namespace ScriptEngine

namespace Arena

variable {a : Arena} {id holder : Nat} {name : String} {value : Value}

/-! ## The entity that a member is assigned to -/

theorem own?_define_of_apart {other : Nat} {key : String} (apart : ¬ (other = holder ∧ key = name)) :
    (a.define holder name value).own? other key = a.own? other key := by
  by_cases same : key = name
  · have differ : holder ≠ other := fun sameId => apart ⟨sameId.symm, same⟩
    rw [own?, own?, record?_define, if_neg differ]
  · exact own?_define_of_ne same other

theorem chain_eq_cons (inside : id < a.size) : ∃ rest, a.chain id = id :: rest := by
  obtain ⟨fuel, same⟩ := Nat.exists_eq_succ_of_ne_zero (Nat.ne_of_gt (Nat.zero_lt_of_lt inside))
  have there : a.record? id = some a.records[id] := Array.getElem?_eq_getElem inside
  rw [chain, same, chainFrom, there]
  exact ⟨_, rfl⟩

theorem own?_of_find? {found : Nat × Value} (h : a.find? id name = some found) :
    a.own? found.1 name = some found.2 := by
  obtain ⟨other, -, own⟩ := List.exists_of_findSome?_eq_some h
  obtain ⟨old, has, rfl⟩ := Option.map_eq_some_iff.mp own
  exact has

theorem own?_eq_none_of_find? (h : a.find? id name = none) : a.own? id name = none := by
  by_cases inside : id < a.size
  · obtain ⟨rest, way⟩ := chain_eq_cons inside
    rw [find?, way, List.findSome?_eq_none_iff] at h
    exact Option.map_eq_none_iff.mp (h id List.mem_cons_self)
  · rw [own?, record?, Array.getElem?_eq_none (Nat.le_of_not_lt inside)]
    rfl

/-- What the entity has that a member is assigned to is what is found under the name. -/
theorem own?_target : a.own? (a.target id name) name = a.get? id name := by
  rw [get?, target]
  cases found : a.find? id name with
  | none => exact own?_eq_none_of_find? found
  | some pair => exact own?_of_find? found

theorem target_lt_size (inside : id < a.size) : a.target id name < a.size := by
  rw [target]
  cases found : a.find? id name with
  | none => exact inside
  | some pair =>
    obtain ⟨record, there, -⟩ := Option.bind_eq_some_iff.mp (own?_of_find? found)
    exact (Array.getElem?_eq_some_iff.mp there).1

theorem lt_size_of_target (there : a.target id name < a.size) : id < a.size := by
  by_contra outside
  have itself : a.target id name = id := by
    rw [target, find?, chain_eq_nil_of_size_le (Nat.le_of_not_lt outside)]
    rfl
  exact outside (itself ▸ there)

/-- A member that has been assigned is found where it was assigned. -/
theorem find?_define_target (inside : id < a.size) :
    (a.define (a.target id name) name value).find? id name = some (a.target id name, value) := by
  have own : (a.define (a.target id name) name value).own? (a.target id name) name = some value := by
    rw [own?_define (target_lt_size inside), if_pos ⟨rfl, rfl⟩]
  rw [find?, chain_define]
  cases found : a.find? id name with
  | none =>
    have itself : a.target id name = id := by rw [target, found]
    obtain ⟨rest, way⟩ := chain_eq_cons inside
    rw [itself] at own ⊢
    rw [way, List.findSome?_cons, own]
    rfl
  | some pair =>
    have holds : a.target id name = pair.1 := by rw [target, found]
    obtain ⟨before, nearest, after, way, has, lack⟩ := List.findSome?_eq_some_iff.mp found
    have same : nearest = pair.1 := by
      obtain ⟨_, -, rfl⟩ := Option.map_eq_some_iff.mp has
      rfl
    refine List.findSome?_eq_some_iff.mpr ⟨before, nearest, after, way, ?_, fun other mem => ?_⟩
    · rw [same, ← holds, own]
      rfl
    · have apart : other ≠ a.target id name := by
        rintro rfl
        have none := lack _ mem
        rw [holds, own?_of_find? found] at none
        cases none
      rw [own?_define_of_apart fun both => apart both.1]
      exact lack other mem

theorem target_define (inside : id < a.size) :
    (a.define (a.target id name) name value).target id name = a.target id name := by
  rw [target, find?_define_target inside]

end Arena

/-- Something that holds one value. -/
inductive Cell
  | slot (id : SlotId)
  | member (entity : EntityRef) (name : String)
  | item (array : ArrayId) (index : Nat)
  | entry (map : MapId) (key : String)
deriving DecidableEq

/-- What has the cell is in the store. An entity has room for every member, and a map for every entry. -/
def Cell.There (s : Store) : Cell → Prop
  | .slot id => id < s.frames.slots.size
  | .member entity _ => entity.id < (s.arena entity.env).size
  | .item id index => index < (s.array id).size
  | .entry id _ => id < s.maps.size

namespace Store

variable {s : Store} {cell other : Cell} {value : Value}

/-- What a cell holds. -/
def content (s : Store) : Cell → Option Value
  | .slot id => s.frames.slots[id]?
  | .member entity name => (s.arena entity.env).own? entity.id name
  | .item id index => (s.array id)[index]?
  | .entry id key => (s.map id).get? key

/-- Puts a value into a cell. -/
def put (s : Store) (value : Value) : Cell → Store
  | .slot id => { s with frames := s.frames.write id value }
  | .member entity name => s.define entity name value
  | .item id index => s.modifyArray id (·.setIfInBounds index value)
  | .entry id key => s.modifyMap id (·.insert key value)

/-! ## One cell -/

/-- What a change makes of an item is all that matters of it. -/
theorem modify_eq_of_getD {α : Type} {items : Array α} {id : Nat} {f : α → α} {default value : α}
    (same : f (items.getD id default) = value) : items.modify id f = items.modify id fun _ => value := by
  refine Array.ext_getElem? fun other => ?_
  rw [Array.getElem?_modify, Array.getElem?_modify]
  split
  · next here =>
    subst here
    cases there : items[id]? with
    | none => rfl
    | some old =>
      rw [← same, Array.getD_eq_getD_getElem?, there]
      rfl
  · rfl

theorem array_modifyArray (id other : ArrayId) (f : Array Value → Array Value) :
    (s.modifyArray id f).array other =
      if id = other ∧ id < s.arrays.size then f (s.array other) else s.array other := by
  rw [array, array, modifyArray, Array.getD_eq_getD_getElem?, Array.getD_eq_getD_getElem?,
    Array.getElem?_modify]
  by_cases same : id = other
  · subst same
    by_cases inside : id < s.arrays.size
    · simp [inside]
    · simp [inside]
  · simp [same]

theorem map_modifyMap (id other : MapId) (f : OrderedMap Value → OrderedMap Value) :
    (s.modifyMap id f).map other =
      if id = other ∧ id < s.maps.size then f (s.map other) else s.map other := by
  rw [map, map, modifyMap, Array.getD_eq_getD_getElem?, Array.getD_eq_getD_getElem?,
    Array.getElem?_modify]
  by_cases same : id = other
  · subst same
    by_cases inside : id < s.maps.size
    · simp [inside]
    · simp [inside]
  · simp [same]

theorem lt_size_of_item {id : ArrayId} {index : Nat} (there : index < (s.array id).size) :
    id < s.arrays.size := by
  by_contra outside
  rw [array, Array.getD_eq_getD_getElem?, Array.getElem?_eq_none (Nat.le_of_not_lt outside)] at there
  exact absurd there (Nat.not_lt_zero index)

/-- The arrays keep their lengths. -/
theorem size_array_put (id : ArrayId) : ((s.put value cell).array id).size = (s.array id).size := by
  cases cell with
  | item other index =>
    rw [put, array_modifyArray]
    split
    · rw [Array.size_setIfInBounds]
    · rfl
  | _ => rfl

/-- What is put into a cell is there. -/
theorem content_put_self (there : cell.There s) : (s.put value cell).content cell = some value := by
  cases cell with
  | slot id =>
    show (s.frames.slots.setIfInBounds id value)[id]? = some value
    rw [Array.getElem?_setIfInBounds_self_of_lt there]
  | member entity name =>
    rw [put, content, arena_define, if_pos rfl, Arena.own?_define there, if_pos ⟨rfl, rfl⟩]
  | item id index =>
    rw [put, content, array_modifyArray, if_pos ⟨rfl, lt_size_of_item there⟩,
      Array.getElem?_setIfInBounds_self_of_lt there]
  | entry id key =>
    rw [put, content, map_modifyMap, if_pos ⟨rfl, there⟩, OrderedMap.get?_insert, if_pos rfl]

/-- Other cells hold what they held. -/
theorem content_put_of_ne (apart : other ≠ cell) :
    (s.put value cell).content other = s.content other := by
  cases cell with
  | slot id =>
    cases other with
    | slot id' =>
      have differ : id ≠ id' := fun same => apart (congrArg Cell.slot same.symm)
      exact Array.getElem?_setIfInBounds_ne differ
    | _ => rfl
  | member entity name =>
    cases other with
    | member entity' name' =>
      rw [put, content, content, arena_define]
      split
      · next sameEnv =>
        rw [Arena.own?_define_of_apart]
        rintro ⟨sameId, rfl⟩
        obtain ⟨env, id⟩ := entity
        obtain ⟨env', id'⟩ := entity'
        cases sameEnv
        cases sameId
        exact apart rfl
      · rfl
    | _ => rfl
  | item id index =>
    cases other with
    | item id' index' =>
      rw [put, content, content, array_modifyArray]
      split
      · next both =>
        obtain ⟨rfl, -⟩ := both
        have differ : index ≠ index' := fun same => apart (congrArg (Cell.item id) same.symm)
        exact Array.getElem?_setIfInBounds_ne differ
      · rfl
    | _ => rfl
  | entry id key =>
    cases other with
    | entry id' key' =>
      rw [put, content, content, map_modifyMap]
      split
      · next both =>
        obtain ⟨rfl, -⟩ := both
        rw [OrderedMap.get?_insert, if_neg fun same => apart (congrArg (Cell.entry id) same)]
      · rfl
    | _ => rfl

/-! ## Members -/

section

variable {entity : EntityRef} {name : String}

/-- The entity that a member of an entity is assigned to. -/
def target (s : Store) (entity : EntityRef) (name : String) : EntityRef :=
  ⟨entity.env, (s.arena entity.env).target entity.id name⟩

theorem setMember_eq : s.setMember entity name value =
    s.put value (.member (s.target entity name) name) := by
  show { s with arenas := s.arenas.modify entity.env _ } =
    { s with arenas := s.arenas.modify entity.env _ }
  congr 1
  refine Array.ext_getElem? fun env => ?_
  rw [Array.getElem?_modify, Array.getElem?_modify]
  split
  · next same =>
    subst same
    cases there : s.arenas[entity.env]? with
    | none => rfl
    | some arena =>
      have same : s.arena entity.env = arena := by
        rw [Store.arena, Array.getD_eq_getD_getElem?, there]
        rfl
      rw [Option.map_some, Option.map_some, Arena.set_eq, target, same]
  · rfl

/-- The cell that a member is assigned to holds what is found under the name. -/
theorem content_target : s.content (.member (s.target entity name) name) = s.member? entity name :=
  Arena.own?_target

theorem lt_size_of_target (there : (Cell.member (s.target entity name) name).There s) :
    entity.id < (s.arena entity.env).size :=
  Arena.lt_size_of_target there

/-- A member that has been assigned is assigned to the same entity again. -/
theorem target_put (inside : entity.id < (s.arena entity.env).size) :
    (s.put value (.member (s.target entity name) name)).target entity name = s.target entity name := by
  have sameEnv : (s.target entity name).env = entity.env := rfl
  rw [target, put, arena_define, if_pos sameEnv]
  exact congrArg _ (Arena.target_define inside)

end

/-! ## Keys -/

section

variable {id : MapId} {key : String}

/-- A value that does not show a map shows as before when the map is written to, and it still does not
show the map. -/
theorem shows_and_textOf_put {levels : Nat} {object : Value}
    (hidden : s.shows id levels object = false) :
    (s.put value (.entry id key)).shows id levels object = false ∧ ∀ nested,
      (s.put value (.entry id key)).textOf levels nested object = s.textOf levels nested object := by
  induction levels generalizing object with
  | zero => exact ⟨by simp [shows], by simp [textOf]⟩
  | succ levels ih =>
    have each {items : List Value} (hidden : items.any (s.shows id levels) = false) :
        items.any ((s.put value (.entry id key)).shows id levels) = false ∧
          items.map ((s.put value (.entry id key)).textOf levels true) =
            items.map (s.textOf levels true) := by
      rw [List.any_eq_false] at hidden ⊢
      simp only [Bool.not_eq_true] at hidden ⊢
      exact ⟨fun item mem => (ih (hidden item mem)).1,
        List.map_congr_left fun item mem => (ih (hidden item mem)).2 true⟩
    have rows {rows : List (String × Value)}
        (hidden : rows.any (fun row => s.shows id levels row.2) = false) :
        rows.any (fun row => (s.put value (.entry id key)).shows id levels row.2) = false ∧
          ∀ row ∈ rows, (s.put value (.entry id key)).textOf levels true row.2 =
            s.textOf levels true row.2 := by
      rw [List.any_eq_false] at hidden ⊢
      simp only [Bool.not_eq_true] at hidden ⊢
      exact ⟨fun row mem => (ih (hidden row mem)).1, fun row mem => (ih (hidden row mem)).2 true⟩
    cases object with
    | array other =>
      have items : (s.put value (.entry id key)).array other = s.array other := rfl
      rw [shows] at hidden
      simp only [shows, textOf, items, (each hidden).1, (each hidden).2, implies_true, and_self]
    | tuple items =>
      rw [shows] at hidden
      simp only [shows, textOf, (each hidden).1, (each hidden).2, implies_true, and_self]
    | map other =>
      rw [shows, Bool.or_eq_false_iff, beq_eq_false_iff_ne] at hidden
      have entries : (s.put value (.entry id key)).map other = s.map other := by
        rw [put, map_modifyMap, if_neg fun same => hidden.1 same.1.symm]
      obtain ⟨still, same⟩ := rows hidden.2
      rw [shows, entries, still, Bool.or_false, beq_eq_false_iff_ne]
      refine ⟨hidden.1, fun nested => ?_⟩
      rw [textOf, textOf, entries]
      split
      · rfl
      · congr 3
        exact List.map_congr_left fun row mem => by simp only [same row mem]
    | entity entity =>
      have members : (s.put value (.entry id key)).members entity = s.members entity := rfl
      rw [shows] at hidden
      obtain ⟨still, same⟩ := rows hidden
      rw [shows, members]
      refine ⟨still, fun nested => ?_⟩
      rw [textOf, textOf, members]
      congr 3
      exact List.map_congr_left fun row mem => by simp only [same row mem]
    | safe other =>
      have result : (s.put value (.entry id key)).captured other = s.captured other := rfl
      rw [shows] at hidden
      simp only [shows, textOf, result]
      cases captured : s.captured other with
      | ok inner =>
        rw [captured] at hidden
        exact ⟨(ih hidden).1, fun _ => by simp only [(ih hidden).2]⟩
      | error panic => exact ⟨rfl, fun _ => rfl⟩
    | string text => exact ⟨rfl, fun nested => by cases nested <;> rfl⟩
    | bool b => exact ⟨rfl, fun nested => by cases b <;> rfl⟩
    | _ => exact ⟨rfl, fun _ => rfl⟩

/-- So does the key that it stands for. -/
theorem shows_put {levels : Nat} {object : Value} (hidden : s.shows id levels object = false) :
    (s.put value (.entry id key)).shows id levels object = false :=
  (shows_and_textOf_put hidden).1

theorem keyOf_put {object : Value} (hidden : s.shows id shownLevels object = false) :
    (s.put value (.entry id key)).keyOf object = s.keyOf object :=
  (shows_and_textOf_put hidden).2 false

end

end Store

end ScriptEngine
