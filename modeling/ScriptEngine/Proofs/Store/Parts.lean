import Mathlib.Data.List.Nodup
import Mathlib.Data.List.Perm.Subperm
import Mathlib.Logic.Relation
import ScriptEngine.Proofs.Store.Entities
import ScriptEngine.Store.Marshal

/-!
# Parts of values

A value that no way down from it leads back to is nested in no more cells than there are.

* `Value.Acyclic`: no way down from a value leads round.
* `Value.Nested`: how many cells there are at most on the ways down from a value.
* `Value.nested_of_acyclic`: not more than there are cells, if no way leads round.
* `Store.Item`, `Store.Part`: what stands in arrays, tuples and maps, and what else data can stand in.
* `Store.among_items`, `Store.among_parts`: the cells of a store.
-/

namespace ScriptEngine

open Relation

namespace Value

variable {part : Value → Value → Prop} {v x : Value} {n : Nat}

/-- No way from a value to its parts, and theirs, leads round. -/
def Acyclic (part : Value → Value → Prop) (v : Value) : Prop :=
  ∀ x, ReflTransGen part x v → ¬ TransGen part x x

theorem acyclic_of_part (acyclic : Acyclic part v) (isPart : part x v) : Acyclic part x :=
  fun y within => acyclic y (within.tail isPart)

/-- Where every way down ends, none leads round. -/
theorem acyclic_of_acc (ends : Acc part v) : Acyclic part v := by
  intro x within round
  have endsBelow : Acc part x := by
    induction within with
    | refl => exact ends
    | tail _ isPart ih => exact ih (ends.inv isPart)
  have endsRound := endsBelow.transGen
  clear within endsBelow
  induction endsRound with
  | intro x _ ih => exact ih x round round

/-- On every way from a value to its parts there are fewer values than this that are no tuples. -/
inductive Nested (part : Value → Value → Prop) : Nat → Value → Prop
  | tuple {n : Nat} {items : List Value} : (∀ item ∈ items, Nested part n item) →
      Nested part n (.tuple items)
  | cell {n : Nat} {v : Value} : (∀ x, part x v → Nested part n x) → Nested part (n + 1) v

/-- The values that have parts are tuples or among some others. -/
structure Among (part : Value → Value → Prop) (cells : List Value) : Prop where
  cell : ∀ {x v : Value}, part x v → v ∈ cells ∨ ∃ items, v = .tuple items
  item : ∀ {x : Value} {items : List Value}, x ∈ items → part x (.tuple items)

theorem sizeOf_lt_tuple {items : List Value} (mem : x ∈ items) :
    sizeOf x < sizeOf (Value.tuple items) := by
  have smaller := List.sizeOf_lt_of_mem mem
  rw [Value.tuple.sizeOf_spec]
  omega

/-- Induction on a bound and, under the same bound, on what stands in tuples. -/
theorem levels {motive : Nat → Value → Prop}
    (step : ∀ n v, (∀ m < n, ∀ x, motive m x) →
      (∀ items, v = .tuple items → ∀ item ∈ items, motive n item) → motive n v)
    (n : Nat) (v : Value) : motive n v :=
  step n v (fun m _ x => levels step m x) fun _ _ item _ => levels step n item
termination_by (n, sizeOf v)
decreasing_by
  · exact .left _ _ ‹m < n›
  · rename_i same mem
    exact .right _ (same ▸ sizeOf_lt_tuple mem)

/-- The cells around a value are all different, so that no more stand around it than there are. -/
theorem nested_of_around {cells : List Value} (among : Among part cells) (n : Nat) (v : Value)
    {around : List Value} (distinct : around.Nodup) (known : around ⊆ cells)
    (within : ∀ cell ∈ around, TransGen part v cell) (acyclic : Acyclic part v)
    (room : cells.length < around.length + n) : Nested part n v := by
  induction n, v using levels generalizing around with
  | step n v below items =>
    by_cases isTuple : ∃ items, v = .tuple items
    · obtain ⟨parts, rfl⟩ := isTuple
      refine .tuple fun item mem => items parts rfl item mem distinct known ?_ ?_ room
      · exact fun cell mem' => .head (among.item mem) (within cell mem')
      · exact acyclic_of_part acyclic (among.item mem)
    · match n, room with
      | 0, room => exact absurd (distinct.subperm known).length_le (Nat.not_le_of_lt room)
      | n + 1, room =>
        refine .cell fun x isPart => ?_
        have isCell := (among.cell isPart).resolve_right isTuple
        have apart : v ∉ around := fun mem => acyclic v .refl (within v mem)
        have fewer : cells.length < (v :: around).length + n := by
          rw [List.length_cons]
          omega
        refine below n (Nat.lt_succ_self n) x (List.nodup_cons.mpr ⟨apart, distinct⟩)
          (List.cons_subset.mpr ⟨isCell, known⟩) ?_ (acyclic_of_part acyclic isPart) fewer
        intro cell mem
        rcases List.mem_cons.mp mem with rfl | mem
        · exact .single isPart
        · exact .head isPart (within cell mem)

/-- A value that no way leads round from is nested in no more cells than there are. -/
theorem nested_of_acyclic {cells : List Value} (among : Among part cells)
    (acyclic : Acyclic part v) : Nested part (cells.length + 1) v :=
  nested_of_around among _ v .nil (List.nil_subset _) (fun _ mem => nomatch mem) acyclic (by simp)

end Value

namespace Store

variable {s : Store} {x v : Value}

/-- A value stands in an array, in a tuple or under a key of a map. -/
inductive Item (s : Store) (x : Value) : Value → Prop
  | array {id : ArrayId} : x ∈ (s.array id).toList → Item s x (.array id)
  | tuple {items : List Value} : x ∈ items → Item s x (.tuple items)
  | map {id : MapId} {key : String} : (key, x) ∈ (s.map id).entries → Item s x (.map id)

/-- The cells that items stand in. -/
def containers (s : Store) : List Value :=
  (List.range s.arrays.size).map .array ++ (List.range s.maps.size).map .map

theorem length_containers (s : Store) :
    s.containers.length = s.arrays.size + s.maps.size := by
  simp [containers]

theorem lt_size_of_mem_array {id : ArrayId} (mem : x ∈ (s.array id).toList) :
    id < s.arrays.size := by
  refine Nat.lt_of_not_le fun beyond => ?_
  rw [array, Array.getD, dif_neg (Nat.not_lt_of_le beyond)] at mem
  cases mem

theorem lt_size_of_mem_map {id : MapId} {entry : String × Value}
    (mem : entry ∈ (s.map id).entries) : id < s.maps.size := by
  refine Nat.lt_of_not_le fun beyond => ?_
  rw [map, Array.getD, dif_neg (Nat.not_lt_of_le beyond)] at mem
  cases mem

theorem mem_containers_of_item (item : s.Item x v) :
    v ∈ s.containers ∨ ∃ items, v = .tuple items := by
  cases item with
  | array mem =>
    have inside := List.mem_range.mpr (lt_size_of_mem_array mem)
    exact .inl (List.mem_append_left _ (List.mem_map_of_mem inside))
  | tuple mem => exact .inr ⟨_, rfl⟩
  | map mem =>
    have inside := List.mem_range.mpr (lt_size_of_mem_map mem)
    exact .inl (List.mem_append_right _ (List.mem_map_of_mem inside))

theorem among_items (s : Store) : Value.Among s.Item s.containers :=
  ⟨mem_containers_of_item, .tuple⟩

/-- A value is an item, what has been captured, or data of an entity without a host object. -/
inductive Part (s : Store) (x : Value) : Value → Prop
  | item {v : Value} : s.Item x v → Part s x v
  | safe {id : SafeId} : s.safes[id]? = some (.ok x) → Part s x (.safe id)
  | member {entity : EntityRef} {name : String} : s.entityHost? entity = none →
      (name, x) ∈ (s.arena entity.env).dataMembers entity.id → Part s x (.entity entity)

/-- The cells that parts stand in. -/
def holders (s : Store) : List Value :=
  s.containers ++ (List.range s.safes.size).map .safe ++
    (List.range s.arenas.size).flatMap fun env =>
      (List.range (s.arena env).size).map fun id => .entity ⟨env, id⟩

theorem length_holders (s : Store) : s.holders.length = s.cellCount := by
  have arenas : (List.range s.arenas.size).map (fun env => (s.arena env).size) =
      s.arenas.toList.map Arena.size := by
    refine List.ext_getElem (by simp) fun env inside _ => ?_
    have there : env < s.arenas.size := by simpa using inside
    simp [arena, Array.getD, there]
  have total : s.arenas.foldl (fun n arena => n + arena.size) 0 =
      (s.arenas.toList.map Arena.size).sum := by
    rw [← Array.foldl_toList, List.sum_eq_foldl, List.foldl_map]
  rw [holders, List.length_append, List.length_append, length_containers, List.length_map,
    List.length_range, List.length_flatMap, cellCount, total, ← arenas]
  simp only [List.length_map, List.length_range]

/-- An entity that shows something is there. -/
theorem entity_there {entity : EntityRef} {member : String × Value}
    (mem : member ∈ (s.arena entity.env).dataMembers entity.id) :
    entity.env < s.arenas.size ∧ entity.id < (s.arena entity.env).size := by
  have inside : entity.id < (s.arena entity.env).size := by
    refine Nat.lt_of_not_le fun beyond => ?_
    rw [Arena.dataMembers, Arena.chain_eq_nil_of_size_le beyond] at mem
    cases mem
  refine ⟨Nat.lt_of_not_le fun beyond => ?_, inside⟩
  rw [arena, Array.getD, dif_neg (Nat.not_lt_of_le beyond)] at inside
  cases inside

theorem mem_holders_of_part (isPart : s.Part x v) :
    v ∈ s.holders ∨ ∃ items, v = .tuple items := by
  cases isPart with
  | item item =>
    refine (mem_containers_of_item item).imp_left fun mem => ?_
    exact List.mem_append_left _ (List.mem_append_left _ mem)
  | safe captured =>
    have inside := List.mem_range.mpr (Array.getElem?_eq_some_iff.mp captured).1
    exact .inl (List.mem_append_left _ (List.mem_append_right _ (List.mem_map_of_mem inside)))
  | @member entity _ _ mem =>
    obtain ⟨env, inside⟩ := entity_there mem
    refine .inl (List.mem_append_right _ (List.mem_flatMap.mpr ⟨entity.env, ?_, ?_⟩))
    · exact List.mem_range.mpr env
    · exact List.mem_map.mpr ⟨entity.id, List.mem_range.mpr inside, rfl⟩

theorem among_parts (s : Store) : Value.Among s.Part s.holders :=
  ⟨mem_holders_of_part, fun mem => .item (.tuple mem)⟩

end Store

end ScriptEngine
