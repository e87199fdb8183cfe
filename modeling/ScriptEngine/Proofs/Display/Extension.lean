import ScriptEngine.Proofs.Display.Datum
import ScriptEngine.Proofs.Display.Numbers
import ScriptEngine.Store.Operation

/-!
# Data stays what it is, and equal data is equal

New arrays and maps change no value that is in the store already. A datum whose numbers are read
back is equal to the datum itself, as the language compares values.

* `Store.extend`, `Store.Holds.extend`: new cells behind the others.
* `Datum.cells`: how many cells are entered on the way to the innermost part of a datum.
* `Datum.reread`: a datum with every number read back from its text.
* `Store.sameFrom_reread`: both are equal.
-/

namespace ScriptEngine

namespace Store

/-- The store with more arrays and maps behind those it has. -/
def extend (s : Store) (arrays : Array (Array Value)) (maps : Array (OrderedMap Value)) : Store :=
  { s with arrays := s.arrays ++ arrays, maps := s.maps ++ maps }

variable {s : Store} {arrays arrays' : Array (Array Value)} {maps maps' : Array (OrderedMap Value)}

theorem extend_empty : s.extend #[] #[] = s := by
  simp [extend]

theorem extend_extend : (s.extend arrays maps).extend arrays' maps' =
    s.extend (arrays ++ arrays') (maps ++ maps') := by
  simp [extend, Array.append_assoc]

theorem array_extend {id : ArrayId} (bound : id < s.arrays.size) :
    (s.extend arrays maps).array id = s.array id := by
  simp [array, extend, Array.getD_eq_getD_getElem?, Array.getElem?_append_left bound]

theorem map_extend {id : MapId} (bound : id < s.maps.size) :
    (s.extend arrays maps).map id = s.map id := by
  simp [map, extend, Array.getD_eq_getD_getElem?, Array.getElem?_append_left bound]

/-- A store in which the arrays and maps of another one are as they are there. -/
structure Keeps (s s' : Store) : Prop where
  arrays : ∀ id < s.arrays.size, id < s'.arrays.size ∧ s'.array id = s.array id
  maps : ∀ id < s.maps.size, id < s'.maps.size ∧ s'.map id = s.map id

theorem keeps_of_same {s' : Store} (sameArrays : s'.arrays = s.arrays) (sameMaps : s'.maps = s.maps) :
    s.Keeps s' := by
  refine ⟨fun id bound => ⟨sameArrays ▸ bound, ?_⟩, fun id bound => ⟨sameMaps ▸ bound, ?_⟩⟩
  · rw [array, sameArrays, array]
  · rw [map, sameMaps, map]

theorem keeps_extend : s.Keeps (s.extend arrays maps) := by
  refine ⟨fun id bound => ⟨?_, array_extend bound⟩, fun id bound => ⟨?_, map_extend bound⟩⟩
  · rw [extend, Array.size_append]
    omega
  · rw [extend, Array.size_append]
    omega

theorem Keeps.trans {s' s'' : Store} (h : s.Keeps s') (h' : s'.Keeps s'') : s.Keeps s'' := by
  refine ⟨fun id bound => ?_, fun id bound => ?_⟩
  · obtain ⟨bound', same⟩ := h.arrays id bound
    obtain ⟨bound'', same'⟩ := h'.arrays id bound'
    exact ⟨bound'', same'.trans same⟩
  · obtain ⟨bound', same⟩ := h.maps id bound
    obtain ⟨bound'', same'⟩ := h'.maps id bound'
    exact ⟨bound'', same'.trans same⟩

mutual

/-- A value stays the datum that it is. -/
theorem Holds.keeps {s s' : Store} (kept : s.Keeps s') {d : Datum} {v : Value}
    (holds : s.Holds d v) : s'.Holds d v := by
  match d with
  | .null | .unit | .bool _ | .number _ | .string _ => exact holds
  | .array items =>
    obtain ⟨id, rfl, bound, holds⟩ := holds
    obtain ⟨bound', same⟩ := kept.arrays id bound
    exact ⟨id, rfl, bound', same ▸ holds.keeps kept⟩
  | .tuple items =>
    obtain ⟨values, rfl, holds⟩ := holds
    exact ⟨values, rfl, holds.keeps kept⟩
  | .map entries =>
    obtain ⟨id, rfl, bound, holds⟩ := holds
    obtain ⟨bound', same⟩ := kept.maps id bound
    exact ⟨id, rfl, bound', same ▸ holds.keeps kept⟩

theorem HoldsAll.keeps {s s' : Store} (kept : s.Keeps s') {ds : List Datum} {values : List Value}
    (holds : s.HoldsAll ds values) : s'.HoldsAll ds values := by
  match ds with
  | [] => exact holds
  | d :: ds =>
    obtain ⟨v, rest, rfl, first, others⟩ := holds
    exact ⟨v, rest, rfl, first.keeps kept, others.keeps kept⟩

theorem HoldsEntries.keeps {s s' : Store} (kept : s.Keeps s') {entries : List (String × Datum)}
    {rows : List (String × Value)} (holds : s.HoldsEntries entries rows) :
    s'.HoldsEntries entries rows := by
  match entries with
  | [] => exact holds
  | (key, d) :: entries =>
    obtain ⟨v, rest, rfl, first, others⟩ := holds
    exact ⟨v, rest, rfl, first.keeps kept, others.keeps kept⟩

end

end Store

/-! ## Data read back -/

namespace Datum

mutual

/-- How many arrays and maps stand around the innermost part. -/
def cells : Datum → Nat
  | .null | .unit | .bool _ | .number _ | .string _ => 0
  | .array items => cellsOfAll items + 1
  | .tuple items => cellsOfAll items
  | .map entries => cellsOfEntries entries + 1

def cellsOfAll : List Datum → Nat
  | [] => 0
  | d :: ds => max d.cells (cellsOfAll ds)

def cellsOfEntries : List (String × Datum) → Nat
  | [] => 0
  | (_, d) :: entries => max d.cells (cellsOfEntries entries)

end

mutual

/-- A datum with every number read back from its text. -/
def reread : Datum → Datum
  | .null => .null
  | .unit => .unit
  | .bool b => .bool b
  | .number x => .number (Decimal.readBack x)
  | .string t => .string t
  | .array items => .array (rereadAll items)
  | .tuple items => .tuple (rereadAll items)
  | .map entries => .map (rereadEntries entries)

def rereadAll : List Datum → List Datum
  | [] => []
  | d :: ds => d.reread :: rereadAll ds

def rereadEntries : List (String × Datum) → List (String × Datum)
  | [] => []
  | (key, d) :: entries => (key, d.reread) :: rereadEntries entries

end

end Datum

/-! ## Equality -/

namespace Store

variable {s : Store}

theorem size_of_holdsEntries {entries : List (String × Datum)} {rows : List (String × Value)}
    (holds : s.HoldsEntries entries rows) : rows.length = entries.length := by
  induction entries generalizing rows with
  | nil =>
    obtain rfl : rows = [] := holds
    rfl
  | cons entry entries ih =>
    obtain ⟨v, rest, rfl, -, others⟩ := holds
    rw [List.length_cons, List.length_cons, ih others]

theorem length_rereadEntries (entries : List (String × Datum)) :
    (Datum.rereadEntries entries).length = entries.length := by
  induction entries with
  | nil => rfl
  | cons entry entries ih => rw [Datum.rereadEntries, List.length_cons, List.length_cons, ih]

/-- A map without a key twice finds each of its entries. -/
theorem find?_of_mem {entries : List (String × Datum)} {rows : List (String × Value)}
    (holds : s.HoldsEntries (Datum.rereadEntries entries) rows)
    (distinct : (entries.map (·.1)).Nodup) {key : String} {d : Datum} (mem : (key, d) ∈ entries) :
    ∃ v, rows.find? (fun row => row.1 == key) = some (key, v) ∧ s.Holds d.reread v := by
  induction entries generalizing rows with
  | nil => cases mem
  | cons entry entries ih =>
    obtain ⟨first, d'⟩ := entry
    obtain ⟨v, rest, rfl, held, others⟩ := holds
    rw [List.map_cons, List.nodup_cons] at distinct
    rcases List.mem_cons.mp mem with same | mem
    · obtain ⟨rfl, rfl⟩ := Prod.mk.inj same
      exact ⟨v, by simp, held⟩
    · obtain ⟨found, later, held'⟩ := ih others distinct.2 mem
      have other : first ≠ key := by
        rintro rfl
        exact distinct.1 (List.mem_map.mpr ⟨(first, d), mem, rfl⟩)
      exact ⟨found, by simp [other, later], held'⟩

mutual

/-- A datum and the datum read back are equal. -/
theorem sameFrom_reread {d : Datum} {v r : Value} {fuel : Nat} (holds : s.Holds d v)
    (holds' : s.Holds d.reread r) (readsBack : d.Numbers Decimal.ReadsBack) (regular : d.Regular)
    (enough : d.cells ≤ fuel) : s.sameFrom fuel v r = true := by
  match d with
  | .null | .unit | .bool _ | .string _ =>
    obtain rfl := holds
    obtain rfl := holds'
    simp [sameFrom]
  | .number x =>
    obtain rfl := holds
    obtain rfl := holds'
    rw [sameFrom]
    exact readsBack
  | .array items =>
    obtain ⟨id, rfl, -, holds⟩ := holds
    obtain ⟨id', rfl, -, holds'⟩ := holds'
    -- One unit of fuel goes with each cell. Tuples are no cells and take none.
    rw [Datum.cells] at enough
    obtain ⟨fuel, rfl⟩ := Nat.exists_eq_add_of_le' (Nat.le_trans (Nat.le_add_left 1 _) enough)
    have items := sameItems_reread holds holds' readsBack regular (Nat.le_of_succ_le_succ enough)
    rw [sameFrom, items, Bool.or_true]
  | .tuple items =>
    obtain ⟨values, rfl, holds⟩ := holds
    obtain ⟨values', rfl, holds'⟩ := holds'
    rw [sameFrom]
    exact sameItems_reread holds holds' readsBack regular.2 enough
  | .map entries =>
    obtain ⟨id, rfl, -, holds⟩ := holds
    obtain ⟨id', rfl, -, holds'⟩ := holds'
    rw [Datum.cells] at enough
    obtain ⟨fuel, rfl⟩ := Nat.exists_eq_add_of_le' (Nat.le_trans (Nat.le_add_left 1 _) enough)
    have size : (s.map id).size = (s.map id').size := by
      have length := size_of_holdsEntries holds
      have length' := size_of_holdsEntries holds'
      rw [length_rereadEntries, ← length] at length'
      exact length'.symm
    have found : ∀ key d, (key, d) ∈ entries →
        ∃ r, (s.map id').get? key = some r ∧ s.Holds d.reread r := by
      intro key d mem
      obtain ⟨r, found, held⟩ := find?_of_mem holds' regular.1 mem
      refine ⟨r, ?_, held⟩
      rw [Rows.get?, ← Array.find?_toList, ← Rows.entries, found]
      rfl
    have entries := sameEntries_reread holds found readsBack regular.2
      (Nat.le_of_succ_le_succ enough)
    rw [sameFrom, entries, size]
    simp

theorem sameItems_reread {ds : List Datum} {values values' : List Value} {fuel : Nat}
    (holds : s.HoldsAll ds values) (holds' : s.HoldsAll (Datum.rereadAll ds) values')
    (readsBack : Datum.NumbersOfAll Decimal.ReadsBack ds) (regular : Datum.RegularAll ds)
    (enough : Datum.cellsOfAll ds ≤ fuel) : s.sameItems fuel values values' = true := by
  match ds with
  | [] =>
    obtain rfl : values = [] := holds
    obtain rfl : values' = [] := holds'
    rw [sameItems]
  | d :: ds =>
    obtain ⟨v, rest, rfl, first, others⟩ := holds
    obtain ⟨r, rest', rfl, first', others'⟩ := holds'
    rw [Datum.cellsOfAll] at enough
    rw [sameItems, sameFrom_reread first first' readsBack.1 regular.1 (by omega),
      sameItems_reread others others' readsBack.2 regular.2 (by omega), Bool.and_true]

theorem sameEntries_reread {entries : List (String × Datum)} {rows : List (String × Value)}
    {other : OrderedMap Value} {fuel : Nat} (holds : s.HoldsEntries entries rows)
    (found : ∀ key d, (key, d) ∈ entries → ∃ r, other.get? key = some r ∧ s.Holds d.reread r)
    (readsBack : Datum.NumbersOfEntries Decimal.ReadsBack entries)
    (regular : Datum.RegularEntries entries) (enough : Datum.cellsOfEntries entries ≤ fuel) :
    s.sameEntries fuel rows other = true := by
  match entries with
  | [] =>
    obtain rfl : rows = [] := holds
    rw [sameEntries]
  | (key, d) :: entries =>
    obtain ⟨v, rest, rfl, first, others⟩ := holds
    obtain ⟨r, got, held⟩ := found key d List.mem_cons_self
    rw [Datum.cellsOfEntries] at enough
    rw [sameEntries, got]
    dsimp only
    rw [sameFrom_reread first held readsBack.1 regular.1 (by omega),
      sameEntries_reread others (fun key d mem => found key d (List.mem_cons_of_mem _ mem))
        readsBack.2 regular.2 (by omega), Bool.and_true]

end

end Store

end ScriptEngine
