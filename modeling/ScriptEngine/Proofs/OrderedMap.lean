import Mathlib.Data.List.Induction
import Mathlib.Data.List.Nodup
import ScriptEngine.OrderedMap

/-!
# Keys of rows and of ordered maps

Rows are written to at the first row of a key. In a map there is no other one.

A map that was empty at first is told by the changes of it, earliest first: a key has the value that was
inserted last and not taken out since, and the keys stand in the order in which they came in.

* `Rows.entries_insert`, `Rows.entries_insert_of_position?`: where a value is put.
* `Rows.keys_insert`, `Rows.keys_erase`: what becomes of the keys.
* `Rows.get?_insert`: what keys stand for when one is given another value.
* `OrderedMap.nodup_keys`: a map never has a key twice.
* `OrderedMap.entries_insert`, `OrderedMap.entries_insert_of_mem`: where a value is put.
* `OrderedMap.get?_eq_some_iff`: what a key stands for is in its entry.
* `OrderedMap.entries_erase`, `OrderedMap.get?_erase`: what is left without a key.
* `OrderedMap.get?_ofList`: what keys stand for in the map of a list.
* `OrderedMap.entries_ofList`: the map of a list of distinct keys has that list's entries.
* `OrderedMap.Change`, `OrderedMap.after`: changes, and the map after them.
* `OrderedMap.Holds`, `OrderedMap.EnteredAt`: the value that the changes give a key, and the change by
  which the key came in.
* `OrderedMap.Lists`, `OrderedMap.Lists.unique`: the entries that the changes leave.
* `OrderedMap.follows_history`: the map has these, and a change does to it what it has to.
-/

namespace ScriptEngine

/-! ## Rows -/

namespace Rows

variable {α : Type} {rows : Rows α} {key : String}

theorem position?_eq_none_iff : rows.position? key = none ↔ key ∉ rows.keys := by
  rw [position?, Array.findIdx?_eq_none_iff, keys, List.mem_map, not_exists]
  constructor
  · rintro none row ⟨mem, same⟩
    exact ne_of_beq_false (none row (Array.mem_toList_iff.mp mem)) same
  · intro none row mem
    exact beq_false_of_ne fun same => none row ⟨Array.mem_toList_iff.mpr mem, same⟩

/-- A key that is not there yet comes last. -/
theorem entries_insert (value : α) (new : key ∉ rows.keys) :
    (rows.insert key value).entries = rows.entries ++ [(key, value)] := by
  rw [insert, position?_eq_none_iff.mpr new]
  exact Array.toList_push

/-- A key that is there gets another value in its first place. -/
theorem entries_insert_of_position? {position : Nat} (value : α)
    (found : rows.position? key = some position) :
    (rows.insert key value).entries = rows.entries.set position (key, value) := by
  rw [insert, found]
  exact Array.toList_setIfInBounds ..

theorem key_of_position? {position : Nat} (found : rows.position? key = some position) :
    rows.entries[position]?.map (·.1) = some key := by
  obtain ⟨bound, same, -⟩ := Array.findIdx?_eq_some_iff_getElem.mp found
  have there : rows.array[position].1 = key := by simpa using same
  rw [entries, Array.getElem?_toList, Array.getElem?_eq_getElem bound, Option.map_some, there]

/-- So it stays where it is. -/
theorem keys_insert_of_position? {position : Nat} (value : α)
    (found : rows.position? key = some position) : (rows.insert key value).keys = rows.keys := by
  rw [keys, keys, entries_insert_of_position? value found, List.map_set]
  have isKey := List.getElem?_map.trans (key_of_position? found)
  obtain ⟨bound, there⟩ := List.getElem?_eq_some_iff.mp isKey
  exact there ▸ List.set_getElem_self bound

/-- Only a new key changes the keys. -/
theorem keys_insert (value : α) : (rows.insert key value).keys =
    if key ∈ rows.keys then rows.keys else rows.keys ++ [key] := by
  cases found : rows.position? key with
  | none =>
    have new := position?_eq_none_iff.mp found
    rw [if_neg new, keys, entries_insert value new, List.map_append]
    rfl
  | some position =>
    have old : key ∈ rows.keys := by
      by_contra new
      cases found.symm.trans (position?_eq_none_iff.mpr new)
    rw [if_pos old, keys_insert_of_position? value found]

/-- The first row of a key is taken out. -/
theorem entries_erase : (rows.erase key).entries = rows.entries.eraseP fun row => row.1 == key := by
  have there : rows.position? key = rows.entries.findIdx? fun row => row.1 == key :=
    (List.findIdx?_toArray _ _)
  rw [List.eraseP_eq_eraseIdx, ← there, erase]
  cases rows.position? key with
  | none => rfl
  | some position => exact Array.toList_eraseIdxIfInBounds ..

theorem keys_erase : (rows.erase key).keys = rows.keys.erase key := by
  rw [keys, entries_erase, List.erase_eq_eraseP', keys, List.eraseP_map]
  rfl

/-- A row in the place of the first one of its key. -/
theorem find?_set_of_findIdx? {rows : List (String × α)} {position : Nat} (value : α)
    (found : (rows.findIdx? fun row => row.1 == key) = some position) (other : String) :
    ((rows.set position (key, value)).find? fun row => row.1 == other) =
      if other = key then some (key, value) else rows.find? fun row => row.1 == other := by
  induction rows generalizing position with
  | nil => cases found
  | cons row rows ih =>
    rw [List.findIdx?_cons] at found
    split at found
    · next isKey =>
      obtain rfl := Option.some.inj found
      obtain rfl : row.1 = key := beq_iff_eq.mp isKey
      by_cases same : other = row.1
      · simp [same]
      · simp [same, Ne.symm same]
    · next notKey =>
      obtain ⟨before, first, rfl⟩ := Option.map_eq_some_iff.mp found
      rw [List.set_cons_succ, List.find?_cons, List.find?_cons, ih first]
      by_cases there : row.1 = other
      · subst there
        have differs : row.1 ≠ key := fun same => notKey (beq_iff_eq.mpr same)
        simp [differs]
      · rw [beq_false_of_ne there]

/-- A key stands for the value that was inserted last. -/
theorem get?_insert (rows : Rows α) (key other : String) (value : α) :
    (rows.insert key value).get? other = if other = key then some value else rows.get? other := by
  rw [get?, get?, ← Array.find?_toList, ← Array.find?_toList, ← entries, ← entries]
  cases found : rows.position? key with
  | none =>
    have absent := position?_eq_none_iff.mp found
    rw [entries_insert value absent, List.find?_append]
    by_cases same : other = key
    · subst same
      have none : (rows.entries.find? fun row => row.1 == other) = none :=
        List.find?_eq_none.mpr fun row mem isKey =>
          absent (List.mem_map.mpr ⟨row, mem, beq_iff_eq.mp isKey⟩)
      simp [none]
    · simp [same, Ne.symm same]
  | some position =>
    have there : (rows.entries.findIdx? fun row => row.1 == key) = some position :=
      (List.findIdx?_toArray _ _).symm.trans found
    rw [entries_insert_of_position? value found, find?_set_of_findIdx? value there]
    split <;> rfl

theorem contains_iff : rows.contains key = true ↔ key ∈ rows.keys := by
  rw [contains, get?, Option.isSome_map, ← Array.find?_toList, List.find?_isSome, keys, List.mem_map]
  exact exists_congr fun row => and_congr_right fun _ => beq_iff_eq

end Rows

/-! ## Maps -/

namespace OrderedMap

variable {α : Type} {m : OrderedMap α} {key : String}

/-- A map never has a key twice. -/
theorem nodup_keys (m : OrderedMap α) : (m.entries.map (·.1)).Nodup := m.distinct

theorem length_keys (m : OrderedMap α) : m.keys.length = m.size := by
  rw [Rows.keys, Rows.entries, List.length_map, Array.length_toList, Rows.size]

/-- A key that is not there yet comes last. -/
theorem entries_insert (value : α) (new : key ∉ m.entries.map (·.1)) :
    (m.insert key value).entries = m.entries ++ [(key, value)] :=
  Rows.entries_insert value new

/-- Among rows of distinct keys, one is replaced as the only one of its key. -/
theorem set_eq_map {rows : List (String × α)} {position : Nat} (value : α)
    (distinct : (rows.map (·.1)).Nodup) (there : rows[position]?.map (·.1) = some key) :
    rows.set position (key, value) =
      rows.map fun row => if row.1 = key then (key, value) else row := by
  induction rows generalizing position with
  | nil => cases there
  | cons row rows ih =>
    obtain ⟨new, distinct⟩ := List.nodup_cons.mp distinct
    cases position with
    | zero =>
      obtain rfl : row.1 = key := Option.some.inj there
      have others : ∀ other ∈ rows, other.1 ≠ row.1 := fun other mem same =>
        new (List.mem_map.mpr ⟨other, mem, same⟩)
      rw [List.set_cons_zero, List.map_cons, if_pos rfl,
        List.map_congr_left fun other mem => if_neg (others other mem), List.map_id']
    | succ position =>
      have there : rows[position]?.map (·.1) = some key := there
      have apart : row.1 ≠ key := by
        rintro rfl
        obtain ⟨other, found, same⟩ := Option.map_eq_some_iff.mp there
        exact new (List.mem_map.mpr ⟨other, List.mem_of_getElem? found, same⟩)
      rw [List.set_cons_succ, List.map_cons, if_neg apart, ih distinct there]

/-- A key that is there keeps its place. -/
theorem entries_insert_of_mem (value : α) (old : key ∈ m.keys) :
    (m.insert key value).entries =
      m.entries.map fun row => if row.1 = key then (key, value) else row := by
  cases found : m.position? key with
  | none => exact absurd old (Rows.position?_eq_none_iff.mp found)
  | some position =>
    exact (Rows.entries_insert_of_position? value found).trans
      (set_eq_map value m.nodup_keys (Rows.key_of_position? found))

/-- Among rows of distinct keys, what is found under a key is in the only row of that key. -/
theorem find?_eq_some_iff {rows : List (String × α)} {value : α}
    (distinct : (rows.map (·.1)).Nodup) :
    (rows.find? fun row => row.1 == key).map (·.2) = some value ↔ (key, value) ∈ rows := by
  rw [Option.map_eq_some_iff]
  constructor
  · rintro ⟨⟨other, _⟩, found, rfl⟩
    obtain rfl : other = key := by simpa using List.find?_some found
    exact List.mem_of_find?_eq_some found
  · intro mem
    have there : (rows.find? fun row => row.1 == key).isSome :=
      List.find?_isSome.mpr ⟨(key, value), mem, beq_self_eq_true key⟩
    obtain ⟨row, found⟩ := Option.isSome_iff_exists.mp there
    have same : row.1 = key := by simpa using List.find?_some found
    have isRow := List.inj_on_of_nodup_map distinct (List.mem_of_find?_eq_some found) mem same
    exact ⟨row, found, by rw [isRow]⟩

/-- What a key stands for is in its entry, the only one of that key. -/
theorem get?_eq_some_iff {value : α} : m.get? key = some value ↔ (key, value) ∈ m.entries := by
  rw [Rows.get?, ← Array.find?_toList]
  exact find?_eq_some_iff m.nodup_keys

/-- Maps of the same keys have as many entries. -/
theorem size_eq_of_contains {m' : OrderedMap α}
    (keys : ∀ key, m.contains key = m'.contains key) : m.size = m'.size := by
  rw [← length_keys, ← length_keys]
  refine ((List.perm_ext_iff_of_nodup m.distinct m'.distinct).mpr fun key => ?_).length_eq
  rw [← Rows.contains_iff, ← Rows.contains_iff, keys]

/-- A key stands for the value that was inserted last. -/
theorem get?_insert (m : OrderedMap α) (key other : String) (value : α) :
    (m.insert key value).get? other = if other = key then some value else m.get? other :=
  Rows.get?_insert m.toRows key other value

/-- Without a key the other entries stand as before. -/
theorem entries_erase : (m.erase key).entries = m.entries.filter fun row => row.1 != key := by
  refine Rows.entries_erase.trans ?_
  have distinct := m.nodup_keys
  generalize m.entries = rows at distinct
  induction rows with
  | nil => rfl
  | cons row rows ih =>
    obtain ⟨new, distinct⟩ := List.nodup_cons.mp distinct
    by_cases same : row.1 = key
    · have others : ∀ other ∈ rows, (other.1 != key) = true := fun other mem =>
        bne_iff_ne.mpr fun eq => new (List.mem_map.mpr ⟨other, mem, eq.trans same.symm⟩)
      rw [List.filter_cons_of_neg (by simp [same]), List.filter_eq_self.mpr others]
      exact List.eraseP_cons_of_pos (beq_iff_eq.mpr same)
    · rw [List.filter_cons_of_pos (by simp [same]), ← ih distinct]
      exact List.eraseP_cons_of_neg (by simp [same])

theorem get?_erase (m : OrderedMap α) (key other : String) :
    (m.erase key).get? other = if other = key then none else m.get? other := by
  refine Option.ext fun value => ?_
  rw [get?_eq_some_iff, entries_erase, List.mem_filter]
  split
  · next same => simp [same]
  · next apart => rw [get?_eq_some_iff, and_iff_left (bne_iff_ne.mpr apart)]

/-! ## Maps of lists -/

theorem get?_foldl_insert (entries : List (String × α)) (m : OrderedMap α) (key : String) :
    (entries.foldl (fun m entry => m.insert entry.1 entry.2) m).get? key =
      ((entries.reverse.find? fun row => row.1 == key).map (·.2)).or (m.get? key) := by
  induction entries generalizing m with
  | nil => rfl
  | cons entry entries ih =>
    rw [List.foldl_cons, ih, get?_insert, List.reverse_cons, List.find?_append]
    cases entries.reverse.find? fun row => row.1 == key with
    | some row => rfl
    | none =>
      by_cases same : key = entry.1
      · simp [same]
      · simp [same, Ne.symm same]

/-- In the map of a list, a key stands for the value that comes last. -/
theorem get?_ofList (entries : List (String × α)) (key : String) :
    (ofList entries).get? key = (entries.reverse.find? fun row => row.1 == key).map (·.2) :=
  (get?_foldl_insert entries empty key).trans (Option.or_none ..)

theorem entries_foldl_insert (entries : List (String × α)) (m : OrderedMap α)
    (distinct : (m.entries.map (·.1) ++ entries.map (·.1)).Nodup) :
    (entries.foldl (fun m entry => m.insert entry.1 entry.2) m).entries = m.entries ++ entries := by
  induction entries generalizing m with
  | nil => exact (List.append_nil _).symm
  | cons entry entries ih =>
    have new : entry.1 ∉ m.entries.map (·.1) := fun mem =>
      List.disjoint_of_nodup_append distinct mem List.mem_cons_self
    have later := entries_insert entry.2 new
    rw [List.foldl_cons, ih, later, List.append_assoc, List.singleton_append]
    rwa [later, List.map_append, List.append_assoc]

/-- In the map of a list of distinct keys the entries stand as in the list. -/
theorem entries_ofList {entries : List (String × α)} (distinct : (entries.map (·.1)).Nodup) :
    (ofList entries).entries = entries :=
  entries_foldl_insert entries empty distinct

end OrderedMap

/-! ## Changes -/

namespace OrderedMap

variable {α : Type}

/-- A change of a map. -/
inductive Change (α : Type)
  | insert (key : String) (value : α)
  | erase (key : String)

/-- The key that a change is about. -/
def Change.key : Change α → String
  | .insert key _ | .erase key => key

/-- The map after a change. -/
def apply (m : OrderedMap α) : Change α → OrderedMap α
  | .insert key value => m.insert key value
  | .erase key => m.erase key

/-- The map after some changes of the empty one. -/
def after (history : List (Change α)) : OrderedMap α := history.foldl apply empty

theorem after_concat (history : List (Change α)) (change : Change α) :
    after (history ++ [change]) = (after history).apply change := by
  rw [after, after, List.foldl_append]
  rfl

/-- Entries are inserted one after another. -/
theorem ofList_eq_after (entries : List (String × α)) :
    ofList entries = after (entries.map fun entry => .insert entry.1 entry.2) := by
  rw [ofList, after, List.foldl_map]
  rfl

/-! ## Values -/

variable {history : List (Change α)} {change : Change α} {key : String} {value : α} {n : Nat}

/-- The value of a key: that of its last insertion, behind which there is no change of the key. -/
def Holds (history : List (Change α)) (key : String) (value : α) : Prop :=
  ∃ earlier later, history = earlier ++ .insert key value :: later ∧
    ∀ change ∈ later, change.key ≠ key

theorem not_holds_nil : ¬ Holds [] key value := by
  rintro ⟨earlier, later, same, -⟩
  exact List.append_ne_nil_of_right_ne_nil earlier (List.cons_ne_nil _ later) same.symm

/-- A change that stands in a history with one more behind it is that one, or stands in the history. -/
theorem concat_eq_append_cons {history earlier later : List (Change α)} {change other : Change α} :
    history ++ [change] = earlier ++ other :: later ↔
      (later = [] ∧ history = earlier ∧ change = other) ∨
      ∃ rest, later = rest ++ [change] ∧ history = earlier ++ other :: rest := by
  constructor
  · intro same
    rcases List.eq_nil_or_concat later with rfl | ⟨rest, last, rfl⟩
    · obtain ⟨front, back⟩ := List.append_inj' same rfl
      exact .inl ⟨rfl, front, (List.cons.inj back).1⟩
    · rw [List.concat_eq_append, ← List.cons_append, ← List.append_assoc] at same
      obtain ⟨front, back⟩ := List.append_inj' same rfl
      rw [(List.cons.inj back).1]
      exact .inr ⟨rest, List.concat_eq_append, front⟩
  · rintro (⟨rfl, rfl, rfl⟩ | ⟨rest, rfl, rfl⟩)
    · rfl
    · rw [List.append_assoc, List.cons_append]

theorem holds_concat : Holds (history ++ [change]) key value ↔
    change = .insert key value ∨ change.key ≠ key ∧ Holds history key value := by
  constructor
  · rintro ⟨earlier, later, same, untouched⟩
    rcases concat_eq_append_cons.mp same with ⟨rfl, -, rfl⟩ | ⟨rest, rfl, rfl⟩
    · exact .inl rfl
    · refine .inr ⟨untouched change (List.mem_append_right _ List.mem_cons_self), _, _, rfl, ?_⟩
      exact fun other mem => untouched other (List.mem_append_left _ mem)
  · rintro (rfl | ⟨other, earlier, later, rfl, untouched⟩)
    · exact ⟨history, [], rfl, nofun⟩
    · refine ⟨earlier, later ++ [change], by rw [List.append_assoc, List.cons_append], ?_⟩
      intro next mem
      rcases List.mem_append.mp mem with mem | mem
      · exact untouched next mem
      · exact List.mem_singleton.mp mem ▸ other

theorem get?_apply (m : OrderedMap α) (change : Change α) (key : String) (value : α) :
    (m.apply change).get? key = some value ↔
      change = .insert key value ∨ change.key ≠ key ∧ m.get? key = some value := by
  cases change with
  | insert other new =>
    show (m.insert other new).get? key = some value ↔ _ ∨ other ≠ key ∧ _
    rw [get?_insert]
    by_cases same : key = other
    · subst same
      simp
    · simp [same, Ne.symm same]
  | erase other =>
    show (m.erase other).get? key = some value ↔ _ ∨ other ≠ key ∧ _
    rw [get?_erase]
    by_cases same : key = other
    · simp [same]
    · simp [same, Ne.symm same]

/-- A key has the value of its last insertion. -/
theorem get?_after (history : List (Change α)) (key : String) (value : α) :
    (after history).get? key = some value ↔ Holds history key value := by
  induction history using List.reverseRecOn with
  | nil => exact iff_of_false nofun not_holds_nil
  | append_singleton history change ih => rw [after_concat, get?_apply, ih, holds_concat]

theorem mem_keys_after : key ∈ (after history).keys ↔ ∃ value, Holds history key value := by
  rw [← Rows.contains_iff, Rows.contains, Option.isSome_iff_exists]
  exact exists_congr fun value => get?_after history key value

/-! ## Order -/

/-- The place among the changes where a key was inserted that was not there, and has been there since. -/
def EnteredAt (history : List (Change α)) (key : String) (n : Nat) : Prop :=
  ∃ value earlier later, history = earlier ++ .insert key value :: later ∧ earlier.length = n ∧
    (∀ value, ¬ Holds earlier key value) ∧ .erase key ∉ later

theorem enteredAt_concat : EnteredAt (history ++ [change]) key n ↔
    (∃ value, change = .insert key value ∧ n = history.length ∧
      ∀ value, ¬ Holds history key value) ∨
    change ≠ .erase key ∧ EnteredAt history key n := by
  constructor
  · rintro ⟨value, earlier, later, same, rfl, absent, kept⟩
    rcases concat_eq_append_cons.mp same with ⟨rfl, rfl, rfl⟩ | ⟨rest, rfl, rfl⟩
    · exact .inl ⟨value, rfl, rfl, absent⟩
    · refine .inr ⟨?_, value, earlier, rest, rfl, rfl, absent, ?_⟩
      · rintro rfl
        exact kept (List.mem_append_right _ List.mem_cons_self)
      · exact fun mem => kept (List.mem_append_left _ mem)
  · rintro (⟨value, rfl, rfl, absent⟩ | ⟨other, value, earlier, later, rfl, rfl, absent, kept⟩)
    · exact ⟨value, history, [], rfl, rfl, absent, List.not_mem_nil⟩
    · refine ⟨value, earlier, later ++ [change], by rw [List.append_assoc, List.cons_append], rfl,
        absent, fun mem => ?_⟩
      rcases List.mem_append.mp mem with mem | mem
      · exact kept mem
      · exact other (List.mem_singleton.mp mem).symm

theorem not_enteredAt_nil : ¬ EnteredAt ([] : List (Change α)) key n := by
  rintro ⟨value, earlier, later, same, -⟩
  exact List.append_ne_nil_of_right_ne_nil earlier (List.cons_ne_nil _ later) same.symm

theorem enteredAt_lt (entered : EnteredAt history key n) : n < history.length := by
  obtain ⟨value, earlier, later, rfl, rfl, -⟩ := entered
  rw [List.length_append, List.length_cons]
  omega

/-- A key that is there has come in by a change. -/
theorem mem_keys_iff_enteredAt : key ∈ (after history).keys ↔ ∃ n, EnteredAt history key n := by
  induction history using List.reverseRecOn with
  | nil => exact iff_of_false List.not_mem_nil fun ⟨n, entered⟩ => not_enteredAt_nil entered
  | append_singleton history change ih =>
    rw [mem_keys_after]
    simp only [holds_concat, enteredAt_concat]
    constructor
    · rintro ⟨value, rfl | ⟨other, holds⟩⟩
      · by_cases present : key ∈ (after history).keys
        · obtain ⟨n, entered⟩ := ih.mp present
          exact ⟨n, .inr ⟨nofun, entered⟩⟩
        · refine ⟨history.length, .inl ⟨value, rfl, rfl, fun value holds => ?_⟩⟩
          exact present (mem_keys_after.mpr ⟨value, holds⟩)
      · obtain ⟨n, entered⟩ := ih.mp (mem_keys_after.mpr ⟨value, holds⟩)
        exact ⟨n, .inr ⟨fun same => other (congrArg Change.key same), entered⟩⟩
    · rintro ⟨n, ⟨value, rfl, -⟩ | ⟨other, entered⟩⟩
      · exact ⟨value, .inl rfl⟩
      · obtain ⟨value, holds⟩ := mem_keys_after.mp (ih.mpr ⟨n, entered⟩)
        cases change with
        | insert changed new =>
          by_cases same : changed = key
          · exact ⟨new, .inl (same ▸ rfl)⟩
          · exact ⟨value, .inr ⟨same, holds⟩⟩
        | erase changed => exact ⟨value, .inr ⟨fun same => other (congrArg _ same), holds⟩⟩

/-- What is there already does not come in again. -/
theorem enteredAt_of_concat (present : key ∈ (after history).keys)
    (entered : EnteredAt (history ++ [change]) key n) : EnteredAt history key n := by
  rcases enteredAt_concat.mp entered with ⟨value, -, -, absent⟩ | ⟨-, entered⟩
  · obtain ⟨value, holds⟩ := mem_keys_after.mp present
    exact absurd holds (absent value)
  · exact entered

theorem enteredAt_unique {n' : Nat} (entered : EnteredAt history key n)
    (entered' : EnteredAt history key n') : n = n' := by
  induction history using List.reverseRecOn with
  | nil => exact absurd entered not_enteredAt_nil
  | append_singleton history change ih =>
    by_cases present : key ∈ (after history).keys
    · exact ih (enteredAt_of_concat present entered) (enteredAt_of_concat present entered')
    · have last {n : Nat} (entered : EnteredAt (history ++ [change]) key n) :
          n = history.length := by
        rcases enteredAt_concat.mp entered with ⟨value, -, last, -⟩ | ⟨-, before⟩
        · exact last
        · exact absurd (mem_keys_iff_enteredAt.mpr ⟨n, before⟩) present
      rw [last entered, last entered']

/-- The keys stand in the order in which they came in. -/
theorem pairwise_keys_after (history : List (Change α)) :
    (after history).keys.Pairwise fun first second =>
      ∀ n n', EnteredAt history first n → EnteredAt history second n' → n < n' := by
  induction history using List.reverseRecOn with
  | nil => exact .nil
  | append_singleton history change ih =>
    have kept : (after history).keys.Pairwise fun first second => ∀ n n',
        EnteredAt (history ++ [change]) first n → EnteredAt (history ++ [change]) second n' →
          n < n' :=
      ih.imp_of_mem fun mem mem' before n n' entered entered' =>
        before n n' (enteredAt_of_concat mem entered) (enteredAt_of_concat mem' entered')
    rw [after_concat]
    cases change with
    | erase key =>
      have keys : ((after history).erase key).keys.Sublist (after history).keys := by
        rw [show ((after history).erase key).keys = _ from Rows.keys_erase]
        exact List.erase_sublist
      exact kept.sublist keys
    | insert key value =>
      show ((after history).insert key value).keys.Pairwise _
      rw [show ((after history).insert key value).keys = _ from Rows.keys_insert value]
      split
      · exact kept
      · next new =>
        refine List.pairwise_append.mpr ⟨kept, List.pairwise_singleton .., ?_⟩
        intro first mem second last n n' entered entered'
        obtain rfl := List.mem_singleton.mp last
        have before := enteredAt_lt (enteredAt_of_concat mem entered)
        rcases enteredAt_concat.mp entered' with ⟨_, -, rfl, -⟩ | ⟨-, there⟩
        · exact before
        · exact absurd (mem_keys_iff_enteredAt.mpr ⟨n', there⟩) new

/-! ## All together -/

/-- The entries that changes leave: each key that is there once, with its value, in the order in which the
keys came in. -/
structure Lists (history : List (Change α)) (entries : List (String × α)) : Prop where
  distinct : (entries.map (·.1)).Nodup
  mem_iff (key : String) (value : α) : (key, value) ∈ entries ↔ Holds history key value
  order : entries.Pairwise fun first second =>
    ∀ n n', EnteredAt history first.1 n → EnteredAt history second.1 n' → n < n'

theorem lists_after (history : List (Change α)) : Lists history (after history).entries where
  distinct := (after history).distinct
  mem_iff key value := get?_eq_some_iff.symm.trans (get?_after history key value)
  order := List.pairwise_map.mp (pairwise_keys_after history)

/-- There are no others. -/
theorem Lists.unique {entries entries' : List (String × α)} (lists : Lists history entries)
    (lists' : Lists history entries') : entries = entries' := by
  have came {entry : String × α} (holds : Holds history entry.1 entry.2) :
      ∃ n, EnteredAt history entry.1 n :=
    mem_keys_iff_enteredAt.mp (mem_keys_after.mpr ⟨entry.2, holds⟩)
  refine List.Perm.eq_of_pairwise ?_ lists.order lists'.order ?_
  · intro entry entry' mem mem' before behind
    obtain ⟨n, entered⟩ := came ((lists.mem_iff ..).mp mem)
    obtain ⟨n', entered'⟩ := came ((lists'.mem_iff ..).mp mem')
    exact absurd (before n n' entered entered') (Nat.lt_asymm (behind n' n entered' entered))
  · refine (List.perm_ext_iff_of_nodup (.of_map _ lists.distinct) (.of_map _ lists'.distinct)).mpr ?_
    exact fun entry => (lists.mem_iff ..).trans (lists'.mem_iff ..).symm

/-- Each map has come from changes of the empty one. -/
theorem exists_history (m : OrderedMap α) : ∃ history, m = after history := by
  refine ⟨m.entries.map fun entry => .insert entry.1 entry.2, ?_⟩
  rw [← ofList_eq_after]
  have same : (ofList m.entries).entries = m.entries := entries_ofList m.nodup_keys
  generalize ofList m.entries = m' at same
  obtain ⟨⟨array⟩, distinct⟩ := m
  obtain ⟨⟨array'⟩, distinct'⟩ := m'
  obtain rfl : array' = array := Array.toList_inj.mp same
  rfl

/-- What is true of a map of which all changes are known. -/
structure FollowsHistory (history : List (Change α)) : Prop where
  /-- It has the entries that the changes leave. -/
  lists (entries : List (String × α)) :
    Lists history entries ↔ (after history).entries = entries
  /-- A key has the value that was inserted last and is not taken out since. -/
  value (key : String) (value : α) :
    (after history).get? key = some value ↔ Holds history key value
  /-- A key that is there came in by one change since it was last absent. -/
  entered (key : String) : (∃ value, Holds history key value) ↔ ∃! n, EnteredAt history key n
  /-- A key that is not there comes last. -/
  insertNew (key : String) (value : α) : (∀ old, ¬ Holds history key old) →
    (after (history ++ [.insert key value])).entries = (after history).entries ++ [(key, value)]
  /-- A key that is there keeps its place. -/
  insertOld (key : String) (old value : α) : Holds history key old →
    (after (history ++ [.insert key value])).entries =
      (after history).entries.map fun entry => if entry.1 = key then (key, value) else entry
  /-- A key that is taken out leaves the others as they are. -/
  erase (key : String) : (after (history ++ [.erase key])).entries =
    (after history).entries.filter fun entry => entry.1 != key

theorem follows_history (history : List (Change α)) : FollowsHistory history where
  lists entries := by
    constructor
    · exact fun lists => (lists_after history).unique lists
    · rintro rfl
      exact lists_after history
  value := get?_after history
  entered key := by
    rw [← mem_keys_after, mem_keys_iff_enteredAt]
    constructor
    · rintro ⟨n, entered⟩
      exact ⟨n, entered, fun n' entered' => enteredAt_unique entered' entered⟩
    · exact fun ⟨n, entered, _⟩ => ⟨n, entered⟩
  insertNew key value absent := by
    rw [after_concat]
    refine entries_insert value fun mem => ?_
    obtain ⟨old, holds⟩ := mem_keys_after.mp mem
    exact absent old holds
  insertOld key old value holds := by
    rw [after_concat]
    exact entries_insert_of_mem value (mem_keys_after.mpr ⟨old, holds⟩)
  erase key := by
    rw [after_concat]
    exact entries_erase

end OrderedMap

end ScriptEngine
