/-!
# Maps in order of insertion

Rows of keys and values, in which a key means the first one that it stands in, and maps, which are
rows without a key that stands twice. Their view is the list of entries.
-/

namespace ScriptEngine

/-- Rows with string keys. -/
structure Rows (α : Type) where
  array : Array (String × α)
deriving Repr, Inhabited

namespace Rows

variable {α : Type}

/-- No rows. -/
def empty : Rows α := ⟨#[]⟩

/-- The entries in order. -/
def entries (rows : Rows α) : List (String × α) := rows.array.toList

/-- The place of a key. -/
def position? (rows : Rows α) (key : String) : Option Nat :=
  rows.array.findIdx? fun row => row.1 == key

/-- The value of a key. -/
def get? (rows : Rows α) (key : String) : Option α :=
  (rows.array.find? fun row => row.1 == key).map (·.2)

/-- Whether a key is present. -/
def contains (rows : Rows α) (key : String) : Bool :=
  (rows.get? key).isSome

/-- The rows with a value for a key: a key that is present keeps its place, another one comes last.
-/
def insert (rows : Rows α) (key : String) (value : α) : Rows α :=
  match rows.position? key with
  | some position => ⟨rows.array.setIfInBounds position (key, value)⟩
  | none => ⟨rows.array.push (key, value)⟩

/-- The rows without the first one of a key. -/
def erase (rows : Rows α) (key : String) : Rows α :=
  match rows.position? key with
  | some position => ⟨rows.array.eraseIdxIfInBounds position⟩
  | none => rows

/-- The keys in order. -/
def keys (rows : Rows α) : List String := rows.entries.map (·.1)

/-- The values in order. -/
def values (rows : Rows α) : List α := rows.entries.map (·.2)

/-- The number of entries. -/
def size (rows : Rows α) : Nat := rows.array.size

/-- Whether there is no entry. -/
def isEmpty (rows : Rows α) : Bool := rows.array.isEmpty

/-- A key that is found keeps its place, and another one is new. -/
theorem nodup_insert {rows : Rows α} (distinct : rows.keys.Nodup) (key : String) (value : α) :
    (rows.insert key value).keys.Nodup := by
  unfold insert
  cases found : rows.position? key with
  | some position =>
    obtain ⟨bound, same, -⟩ := Array.findIdx?_eq_some_iff_getElem.mp found
    have there : rows.keys[position]? = some key := by
      simpa [keys, entries, bound] using same
    obtain ⟨inside, isKey⟩ := List.getElem?_eq_some_iff.mp there
    have kept : keys ⟨rows.array.setIfInBounds position (key, value)⟩ = rows.keys := by
      rw [keys, entries, Array.toList_setIfInBounds, List.map_set, ← isKey]
      exact List.set_getElem_self inside
    exact kept ▸ distinct
  | none =>
    have new : key ∉ rows.keys := by
      intro mem
      obtain ⟨row, mem, same⟩ := List.mem_map.mp mem
      have absent := Array.findIdx?_eq_none_iff.mp found row (Array.mem_toList_iff.mp mem)
      exact ne_of_beq_false absent same
    have longer : keys ⟨rows.array.push (key, value)⟩ = rows.keys ++ [key] := by
      simp [keys, entries]
    show (keys ⟨rows.array.push (key, value)⟩).Nodup
    rw [longer, List.nodup_append]
    refine ⟨distinct, List.pairwise_singleton _ key, fun other mem last single same => ?_⟩
    exact new (List.mem_singleton.mp single ▸ same ▸ mem)

theorem nodup_erase {rows : Rows α} (distinct : rows.keys.Nodup) (key : String) :
    (rows.erase key).keys.Nodup := by
  unfold erase
  cases rows.position? key with
  | some position =>
    refine distinct.sublist (List.Sublist.map _ ?_)
    rw [entries, entries, Array.toList_eraseIdxIfInBounds]
    exact List.eraseIdx_sublist ..
  | none => exact distinct

end Rows

/-- A map with string keys whose entries stand in the order of their insertion. -/
structure OrderedMap (α : Type) extends Rows α where
  distinct : toRows.keys.Nodup
deriving Repr

namespace OrderedMap

variable {α : Type}

/-- The map without entries. -/
def empty : OrderedMap α := ⟨.empty, .nil⟩

instance : Inhabited (OrderedMap α) := ⟨empty⟩

/-- The map with a value for a key. -/
def insert (m : OrderedMap α) (key : String) (value : α) : OrderedMap α :=
  ⟨m.toRows.insert key value, Rows.nodup_insert m.distinct key value⟩

/-- The map without a key. -/
def erase (m : OrderedMap α) (key : String) : OrderedMap α :=
  ⟨m.toRows.erase key, Rows.nodup_erase m.distinct key⟩

/-- The map of entries inserted one after another. -/
def ofList (entries : List (String × α)) : OrderedMap α :=
  entries.foldl (fun m entry => m.insert entry.1 entry.2) empty

end OrderedMap

end ScriptEngine
