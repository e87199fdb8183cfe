import ScriptEngine.Proofs.Display.Extension
import ScriptEngine.Proofs.Entity.Data
import ScriptEngine.Proofs.Store.Parts

/-!
# To the host and back

A value of the host becomes new cells of a store, from which it is read again whatever cells come
behind them. A value of a script loses its kind on the way to the host, so that another value comes
back; but that one crosses as the same value of the host again.

* `HostValue.Keyed`: no map of a value has a key twice.
* `Store.returns_of_keyed`: a value of the host returns from a store.
* `Store.crosses_of_nested`: whatever crosses to the host has no key twice, and what keeps a value from
  crossing is a part of it.
* `Store.Portable`: values that are built from data.
* `Store.marshalling_round_trips`: to the host and back.
-/

namespace ScriptEngine

open Relation

/-- The maps in a value of the host have no key twice, at any level. -/
inductive HostValue.Keyed : HostValue → Prop
  | null : Keyed .null
  | bool (value : Bool) : Keyed (.bool value)
  | number (value : Float) : Keyed (.number value)
  | string (value : String) : Keyed (.string value)
  | list {items : List HostValue} : (∀ item ∈ items, Keyed item) → Keyed (.list items)
  | map {entries : List (String × HostValue)} : (entries.map (·.1)).Nodup →
      (∀ item ∈ entries.map (·.2), Keyed item) → Keyed (.map entries)
  | object (ref : HostRef) : Keyed (.object ref)

/-- Code and what belongs to it cannot cross to the host. -/
def Value.Stays : Value → Prop
  | .function _ | .hostClass _ | .promise _ | .space _ => True
  | _ => False

namespace Store

variable {s : Store} {n : Nat} {v : Value} {h : HostValue}

/-! ## Items and entries -/

theorem forall₂_marshalItems {items : List Value} {hs : List HostValue}
    (crosses : s.marshalItems n items = .ok hs) :
    List.Forall₂ (fun item h => s.marshalFrom n item = .ok h) items hs := by
  induction items generalizing hs with
  | nil =>
    rw [marshalItems] at crosses
    obtain rfl := Except.ok.inj crosses
    exact .nil
  | cons item items ih =>
    rw [marshalItems] at crosses
    cases first : s.marshalFrom n item with
    | error p =>
      rw [first] at crosses
      cases crosses
    | ok h =>
      rw [first] at crosses
      cases others : s.marshalItems n items with
      | error p =>
        rw [others] at crosses
        cases crosses
      | ok rest =>
        rw [others] at crosses
        obtain rfl := Except.ok.inj crosses
        exact .cons first (ih others)

/-- The values of entries cross as the items of a list do. -/
theorem marshalEntries_eq (entries : List (String × Value)) :
    s.marshalEntries n entries =
      (s.marshalItems n (entries.map (·.2))).map ((entries.map (·.1)).zip ·) := by
  induction entries with
  | nil =>
    rw [marshalEntries, List.map_nil, List.map_nil, marshalItems]
    rfl
  | cons entry entries ih =>
    rw [marshalEntries, ih, List.map_cons, List.map_cons, marshalItems]
    cases s.marshalFrom n entry.2 with
    | error p => rfl
    | ok h => cases s.marshalItems n (entries.map (·.2)) <;> rfl

theorem ofHostEntries_eq (s : Store) (entries : List (String × HostValue)) :
    s.ofHostEntries entries = ((entries.map (·.1)).zip (s.ofHostItems (entries.map (·.2))).1,
      (s.ofHostItems (entries.map (·.2))).2) := by
  induction entries generalizing s with
  | nil => rfl
  | cons entry entries ih =>
    rw [ofHostEntries, List.map_cons, List.map_cons, ofHostItems]
    dsimp only
    rw [ih]
    rfl

/-! ## From the host and back -/

theorem keeps_refl (s : Store) : s.Keeps s := keeps_of_same rfl rfl

/-- A value of the host becomes new arrays and maps of a store, and is read from them again as long
as they stay. -/
def Returns (h : HostValue) : Prop :=
  ∀ s : Store, ∃ arrays maps, (s.ofHost h).2 = s.extend arrays maps ∧
    ∀ t, (s.ofHost h).2.Keeps t → ∀ fuel, arrays.size + maps.size ≤ fuel →
      t.marshalFrom fuel (s.ofHost h).1 = .ok h

def ReturnAll (hs : List HostValue) : Prop :=
  ∀ s : Store, ∃ arrays maps, (s.ofHostItems hs).2 = s.extend arrays maps ∧
    ∀ t, (s.ofHostItems hs).2.Keeps t → ∀ fuel, arrays.size + maps.size ≤ fuel →
      t.marshalItems fuel (s.ofHostItems hs).1 = .ok hs

theorem returnAll {hs : List HostValue} (all : ∀ h ∈ hs, Returns h) : ReturnAll hs := by
  induction hs with
  | nil =>
    refine fun s => ⟨#[], #[], extend_empty.symm, fun t _ fuel _ => ?_⟩
    rw [ofHostItems, marshalItems]
  | cons h hs ih =>
    intro s
    obtain ⟨arrays, maps, made, back⟩ := all h List.mem_cons_self s
    obtain ⟨arrays', maps', made', back'⟩ :=
      ih (fun h mem => all h (List.mem_cons_of_mem _ mem)) (s.ofHost h).2
    have stays : (s.ofHost h).2.Keeps ((s.ofHost h).2.ofHostItems hs).2 := made' ▸ keeps_extend
    refine ⟨arrays ++ arrays', maps ++ maps', ?_, fun t kept fuel enough => ?_⟩
    · rw [← extend_extend, ← made, ← made']
      rfl
    · rw [Array.size_append, Array.size_append] at enough
      have first := back t (stays.trans kept) fuel (by omega)
      have others := back' t kept fuel (by omega)
      rw [ofHostItems]
      dsimp only
      rw [marshalItems, first, others]
      rfl

theorem newArray_eq (s : Store) (items : Array Value) :
    s.newArray items = (.array s.arrays.size, s.extend #[items] #[]) := by
  simp [newArray, extend]

theorem newMap_eq (s : Store) (entries : OrderedMap Value) :
    s.newMap entries = (.map s.maps.size, s.extend #[] #[entries]) := by
  simp [newMap, extend]

theorem array_extend_self (s : Store) (items : Array Value) :
    (s.extend #[items] #[]).array s.arrays.size = items := by
  simp [array, extend]

theorem map_extend_self (s : Store) (entries : OrderedMap Value) :
    (s.extend #[] #[entries]).map s.maps.size = entries := by
  simp [map, extend]

/-- The keys of entries, each with its value. -/
theorem zip_keys_values {α : Type} (entries : List (String × α)) :
    (entries.map (·.1)).zip (entries.map (·.2)) = entries :=
  (List.zip_map' ..).trans (List.map_id' entries)

theorem ofHost_list (s : Store) (items : List HostValue) : s.ofHost (.list items) =
    (.array (s.ofHostItems items).2.arrays.size,
      (s.ofHostItems items).2.extend #[(s.ofHostItems items).1.toArray] #[]) := by
  rw [ofHost]
  exact newArray_eq ..

theorem ofHost_map (s : Store) (entries : List (String × HostValue)) : s.ofHost (.map entries) =
    (.map (s.ofHostItems (entries.map (·.2))).2.maps.size,
      (s.ofHostItems (entries.map (·.2))).2.extend #[] #[.ofList
        ((entries.map (·.1)).zip (s.ofHostItems (entries.map (·.2))).1)]) := by
  rw [ofHost, ofHostEntries_eq]
  exact newMap_eq ..

theorem exists_add_of_le {n levels m : Nat} (le : n + levels ≤ m) : ∃ k, n ≤ k ∧ m = k + levels :=
  ⟨m - levels, Nat.le_sub_of_add_le le,
    (Nat.sub_add_cancel (Nat.le_trans (Nat.le_add_left ..) le)).symm⟩

/-- A value of the host in whose maps no key stands twice is read again from the cells that it has
become. -/
theorem returns_of_keyed (keyed : h.Keyed) : Returns h := by
  induction keyed with
  | @list items _ ih =>
    intro s
    obtain ⟨arrays, maps, made, back⟩ := returnAll ih s
    rw [ofHost_list]
    refine ⟨arrays ++ #[_], maps ++ #[], made ▸ extend_extend, fun t kept fuel enough => ?_⟩
    obtain ⟨fuel, room, rfl⟩ : ∃ less, arrays.size + maps.size ≤ less ∧ fuel = less + 1 := by
      rw [Array.size_append, Array.size_append] at enough
      have more : arrays.size + maps.size + 1 ≤ arrays.size + 1 + (maps.size + 0) := by omega
      exact exists_add_of_le (Nat.le_trans more enough)
    have items := back t (keeps_extend.trans kept) fuel room
    have there := (kept.arrays _ (by simp [extend])).2.trans (array_extend_self _ _)
    rw [marshalFrom, there, List.toList_toArray, items]
    rfl
  | @map entries distinct _ ih =>
    intro s
    obtain ⟨arrays, maps, made, back⟩ := returnAll ih s
    rw [ofHost_map]
    refine ⟨arrays ++ #[], maps ++ #[_], made ▸ extend_extend, fun t kept fuel enough => ?_⟩
    obtain ⟨fuel, room, rfl⟩ : ∃ less, arrays.size + maps.size ≤ less ∧ fuel = less + 1 := by
      rw [Array.size_append, Array.size_append] at enough
      have more : arrays.size + maps.size + 1 ≤ arrays.size + 0 + (maps.size + 1) := by omega
      exact exists_add_of_le (Nat.le_trans more enough)
    have items := back t (keeps_extend.trans kept) fuel room
    have there := (kept.maps _ (by simp [extend])).2.trans (map_extend_self _ _)
    have long : (entries.map (·.1)).length = (s.ofHostItems (entries.map (·.2))).1.length := by
      rw [(forall₂_marshalItems items).length_eq, List.length_map, List.length_map]
    have keys := List.map_fst_zip (Nat.le_of_eq long)
    have values := List.map_snd_zip (Nat.le_of_eq long.symm)
    have nodup : (((entries.map (·.1)).zip (s.ofHostItems (entries.map (·.2))).1).map
        (·.1)).Nodup := keys.symm ▸ distinct
    rw [marshalFrom, there, OrderedMap.entries_ofList nodup, marshalEntries_eq, values, items, keys]
    show Except.ok (HostValue.map ((entries.map (·.1)).zip (entries.map (·.2)))) = _
    rw [zip_keys_values]
  | _ =>
    refine fun s => ⟨#[], #[], extend_empty.symm, fun t _ fuel _ => ?_⟩
    rw [ofHost, marshalFrom]

theorem le_cellCount_extend (s : Store) (arrays : Array (Array Value))
    (maps : Array (OrderedMap Value)) :
    arrays.size + maps.size ≤ (s.extend arrays maps).cellCount := by
  simp only [cellCount, extend, Array.size_append]
  omega

/-- A value of the host in whose maps no key stands twice returns from any store. -/
theorem toHost_ofHost (keyed : h.Keyed) (s : Store) :
    (s.ofHost h).2.toHost (s.ofHost h).1 = .ok h := by
  obtain ⟨arrays, maps, made, back⟩ := returns_of_keyed keyed s
  refine back _ (keeps_refl _) _ (Nat.le_succ_of_le ?_)
  rw [made]
  exact le_cellCount_extend s arrays maps

/-! ## To the host and back -/

/-- What becomes of a value on the way to the host, however many more cells may be entered: a value
without keys that stand twice, or a failure because of a part that cannot cross. -/
def Crosses (s : Store) (n : Nat) (v : Value) : Prop :=
  (∃ h : HostValue, h.Keyed ∧ ∀ m, n ≤ m → s.marshalFrom m v = .ok h) ∨
    ∃ x, ReflTransGen s.Part x v ∧ x.Stays ∧ ∀ m, n ≤ m → s.marshalFrom m v = .error (cannotCross x)

theorem Crosses.mono {m : Nat} (crosses : s.Crosses n v) (le : n ≤ m) : s.Crosses m v :=
  crosses.imp
    (fun ⟨h, keyed, same⟩ => ⟨h, keyed, fun k le' => same k (Nat.le_trans le le')⟩)
    fun ⟨x, within, stays, same⟩ => ⟨x, within, stays, fun k le' => same k (Nat.le_trans le le')⟩

theorem crossesAll {items : List Value} (all : ∀ item ∈ items, s.Crosses n item) :
    (∃ hs : List HostValue, (∀ h ∈ hs, h.Keyed) ∧ hs.length = items.length ∧
      ∀ m, n ≤ m → s.marshalItems m items = .ok hs) ∨
    ∃ item ∈ items, ∃ x, ReflTransGen s.Part x item ∧ x.Stays ∧
      ∀ m, n ≤ m → s.marshalItems m items = .error (cannotCross x) := by
  induction items with
  | nil =>
    refine .inl ⟨[], List.forall_mem_nil _, rfl, fun m _ => ?_⟩
    rw [marshalItems]
  | cons item items ih =>
    rcases all item List.mem_cons_self with ⟨h, keyed, same⟩ | ⟨x, within, stays, same⟩
    · rcases ih fun other mem => all other (List.mem_cons_of_mem _ mem) with
        ⟨hs, keyed', long, same'⟩ | ⟨other, mem, x, within, stays, same'⟩
      · refine .inl ⟨h :: hs, List.forall_mem_cons.mpr ⟨keyed, keyed'⟩, congrArg (· + 1) long,
          fun m le => ?_⟩
        rw [marshalItems, same m le, same' m le]
        rfl
      · refine .inr ⟨other, List.mem_cons_of_mem _ mem, x, within, stays, fun m le => ?_⟩
        rw [marshalItems, same m le, same' m le]
        rfl
    · refine .inr ⟨item, List.mem_cons_self, x, within, stays, fun m le => ?_⟩
      rw [marshalItems, same m le]
      rfl

/-- A value crosses with some of its parts, with which one level is entered or none. -/
theorem crosses_of_items (items : List Value) (wrap : List HostValue → HostValue) (levels : Nat)
    (parts : ∀ item ∈ items, s.Part item v) (all : ∀ item ∈ items, s.Crosses n item)
    (wraps : ∀ hs : List HostValue, (∀ h ∈ hs, h.Keyed) → hs.length = items.length →
      (wrap hs).Keyed)
    (step : ∀ m, s.marshalFrom (m + levels) v = (s.marshalItems m items).map wrap) :
    s.Crosses (n + levels) v := by
  rcases crossesAll all with ⟨hs, keyed, long, same⟩ | ⟨item, mem, x, within, stays, same⟩
  · refine .inl ⟨wrap hs, wraps hs keyed long, fun m le => ?_⟩
    obtain ⟨k, le', rfl⟩ := exists_add_of_le le
    rw [step, same k le']
    rfl
  · refine .inr ⟨x, within.tail (parts item mem), stays, fun m le => ?_⟩
    obtain ⟨k, le', rfl⟩ := exists_add_of_le le
    rw [step, same k le']
    rfl

/-- Named values of distinct names cross as a map. -/
theorem crosses_of_entries {entries : List (String × Value)}
    (parts : ∀ entry ∈ entries, s.Part entry.2 v) (all : ∀ entry ∈ entries, s.Crosses n entry.2)
    (distinct : (entries.map (·.1)).Nodup)
    (step : ∀ m, s.marshalFrom (m + 1) v = (s.marshalEntries m entries).map .map) :
    s.Crosses (n + 1) v := by
  refine crosses_of_items _ (fun hs => .map ((entries.map (·.1)).zip hs)) 1
    (List.forall_mem_map.mpr parts) (List.forall_mem_map.mpr all) (fun hs keyed long => ?_)
    fun m => ?_
  · have long' : (entries.map (·.1)).length = hs.length := by
      rw [long, List.length_map, List.length_map]
    have keys := List.map_fst_zip (Nat.le_of_eq long')
    have values := List.map_snd_zip (Nat.le_of_eq long'.symm)
    exact .map (keys.symm ▸ distinct) fun item mem => keyed item (values ▸ mem)
  · rw [step, marshalEntries_eq]
    cases s.marshalItems m (entries.map (·.2)) <;> rfl

theorem crosses_tuple {items : List Value} (all : ∀ item ∈ items, s.Crosses n item) :
    s.Crosses n (.tuple items) := by
  refine crosses_of_items items .list 0 (fun item mem => .item (.tuple mem)) all
    (fun hs keyed _ => .list keyed) fun m => ?_
  rw [Nat.add_zero, marshalFrom]
  cases s.marshalItems m items <;> rfl

/-- What has been captured is what crosses. -/
theorem crosses_safe {id : SafeId}
    (all : ∀ x, s.safes[id]? = some (.ok x) → s.Crosses n x) : s.Crosses (n + 1) (.safe id) := by
  cases there : s.safes[id]? with
  | none =>
    have missing : s.captured id = .ok .null := by simp [captured, Array.getD_eq_getD_getElem?, there]
    refine .inl ⟨.null, .null, fun m le => ?_⟩
    obtain ⟨k, -, rfl⟩ := exists_add_of_le le
    rw [marshalFrom, missing]
    dsimp only
    rw [marshalFrom]
  | some result =>
    have held : s.captured id = result := by simp [captured, Array.getD_eq_getD_getElem?, there]
    cases result with
    | error p =>
      refine .inl ⟨.null, .null, fun m le => ?_⟩
      obtain ⟨k, -, rfl⟩ := exists_add_of_le le
      rw [marshalFrom, held]
    | ok x =>
      rcases all x there with ⟨h, keyed, same⟩ | ⟨y, within, stays, same⟩
      · refine .inl ⟨h, keyed, fun m le => ?_⟩
        obtain ⟨k, le', rfl⟩ := exists_add_of_le le
        rw [marshalFrom, held]
        exact same k le'
      · refine .inr ⟨y, within.tail (.safe there), stays, fun m le => ?_⟩
        obtain ⟨k, le', rfl⟩ := exists_add_of_le le
        rw [marshalFrom, held]
        exact same k le'

/-- What becomes of a value does not depend on the bound where it is nested no deeper. -/
theorem crosses_of_nested (nested : Value.Nested s.Part n v) : s.Crosses n v := by
  induction nested with
  | tuple _ ih => exact crosses_tuple ih
  | @cell n v _ ih =>
    cases v with
    | null | unit => exact .inl ⟨.null, .null, fun m _ => by rw [marshalFrom]⟩
    | bool value => exact .inl ⟨_, .bool value, fun m _ => by rw [marshalFrom]⟩
    | number value => exact .inl ⟨_, .number value, fun m _ => by rw [marshalFrom]⟩
    | string value => exact .inl ⟨_, .string value, fun m _ => by rw [marshalFrom]⟩
    | external ref => exact .inl ⟨_, .object ref, fun m _ => by rw [marshalFrom]⟩
    | function | hostClass | promise | space =>
      exact .inr ⟨_, .refl, trivial, fun m _ => by rw [marshalFrom]⟩
    | array id =>
      refine crosses_of_items _ .list 1 (fun item mem => .item (.array mem))
        (fun item mem => ih item (.item (.array mem))) (fun hs keyed _ => .list keyed) fun m => ?_
      rw [marshalFrom]
      cases s.marshalItems m (s.array id).toList <;> rfl
    | tuple items =>
      exact (crosses_tuple fun item mem => ih item (.item (.tuple mem))).mono (Nat.le_succ n)
    | map id =>
      refine crosses_of_entries (fun entry mem => .item (.map mem))
        (fun entry mem => ih _ (.item (.map mem))) (s.map id).distinct fun m => ?_
      rw [marshalFrom]
      cases s.marshalEntries m (s.map id).entries <;> rfl
    | entity entity =>
      cases host : s.entityHost? entity with
      | some ref =>
        refine .inl ⟨_, .object ref, fun m _ => ?_⟩
        unfold marshalFrom
        rw [host]
      | none =>
        refine crosses_of_entries (fun entry mem => .member host mem)
          (fun entry mem => ih _ (.member host mem)) Arena.nodup_dataMembers fun m => ?_
        rw [marshalFrom, host]
        cases s.marshalEntries m ((s.arena entity.env).dataMembers entity.id) <;> rfl
    | safe id => exact crosses_safe fun x there => ih x (.safe there)

/-- Values that are built from data: nothing in them is code or belongs to it, but for members of
entities that are functions. -/
inductive Portable (s : Store) : Value → Prop
  | null : Portable s .null
  | unit : Portable s .unit
  | bool (value : Bool) : Portable s (.bool value)
  | number (value : Float) : Portable s (.number value)
  | string (value : String) : Portable s (.string value)
  | external (ref : HostRef) : Portable s (.external ref)
  | array {id : ArrayId} : (∀ item ∈ (s.array id).toList, Portable s item) →
      Portable s (.array id)
  | tuple {items : List Value} : (∀ item ∈ items, Portable s item) → Portable s (.tuple items)
  | map {id : MapId} : (∀ entry ∈ (s.map id).entries, Portable s entry.2) → Portable s (.map id)
  | safe {id : SafeId} : (∀ x, s.captured id = .ok x → Portable s x) → Portable s (.safe id)
  | entity {entity : EntityRef} : (∀ holder ∈ (s.arena entity.env).chain entity.id,
      ∀ member ∈ (s.arena entity.env).members holder, member.2.isFunction = false →
        Portable s member.2) → Portable s (.entity entity)

/-- On no way down from a value that is built from data stands anything else, and each way ends. -/
theorem Portable.closed (portable : s.Portable v) :
    Acc s.Part v ∧ ∀ x, ReflTransGen s.Part x v → ¬ x.Stays := by
  have of_parts {v : Value} (moves : ¬ v.Stays) (parts : ∀ x, s.Part x v →
      Acc s.Part x ∧ ∀ y, ReflTransGen s.Part y x → ¬ y.Stays) :
      Acc s.Part v ∧ ∀ x, ReflTransGen s.Part x v → ¬ x.Stays := by
    refine ⟨⟨_, fun x isPart => (parts x isPart).1⟩, fun x within => ?_⟩
    rcases within.cases_tail with rfl | ⟨y, within, isPart⟩
    · exact moves
    · exact (parts y isPart).2 x within
  induction portable with
  | array _ ih =>
    refine of_parts id fun x isPart => ?_
    cases isPart with
    | item item => cases item with | array mem => exact ih x mem
  | tuple _ ih =>
    refine of_parts id fun x isPart => ?_
    cases isPart with
    | item item => cases item with | tuple mem => exact ih x mem
  | map _ ih =>
    refine of_parts id fun x isPart => ?_
    cases isPart with
    | item item => cases item with | map mem => exact ih _ mem
  | safe _ ih =>
    refine of_parts id fun x isPart => ?_
    cases isPart with
    | item item => cases item
    | safe there => exact ih x (by simp [captured, Array.getD_eq_getD_getElem?, there])
  | entity _ ih =>
    refine of_parts id fun x isPart => ?_
    cases isPart with
    | item item => cases item
    | member _ mem =>
      obtain ⟨holder, inChain, shown⟩ :=
        List.exists_of_findSome?_eq_some (Arena.mem_dataMembers_iff.mp mem)
      obtain ⟨own, isData⟩ := Arena.data?_eq_some_iff.mp shown
      exact ih holder inChain _ (Arena.own?_eq_some_iff.mp own) isData
  | _ => exact of_parts id fun x isPart => by cases isPart with | item item => cases item

/-- A value of the host in whose maps no key stands twice comes back as it was from any store. A value
of a script without cycles crosses to the host unless a part of it is code or belongs to it, which is
a failure of the host's; and if it does, then what it crosses as comes back from any store as it was.
That does not depend on how many cells may be entered. And a value that is built from data does
cross. -/
theorem marshalling_round_trips (s : Store) :
    (∀ h : HostValue, h.Keyed → (s.ofHost h).2.toHost (s.ofHost h).1 = .ok h) ∧
    (∀ v, Value.Acyclic s.Part v →
      ((∃ p, s.toHost v = .error p ∧ p.code = .externalFailure ∧
          ∃ x, ReflTransGen s.Part x v ∧ x.Stays ∧ p = cannotCross x) ∨
        ∃ h, s.toHost v = .ok h ∧
          ∀ s' : Store, (s'.ofHost h).2.toHost (s'.ofHost h).1 = .ok h) ∧
      ∀ fuel, s.cellCount < fuel → s.marshalFrom fuel v = s.toHost v) ∧
    ∀ v, s.Portable v → ∃ h, s.toHost v = .ok h := by
  have crosses {v : Value} (acyclic : Value.Acyclic s.Part v) : s.Crosses (s.cellCount + 1) v := by
    rw [← length_holders]
    exact crosses_of_nested (Value.nested_of_acyclic s.among_parts acyclic)
  refine ⟨fun h keyed => toHost_ofHost keyed s, fun v acyclic => ?_, fun v portable => ?_⟩
  · rcases crosses acyclic with ⟨h, keyed, same⟩ | ⟨x, within, stays, same⟩
    · exact ⟨.inr ⟨h, same _ (Nat.le_refl _), toHost_ofHost keyed⟩, fun fuel enough =>
        (same fuel enough).trans (same _ (Nat.le_refl _)).symm⟩
    · exact ⟨.inl ⟨_, same _ (Nat.le_refl _), rfl, x, within, stays, rfl⟩, fun fuel enough =>
        (same fuel enough).trans (same _ (Nat.le_refl _)).symm⟩
  · obtain ⟨ends, moves⟩ := portable.closed
    rcases crosses (Value.acyclic_of_acc ends) with ⟨h, -, same⟩ | ⟨x, within, stays, -⟩
    · exact ⟨h, same _ (Nat.le_refl _)⟩
    · exact absurd stays (moves x within)

/-- An array of a tuple, a captured text and an entity with a number and a function. -/
def parcel : Store :=
  { Store.empty with
    arrays := #[#[.tuple [.unit, .external 0], .safe 0, .entity ⟨0, 0⟩]]
    safes := #[.ok (.string "kept")]
    arenas := #[⟨#[⟨⟨⟨#[("age", .number 48), ("greet", .function 0)]⟩, by decide⟩, none, none⟩]⟩] }

theorem portable_parcel : parcel.Portable (.array 0) := by
  have age : ∀ holder ∈ (parcel.arena 0).chain 0, ∀ member ∈ (parcel.arena 0).members holder,
      member.2.isFunction = false → parcel.Portable member.2 := by
    intro holder inChain member mem isData
    obtain rfl := List.mem_singleton.mp inChain
    rcases List.mem_pair.mp mem with rfl | rfl
    · exact .number 48
    · cases isData
  refine .array fun item mem => ?_
  rcases List.mem_cons.mp mem with rfl | mem
  · refine .tuple fun item mem => ?_
    rcases List.mem_pair.mp mem with rfl | rfl
    · exact .unit
    · exact .external 0
  · rcases List.mem_pair.mp mem with rfl | rfl
    · exact .safe fun x there => Except.ok.inj there ▸ .string "kept"
    · exact .entity age

theorem marshalling_round_trips_of_parcel :
    parcel.Portable (.array 0) ∧ Value.Acyclic parcel.Part (.array 0) ∧
      (∃ h, parcel.toHost (.array 0) = .ok h ∧
        (parcel.ofHost h).2.toHost (parcel.ofHost h).1 = .ok h) ∧
      (HostValue.map [("a", .list [.null]), ("b", .object 0)]).Keyed ∧
      ∃ v s', parcel.ofHost (.map [("a", .list [.null]), ("b", .object 0)]) = (v, s') ∧
        s'.toHost v = .ok (.map [("a", .list [.null]), ("b", .object 0)]) := by
  obtain ⟨fromHost, fromScript, crosses⟩ := marshalling_round_trips parcel
  have acyclic := Value.acyclic_of_acc portable_parcel.closed.1
  have keyed : (HostValue.map [("a", .list [.null]), ("b", .object 0)]).Keyed := by
    refine .map (by decide) fun item mem => ?_
    rcases List.mem_pair.mp mem with rfl | rfl
    · exact .list fun item mem => List.mem_singleton.mp mem ▸ .null
    · exact .object 0
  refine ⟨portable_parcel, acyclic, ?_, keyed, _, _, rfl, fromHost _ keyed⟩
  obtain ⟨h, crosses⟩ := crosses _ portable_parcel
  rcases (fromScript _ acyclic).1 with ⟨p, fails, -⟩ | ⟨h', crosses', back⟩
  · cases crosses.symm.trans fails
  · exact ⟨h', crosses', back parcel⟩

end Store

end ScriptEngine
