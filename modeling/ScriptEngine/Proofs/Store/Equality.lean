import Mathlib
import ScriptEngine.Proofs.OrderedMap
import ScriptEngine.Proofs.Store.Parts
import ScriptEngine.Store.Equality

/-!
# Equality is an equivalence

Whether two values are equal is decided by what they hold, with a shortcut for cells that are one. It
makes no difference for values of which no part is not a number, and how many cells may be entered
makes none for values that no way leads round from.

* `Store.Alike`: what makes two values equal, one step down.
* `Store.sameFrom_symm`, `Store.sameFrom_trans`, `Store.sameFrom_self`: an equivalence.
* `Store.sameFrom_of_nested`: the bound does not count where values are nested no deeper.
* `Store.equality_law`: what equality comes to for values of each kind.
-/

namespace ScriptEngine

open Relation

namespace Store

variable {s : Store} {n : Nat} {a b c : Value}

/-! ## One step down -/

theorem sameItems_iff {as bs : List Value} : s.sameItems n as bs = true ↔
    List.Forall₂ (fun a b => s.sameFrom n a b = true) as bs := by
  induction as generalizing bs with
  | nil => cases bs <;> simp [sameItems]
  | cons a as ih =>
    cases bs with
    | nil => simp [sameItems]
    | cons b bs => rw [sameItems, Bool.and_eq_true, ih, List.forall₂_cons]

/-- Every entry has an equal one among those of a map. -/
def Covered (s : Store) (n : Nat) (entries : List (String × Value)) (m : OrderedMap Value) : Prop :=
  ∀ entry ∈ entries, ∃ found, m.get? entry.1 = some found ∧ s.sameFrom n entry.2 found = true

theorem sameEntries_iff {entries : List (String × Value)} {m : OrderedMap Value} :
    s.sameEntries n entries m = true ↔ s.Covered n entries m := by
  induction entries with
  | nil => simp [sameEntries, Covered]
  | cons entry entries ih =>
    rw [sameEntries, Bool.and_eq_true, ih, Covered, Covered, List.forall_mem_cons]
    refine and_congr_left' ?_
    cases m.get? entry.1 <;> simp

/-- What makes two values equal: they are one, or equal numbers, or what they hold is equal. -/
inductive Alike (s : Store) (n : Nat) : Value → Value → Prop
  | one {v : Value} : (∀ x, v ≠ .number x) → (∀ items, v ≠ .tuple items) → Alike s n v v
  | number {x y : Float} : (x == y) = true → Alike s n (.number x) (.number y)
  | tuple {as bs : List Value} : List.Forall₂ (fun a b => s.sameFrom n a b = true) as bs →
      Alike s n (.tuple as) (.tuple bs)
  | array {m : Nat} {i j : ArrayId} : n = m + 1 →
      List.Forall₂ (fun a b => s.sameFrom m a b = true) (s.array i).toList (s.array j).toList →
      Alike s n (.array i) (.array j)
  | map {m : Nat} {i j : MapId} : n = m + 1 → (s.map i).size = (s.map j).size →
      s.Covered m (s.map i).entries (s.map j) → Alike s n (.map i) (.map j)

theorem alike_of_sameFrom (equal : s.sameFrom n a b = true) : s.Alike n a b := by
  unfold sameFrom at equal
  split at equal
  case h_4 => exact .number equal
  case h_6 i j =>
    rcases Bool.or_eq_true_iff.mp equal with one | items
    · exact beq_iff_eq.mp one ▸ .one (by simp) (by simp)
    · cases n with
      | zero => cases items
      | succ m => exact .array rfl (sameItems_iff.mp items)
  case h_7 => exact .tuple (sameItems_iff.mp equal)
  case h_8 i j =>
    rcases Bool.or_eq_true_iff.mp equal with one | entries
    · exact beq_iff_eq.mp one ▸ .one (by simp) (by simp)
    · cases n with
      | zero => cases entries
      | succ m =>
        obtain ⟨size, entries⟩ := Bool.and_eq_true_iff.mp entries
        exact .map rfl (beq_iff_eq.mp size) (sameEntries_iff.mp entries)
  case h_16 => cases equal
  all_goals first
    | exact .one (by simp) (by simp)
    | exact beq_iff_eq.mp equal ▸ .one (by simp) (by simp)

theorem sameFrom_of_alike (alike : s.Alike n a b) : s.sameFrom n a b = true := by
  cases alike with
  | one notNumber notTuple =>
    cases a with
    | number x => exact absurd rfl (notNumber x)
    | tuple items => exact absurd rfl (notTuple items)
    | array | map =>
      unfold sameFrom
      rw [beq_self_eq_true, Bool.true_or]
    | _ => simp [sameFrom]
  | number equal => rw [sameFrom, equal]
  | tuple items => rw [sameFrom, sameItems_iff.mpr items]
  | array isSucc items =>
    rw [isSucc, sameFrom, sameItems_iff.mpr items, Bool.or_true]
  | map isSucc size entries =>
    rw [isSucc, sameFrom, sameEntries_iff.mpr entries, size, beq_self_eq_true, Bool.and_true,
      Bool.or_true]

/-- Equal values are of one kind. -/
theorem typeName_of_sameFrom (equal : s.sameFrom n a b = true) : a.typeName = b.typeName := by
  cases alike_of_sameFrom equal <;> rfl

/-! ## An equivalence -/

/-- Maps of one size of which one has all keys of the other have the same keys. -/
theorem Covered.keys {m m' : OrderedMap Value} (covered : s.Covered n m.entries m')
    (size : m.size = m'.size) : m.keys.Perm m'.keys := by
  have known : m.keys ⊆ m'.keys := by
    intro key mem
    obtain ⟨entry, isEntry, rfl⟩ := List.mem_map.mp mem
    obtain ⟨found, there, -⟩ := covered entry isEntry
    exact List.mem_map.mpr ⟨_, OrderedMap.get?_eq_some_iff.mp there, rfl⟩
  refine (m.distinct.subperm known).perm_of_length_le ?_
  rw [OrderedMap.length_keys, OrderedMap.length_keys]
  exact Nat.le_of_eq size.symm

/-- What the items of one list and their partners have in common may change. -/
theorem forall₂_imp {α : Type} {R R' : α → α → Prop} {as bs : List α}
    (items : List.Forall₂ R as bs) (imp : ∀ a ∈ as, ∀ b, R a b → R' a b) :
    List.Forall₂ R' as bs :=
  ((List.forall₂_and_left as bs).mpr ⟨imp, items⟩).imp fun _ b both => both.1 b both.2

theorem forall₂_chain {α : Type} {R R' R'' : α → α → Prop} {as bs cs : List α}
    (items : List.Forall₂ R as bs) (items' : List.Forall₂ R' bs cs)
    (chain : ∀ a ∈ as, ∀ b c, R a b → R' b c → R'' a c) : List.Forall₂ R'' as cs := by
  induction items generalizing cs with
  | nil =>
    cases items'
    exact .nil
  | cons first _ ih =>
    cases items' with
    | cons first' others' =>
      exact .cons (chain _ List.mem_cons_self _ _ first first')
        (ih others' fun a mem => chain a (List.mem_cons_of_mem _ mem))

/-- What is equal is so either way. -/
theorem sameFrom_symm (n : Nat) (a : Value) {b : Value} (equal : s.sameFrom n a b = true) :
    s.sameFrom n b a = true := by
  induction n, a using Value.levels generalizing b with
  | step n a below parts =>
    refine sameFrom_of_alike ?_
    cases alike_of_sameFrom equal with
    | one notNumber notTuple => exact .one notNumber notTuple
    | number same => exact .number (PartialEquivBEq.symm same)
    | tuple items => exact .tuple (forall₂_imp items fun item mem _ => parts _ rfl item mem).flip
    | array isSucc items =>
      have less := Nat.lt_of_succ_le (Nat.le_of_eq isSucc.symm)
      exact .array isSucc (forall₂_imp items fun item _ _ => below _ less item).flip
    | @map m i j isSucc size entries =>
      have less := Nat.lt_of_succ_le (Nat.le_of_eq isSucc.symm)
      refine .map isSucc size.symm fun entry mem => ?_
      have isKey := (entries.keys size).mem_iff.mpr (List.mem_map_of_mem mem)
      obtain ⟨⟨key, value⟩, isEntry, rfl⟩ := List.mem_map.mp isKey
      obtain ⟨found, there, same⟩ := entries _ isEntry
      obtain rfl := Option.some.inj (there.symm.trans (OrderedMap.get?_eq_some_iff.mpr mem))
      exact ⟨value, OrderedMap.get?_eq_some_iff.mpr isEntry, below m less value same⟩

/-- What is equal to one value is equal to what that one is equal to. -/
theorem sameFrom_trans (n : Nat) (a : Value) {b c : Value} (equal : s.sameFrom n a b = true)
    (equal' : s.sameFrom n b c = true) : s.sameFrom n a c = true := by
  induction n, a using Value.levels generalizing b c with
  | step n a below parts =>
    refine sameFrom_of_alike ?_
    cases alike_of_sameFrom equal with
    | one => exact alike_of_sameFrom equal'
    | number same =>
      cases alike_of_sameFrom equal' with
      | one notNumber => exact absurd rfl (notNumber _)
      | number same' => exact .number (PartialEquivBEq.trans same same')
    | tuple items =>
      cases alike_of_sameFrom equal' with
      | one _ notTuple => exact absurd rfl (notTuple _)
      | tuple items' =>
        exact .tuple (forall₂_chain items items' fun item mem _ _ => parts _ rfl item mem)
    | array isSucc items =>
      have less := Nat.lt_of_succ_le (Nat.le_of_eq isSucc.symm)
      cases alike_of_sameFrom equal' with
      | one => exact .array isSucc items
      | array isSucc' items' =>
        obtain rfl := Nat.succ.inj (isSucc.symm.trans isSucc')
        exact .array isSucc (forall₂_chain items items' fun item _ _ _ => below _ less item)
    | map isSucc size entries =>
      have less := Nat.lt_of_succ_le (Nat.le_of_eq isSucc.symm)
      cases alike_of_sameFrom equal' with
      | one => exact .map isSucc size entries
      | map isSucc' size' entries' =>
        obtain rfl := Nat.succ.inj (isSucc.symm.trans isSucc')
        refine .map isSucc (size.trans size') fun entry mem => ?_
        obtain ⟨found, there, same⟩ := entries entry mem
        obtain ⟨found', there', same'⟩ := entries' _ (OrderedMap.get?_eq_some_iff.mp there)
        exact ⟨found', there', below _ less _ same same'⟩

/-! ## Values without cycles and without what is not a number -/

/-- No way down from a value leads round, and no part of it is not a number. -/
structure Plain (s : Store) (v : Value) : Prop where
  acyclic : Value.Acyclic s.Item v
  numbers : ∀ x, ReflTransGen s.Item (.number x) v → x.isNaN = false

theorem Plain.item {x v : Value} (plain : s.Plain v) (item : s.Item x v) : s.Plain x :=
  ⟨Value.acyclic_of_part plain.acyclic item, fun y within => plain.numbers y (within.tail item)⟩

/-- A value is equal to itself. -/
theorem sameFrom_self (n : Nat) (v : Value) (plain : s.Plain v) : s.sameFrom n v v = true := by
  induction n, v using Value.levels with
  | step n v _ parts =>
    refine sameFrom_of_alike ?_
    cases v with
    | number x =>
      have isNumber := plain.numbers x .refl
      rw [Float.isNaN_eq_decide_eq_nan, decide_eq_false_iff_not] at isNumber
      exact .number (Float.beq_self_iff.mpr isNumber)
    | tuple items =>
      exact .tuple (List.forall₂_same.mpr fun item mem => parts _ rfl item mem (plain.item (.tuple mem)))
    | _ => exact .one nofun nofun

/-- Where a value is nested no deeper, a greater bound does not count. -/
theorem sameFrom_of_nested {m m' : Nat} (nested : Value.Nested s.Item n a) (le : n ≤ m)
    (le' : n ≤ m') (equal : s.sameFrom m a b = true) : s.sameFrom m' a b = true := by
  refine sameFrom_of_alike ?_
  induction nested generalizing m m' b with
  | tuple _ ih =>
    cases alike_of_sameFrom equal with
    | one _ notTuple => exact absurd rfl (notTuple _)
    | tuple items =>
      exact .tuple (forall₂_imp items fun item mem _ same =>
        sameFrom_of_alike (ih item mem le le' same))
  | cell _ ih =>
    obtain ⟨k, rfl⟩ := Nat.exists_eq_succ_of_ne_zero (Nat.ne_of_gt (Nat.zero_lt_of_lt le'))
    cases alike_of_sameFrom equal with
    | one notNumber notTuple => exact .one notNumber notTuple
    | number same => exact .number same
    | tuple items =>
      exact .tuple (forall₂_imp items fun item mem _ same => sameFrom_of_alike
        (ih item (.tuple mem) (Nat.le_of_succ_le le) (Nat.le_of_succ_le le') same))
    | array isSucc items =>
      have less := Nat.le_of_succ_le_succ (isSucc ▸ le)
      exact .array rfl (forall₂_imp items fun item mem _ same => sameFrom_of_alike
        (ih item (.array mem) less (Nat.le_of_succ_le_succ le') same))
    | map isSucc size entries =>
      have less := Nat.le_of_succ_le_succ (isSucc ▸ le)
      refine .map rfl size fun entry mem => ?_
      obtain ⟨found, there, same⟩ := entries entry mem
      exact ⟨found, there, sameFrom_of_alike
        (ih entry.2 (.map mem) less (Nat.le_of_succ_le_succ le') same)⟩

/-! ## What makes values of each kind equal -/

theorem Plain.nested {v : Value} (plain : s.Plain v) :
    Value.Nested s.Item (s.arrays.size + s.maps.size + 1) v := by
  rw [← length_containers]
  exact Value.nested_of_acyclic s.among_items plain.acyclic

/-- What stands in an array or in a map may be compared with a bound that is less by one. -/
theorem Plain.sameFrom_item_iff {v x y : Value} (plain : s.Plain v)
    (notTuple : ∀ items, v ≠ .tuple items) (item : s.Item x v) :
    s.sameFrom (s.arrays.size + s.maps.size) x y = true ↔ s.equals x y = true := by
  cases plain.nested with
  | tuple => exact absurd rfl (notTuple _)
  | cell nested =>
    have nested := nested x item
    exact ⟨sameFrom_of_nested nested (Nat.le_refl _) (Nat.le_succ _),
      sameFrom_of_nested nested (Nat.le_succ _) (Nat.le_refl _)⟩

theorem Plain.equals_self {v : Value} (plain : s.Plain v) : s.equals v v = true :=
  sameFrom_self _ v plain

theorem equals_tuple {as bs : List Value} : s.equals (.tuple as) (.tuple bs) = true ↔
    List.Forall₂ (fun a b => s.equals a b = true) as bs := by
  rw [equals, sameFrom, sameItems_iff]
  rfl

theorem Plain.equals_array {i j : ArrayId} (plain : s.Plain (.array i)) :
    s.equals (.array i) (.array j) = true ↔
      List.Forall₂ (fun a b => s.equals a b = true) (s.array i).toList (s.array j).toList := by
  have bound {x y : Value} (mem : x ∈ (s.array i).toList) :=
    plain.sameFrom_item_iff (y := y) nofun (.array mem)
  constructor
  · intro equal
    cases alike_of_sameFrom equal with
    | one => exact List.forall₂_same.mpr fun x mem => (plain.item (.array mem)).equals_self
    | array isSucc items =>
      obtain rfl := Nat.succ.inj isSucc
      exact forall₂_imp items fun x mem y => (bound mem).mp
  · exact fun items => sameFrom_of_alike (.array rfl (forall₂_imp items fun x mem y => (bound mem).mpr))

/-- Maps have the same keys, and equal values for each. -/
def EqualEntries (s : Store) (m m' : OrderedMap Value) : Prop :=
  (∀ key, m.contains key = m'.contains key) ∧
    ∀ key x y, m.get? key = some x → m'.get? key = some y → s.equals x y = true

theorem Plain.equals_map {i j : MapId} (plain : s.Plain (.map i)) :
    s.equals (.map i) (.map j) = true ↔ s.EqualEntries (s.map i) (s.map j) := by
  have bound {key : String} {x y : Value} (there : (s.map i).get? key = some x) :=
    plain.sameFrom_item_iff (y := y) nofun (.map (OrderedMap.get?_eq_some_iff.mp there))
  constructor
  · intro equal
    cases alike_of_sameFrom equal with
    | one =>
      refine ⟨fun key => rfl, fun key x y there there' => ?_⟩
      obtain rfl := Option.some.inj (there.symm.trans there')
      exact (plain.item (.map (OrderedMap.get?_eq_some_iff.mp there))).equals_self
    | map isSucc size entries =>
      obtain rfl := Nat.succ.inj isSucc
      refine ⟨fun key => ?_, fun key x y there there' => (bound there).mp ?_⟩
      · rw [Bool.eq_iff_iff, Rows.contains_iff, Rows.contains_iff]
        exact (entries.keys size).mem_iff
      · obtain ⟨found, there'', same⟩ := entries (key, x) (OrderedMap.get?_eq_some_iff.mp there)
        obtain rfl := Option.some.inj (there''.symm.trans there')
        exact same
  · rintro ⟨keys, values⟩
    refine sameFrom_of_alike (.map rfl (OrderedMap.size_eq_of_contains keys) fun entry mem => ?_)
    have there := OrderedMap.get?_eq_some_iff.mpr mem
    have known : (s.map j).contains entry.1 = true := by
      rw [← keys, Rows.contains, there]
      rfl
    obtain ⟨found, there'⟩ := Option.isSome_iff_exists.mp known
    exact ⟨found, there', (bound there).mpr (values _ _ _ there there')⟩

/-- The equality of scripts is an equivalence. A value of which no part is not a number is equal to
itself; whatever is equal is so either way, and equal to what the other one is equal to. Values of
different kinds are never equal. Tuples, and arrays without cycles, are equal if they are as long and
equal item by item. Maps without cycles are equal if they have the same keys and equal values for
each, in whatever order these were inserted. And no answer depends on how many cells may be entered. -/
theorem equality_law (s : Store) :
    (∀ a, s.Plain a → s.equals a a = true) ∧
    (∀ a b, s.equals a b = true → s.equals b a = true) ∧
    (∀ a b c, s.equals a b = true → s.equals b c = true → s.equals a c = true) ∧
    (∀ a b, a.typeName ≠ b.typeName → s.equals a b = false) ∧
    (∀ as bs, s.equals (.tuple as) (.tuple bs) = true ↔
      List.Forall₂ (fun a b => s.equals a b = true) as bs) ∧
    (∀ i j, s.Plain (.array i) → (s.equals (.array i) (.array j) = true ↔
      List.Forall₂ (fun a b => s.equals a b = true) (s.array i).toList (s.array j).toList)) ∧
    (∀ i j, s.Plain (.map i) →
      (s.equals (.map i) (.map j) = true ↔ s.EqualEntries (s.map i) (s.map j)) ∧
      ((s.map i).entries.Perm (s.map j).entries → s.equals (.map i) (.map j) = true)) ∧
    ∀ a b, s.Plain a → ∀ fuel, s.arrays.size + s.maps.size < fuel →
      s.sameFrom fuel a b = s.equals a b := by
  refine ⟨fun a plain => plain.equals_self, fun a b => sameFrom_symm _ a,
    fun a b c => sameFrom_trans _ a, fun a b differ => ?_, fun as bs => equals_tuple,
    fun i j plain => plain.equals_array, fun i j plain => ⟨plain.equals_map, fun perm => ?_⟩,
    fun a b plain fuel enough => ?_⟩
  · exact Bool.eq_false_iff.mpr fun equal => differ (typeName_of_sameFrom equal)
  · refine plain.equals_map.mpr ⟨fun key => ?_, fun key x y there there' => ?_⟩
    · rw [Bool.eq_iff_iff, Rows.contains_iff, Rows.contains_iff]
      exact (perm.map _).mem_iff
    · have mem := OrderedMap.get?_eq_some_iff.mp there
      have mem' := perm.mem_iff.mp mem
      obtain rfl := Option.some.inj ((OrderedMap.get?_eq_some_iff.mpr mem').symm.trans there')
      exact (plain.item (.map mem)).equals_self
  · exact Bool.eq_iff_iff.mpr ⟨sameFrom_of_nested plain.nested enough (Nat.le_refl _),
      sameFrom_of_nested plain.nested (Nat.le_refl _) enough⟩

/-- Two maps with the same entries, inserted the other way round. -/
def shuffled : Store :=
  { Store.empty with
    maps := #[⟨⟨#[("a", .bool true), ("b", .number 1)]⟩, by decide⟩,
      ⟨⟨#[("b", .number 1), ("a", .bool true)]⟩, by decide⟩] }

theorem plain_shuffled : shuffled.Plain (.map 0) := by
  have items {x : Value} (item : shuffled.Item x (.map 0)) : x = .bool true ∨ x = .number 1 := by
    cases item with
    | map mem =>
      rcases List.mem_pair.mp mem with same | same <;> cases same
      · exact .inl rfl
      · exact .inr rfl
  refine ⟨Value.acyclic_of_acc ⟨_, fun x item => ⟨_, fun y below => ?_⟩⟩, fun x within => ?_⟩
  · rcases items item with rfl | rfl <;> cases below
  · rcases within.cases_tail with same | ⟨y, within, item⟩
    · cases same
    · rcases items item with rfl | rfl <;> rcases within.cases_tail with same | ⟨z, -, below⟩
      · cases same
      · cases below
      · cases same
        decide
      · cases below

theorem equality_law_of_shuffled :
    shuffled.Plain (.map 0) ∧
      (shuffled.map 0).entries.Perm (shuffled.map 1).entries ∧
      shuffled.equals (.map 0) (.map 1) = true ∧ shuffled.equals (.map 1) (.map 0) = true ∧
      shuffled.equals (.tuple [.map 0]) (.tuple [.map 1]) = true ∧
      shuffled.equals (.map 0) (.array 0) = false := by
  obtain ⟨-, symm, -, kinds, tuples, -, maps, -⟩ := equality_law shuffled
  have perm : (shuffled.map 0).entries.Perm (shuffled.map 1).entries := .swap _ _ _
  have equal := (maps 0 1 plain_shuffled).2 perm
  exact ⟨plain_shuffled, perm, equal, symm _ _ equal, (tuples _ _).mpr (.cons equal .nil),
    kinds _ _ (by decide)⟩

end Store

end ScriptEngine
