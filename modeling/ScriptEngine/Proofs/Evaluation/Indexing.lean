import ScriptEngine.Proofs.Decimal.Value
import ScriptEngine.Proofs.Evaluation.Regime
import ScriptEngine.Proofs.Host.Maps
import ScriptEngine.Proofs.Store.Cells

/-!
# Methods that take a position

An item of an array is read, replaced and taken out by its position, and a value is put between two
items. The position is a number, and not every number stands for one: then the method fails and nothing
changes.

* `PositionMethod`: the methods, and what each of them does to a list.
* `PositionMethod.Reaches`: the position that a number stands for.
* `Eval.callMethod_somewhere`, `Eval.callMethod_nowhere`: the methods of arrays.
* `PositionMethod.call_somewhere`, `PositionMethod.call_nowhere`: the methods of lists of the host.
* `Eval.positions_exact`: both of them do to the right item what they have to do, or nothing.
-/

namespace ScriptEngine

/-- A method that takes a position. -/
inductive PositionMethod
  | get | set | remove | insert
deriving Repr, DecidableEq

namespace PositionMethod

/-- How the method is called. -/
def name : PositionMethod → String
  | .get => "get"
  | .set => "set"
  | .remove => "remove"
  | .insert => "insert"

/-- How many positions there are in a list of this length: those of the items, or the places between
them and at both ends. -/
def room (length : Nat) : PositionMethod → Nat
  | .insert => length + 1
  | _ => length

/-- A number stands for a position in a list of this length. -/
def Reaches (method : PositionMethod) (x : Float) (length position : Nat) : Prop :=
  position < method.room length ∧ Decimal.value? x = some (position : ℚ)

/-- The list after the method. -/
def after {α : Type} (items : List α) (position : Nat) (value : α) : PositionMethod → List α
  | .get => items
  | .set => items.set position value
  | .remove => items.eraseIdx position
  | .insert => items.insertIdx position value

/-- What the method of an array answers: the item that is read or taken out. -/
def answer (items : List Value) (position : Nat) : PositionMethod → Value
  | .get | .remove => items.getD position .null
  | .set | .insert => .unit

/-- The position is looked for by the items, or by the places between them. -/
def position? (x : Float) (length : Nat) : PositionMethod → Option Nat
  | .insert => Decimal.gap? x length
  | _ => Decimal.position? x length

theorem position?_eq_some_iff {method : PositionMethod} {x : Float} {length position : Nat}
    (short : method.room length < 2 ^ 64) :
    method.position? x length = some position ↔ method.Reaches x length position := by
  cases method with
  | insert => rw [position?, Decimal.gap?_eq_some_iff short, Reaches, room, Nat.lt_succ_iff]
  | _ => exact Decimal.position?_eq_some_iff short

theorem position?_eq_none {method : PositionMethod} {x : Float} {length : Nat}
    (short : method.room length < 2 ^ 64) (nowhere : ∀ position, ¬ method.Reaches x length position) :
    method.position? x length = none := by
  rw [Option.eq_none_iff_forall_ne_some]
  exact fun position found => nowhere position ((position?_eq_some_iff short).mp found)

end PositionMethod

theorem getD_eq_toList {α : Type} (items : Array α) (position : Nat) (default : α) :
    items.getD position default = items.toList.getD position default := by
  rw [Array.getD_eq_getD_getElem?, List.getD_eq_getElem?_getD, Array.getElem?_toList]

/-! ## Arrays -/

/-- The world with other items in an array. -/
def World.withItems (w : World) (id : ArrayId) (items : List Value) : World :=
  { w with store := w.store.modifyArray id fun _ => items.toArray }

theorem World.withItems_eq {w : World} {id : ArrayId} {f : Array Value → Array Value}
    {items : List Value} (same : f (w.store.array id) = items.toArray) :
    { w with store := w.store.modifyArray id f } = w.withItems id items := by
  rw [withItems, Store.modifyArray, Store.modifyArray, Store.modify_eq_of_getD same]

theorem World.withItems_self (w : World) (id : ArrayId) :
    w.withItems id (w.store.array id).toList = w := by
  have kept : w.store.modifyArray id (fun items => items) = w.store := by
    rw [Store.modifyArray]
    congr 1
    refine Array.ext_getElem? fun other => ?_
    rw [Array.getElem?_modify]
    split <;> simp
  rw [← withItems_eq (f := fun items => items) Array.toArray_toList.symm, kept]

theorem World.withItems_withItems (w : World) (id : ArrayId) (items items' : List Value) :
    (w.withItems id items).withItems id items' = w.withItems id items' := by
  have twice : (w.store.modifyArray id fun _ => items.toArray).modifyArray id
      (fun _ => items'.toArray) = w.store.modifyArray id fun _ => items'.toArray := by
    rw [Store.modifyArray, Store.modifyArray, Store.modifyArray]
    congr 1
    refine Array.ext_getElem? fun other => ?_
    rw [Array.getElem?_modify, Array.getElem?_modify, Array.getElem?_modify]
    split
    · exact Option.map_map ..
    · rfl
  rw [withItems, withItems, withItems, twice]

theorem World.array_withItems {w : World} {id : ArrayId} (there : id < w.store.arrays.size)
    (items : List Value) : (w.withItems id items).store.array id = items.toArray := by
  show (w.store.modifyArray id _).array id = _
  rw [Store.array_modifyArray, if_pos ⟨rfl, there⟩]

namespace Eval

variable {machine : Machine} {env : EnvId} {viewer : Option EntityRef} {w : World} {id : ArrayId}

theorem argument_one (x : Float) (rest : List Value) :
    Value.argument (.number x :: rest) 1 = rest.headD .null := by
  cases rest <;> rfl

/-- The two methods after which the items stand at other positions. -/
theorem callMethod_remove (x : Float) (rest : List Value) :
    callMethod machine (.array id) "remove" (.number x :: rest) viewer env w =
      ((Decimal.position? x (w.store.array id).size).elim
        (panic (.outOfBounds x (w.store.array id).size)) fun position => do
          let removed ← ask fun s => (s.array id).getD position .null
          change (·.modifyArray id (·.eraseIdxIfInBounds position))
          return removed) env w := by
  show arrayMethod machine .remove (.array id) id "remove" (.number x :: rest) env w = _
  have given : (Value.array id).numberArgument "remove" (.number x :: rest) 0 = .ok x := rfl
  simp only [arrayMethod, given, ofExcept, pure_bind, bind_eq, ask, Progress.bind]
  cases Decimal.position? x (w.store.array id).size <;> rfl

theorem callMethod_insert (x : Float) (rest : List Value) :
    callMethod machine (.array id) "insert" (.number x :: rest) viewer env w =
      ((Decimal.gap? x (w.store.array id).size).elim
        (panic (.outOfBounds x (w.store.array id).size)) fun position => do
          change (·.modifyArray id fun items =>
            items.insertIdxIfInBounds position (Value.argument (.number x :: rest) 1))
          return .unit) env w := by
  show arrayMethod machine .insert (.array id) id "insert" (.number x :: rest) env w = _
  have given : (Value.array id).numberArgument "insert" (.number x :: rest) 0 = .ok x := rfl
  simp only [arrayMethod, given, ofExcept, pure_bind, bind_eq, ask, Progress.bind]
  cases Decimal.gap? x (w.store.array id).size <;> rfl

/-- A method of an array looks for the position, and panics if there is none, -/
theorem callMethod_nowhere {method : PositionMethod} {x : Float} (rest : List Value)
    (nowhere : method.position? x (w.store.array id).size = none) :
    callMethod machine (.array id) method.name (.number x :: rest) viewer env w =
      .stopped (.signal (.panic (.outOfBounds x (w.store.array id).size))) w := by
  cases method with
  | get =>
    have nowhere : Decimal.position? x (w.store.array id).size = none := nowhere
    show ofExcept (arrayItem (w.store.array id) x) env w = _
    rw [arrayItem, nowhere]
    rfl
  | set =>
    have nowhere : Decimal.position? x (w.store.array id).size = none := nowhere
    show (setArrayItem id x (Value.argument (.number x :: rest) 1) >>= fun _ =>
      pure Value.unit) env w = _
    rw [bind_eq, setArrayItem, bind_eq, ask, Progress.bind, nowhere]
    rfl
  | remove =>
    have nowhere : Decimal.position? x (w.store.array id).size = none := nowhere
    refine (callMethod_remove x rest).trans ?_
    rw [nowhere]
    rfl
  | insert =>
    have nowhere : Decimal.gap? x (w.store.array id).size = none := nowhere
    refine (callMethod_insert x rest).trans ?_
    rw [nowhere]
    rfl

/-- and does its work there otherwise. -/
theorem callMethod_somewhere {method : PositionMethod} {x : Float} {position : Nat}
    (rest : List Value)
    (found : method.position? x (w.store.array id).size = some position)
    (inside : position < method.room (w.store.array id).size) :
    callMethod machine (.array id) method.name (.number x :: rest) viewer env w =
      .done (method.answer (w.store.array id).toList position)
        (w.withItems id (method.after (w.store.array id).toList position (rest.headD .null))) := by
  rw [← argument_one x]
  cases method with
  | get =>
    have found : Decimal.position? x (w.store.array id).size = some position := found
    have inside : position < (w.store.array id).size := inside
    show ofExcept (arrayItem (w.store.array id) x) env w =
      .done ((w.store.array id).toList.getD position .null)
        (w.withItems id (w.store.array id).toList)
    rw [← getD_eq_toList, World.withItems_self, arrayItem, found, Option.bind_some,
      Array.getD_eq_getD_getElem?, Array.getElem?_eq_getElem inside]
    rfl
  | set =>
    have found : Decimal.position? x (w.store.array id).size = some position := found
    show (setArrayItem id x (Value.argument (.number x :: rest) 1) >>= fun _ =>
      pure Value.unit) env w = _
    rw [bind_eq, setArrayItem, bind_eq, ask, Progress.bind, found]
    refine congrArg (Progress.done _) (World.withItems_eq ?_)
    rw [← Array.toList_inj, Array.toList_setIfInBounds]
    rfl
  | remove =>
    have found : Decimal.position? x (w.store.array id).size = some position := found
    refine (callMethod_remove x rest).trans ?_
    rw [found]
    refine congrArg₂ Progress.done (getD_eq_toList ..) (World.withItems_eq ?_)
    rw [← Array.toList_inj, Array.toList_eraseIdxIfInBounds]
    rfl
  | insert =>
    have found : Decimal.gap? x (w.store.array id).size = some position := found
    refine (callMethod_insert x rest).trans ?_
    rw [found]
    exact congrArg (Progress.done _) (World.withItems_eq (List.insertIdxIfInBounds_toArray ..))

end Eval

/-! ## Lists of the host -/

namespace PositionMethod

/-- The arguments of a call. -/
def hostArgs (x : Float) (value : HostValue) : PositionMethod → List HostValue
  | .get | .remove => [.number x]
  | .set | .insert => [.number x, value]

/-- Why a list of the host has no such position. -/
def hostError (typeName : HostRef → String) (method : PositionMethod) (x : Float) (length : Nat) :
    HostError :=
  .failed (method.name ++ ": index " ++ (HostValue.number x).text typeName ++
    " out of bounds for length " ++ Decimal.natText length)

variable {typeName : HostRef → String} {l : HostList} {method : PositionMethod} {x : Float}

theorem indexOf_eq (listed : method ≠ .insert) :
    HostList.indexOf typeName (.number x) l.size method.name =
      match method.position? x l.size with
      | some position => .ok position
      | none => .error (method.hostError typeName x l.size) := by
  cases method with
  | insert => exact absurd rfl listed
  | _ => rfl

/-- A method of a list of the host looks for the position, and fails if there is none, -/
theorem call_nowhere (value : HostValue) (listed : method ≠ .insert)
    (nowhere : method.position? x l.size = none) :
    HostList.call typeName l method.name (method.hostArgs x value) =
      .error (method.hostError typeName x l.size) := by
  have fails : HostList.indexOf typeName (.number x) l.size method.name = _ := indexOf_eq listed
  rw [nowhere] at fails
  cases method with
  | insert => exact absurd rfl listed
  | _ =>
    show (HostList.indexOf typeName (.number x) l.size _ >>= _) = _
    rw [fails]
    rfl

/-- and does its work there otherwise. -/
theorem call_somewhere (value : HostValue) (listed : method ≠ .insert) {position : Nat}
    (found : method.position? x l.size = some position) :
    HostList.call typeName l method.name (method.hostArgs x value) =
      .ok (l.toList.getD position .null, (method.after l.toList position value).toArray) := by
  have finds : HostList.indexOf typeName (.number x) l.size method.name = _ := indexOf_eq listed
  rw [found] at finds
  rw [← getD_eq_toList]
  cases method with
  | insert => exact absurd rfl listed
  | get =>
    show (HostList.indexOf typeName (.number x) l.size "get" >>= _) = _
    have finds : HostList.indexOf typeName (.number x) l.size "get" = .ok position := finds
    rw [finds, after, Array.toArray_toList]
    rfl
  | set =>
    show (HostList.indexOf typeName (.number x) l.size "set" >>= _) = _
    have finds : HostList.indexOf typeName (.number x) l.size "set" = .ok position := finds
    rw [finds, after, ← Array.toList_setIfInBounds, Array.toArray_toList]
    rfl
  | remove =>
    show (HostList.indexOf typeName (.number x) l.size "remove" >>= _) = _
    have finds : HostList.indexOf typeName (.number x) l.size "remove" = .ok position := finds
    rw [finds, after, ← Array.toList_eraseIdxIfInBounds, Array.toArray_toList]
    rfl

end PositionMethod

/-! ## All together -/

/-- What the methods do that take a position. A list is not too long for a memory of 64-bit addresses. -/
structure PositionsExact (machine : Machine) (env : EnvId) (viewer : Option EntityRef) : Prop where
  /-- If a number stands for a position of an array, the method does its work there and changes nothing
  else. -/
  array {w : World} {id : ArrayId} {method : PositionMethod} {x : Float} {position : Nat}
    (rest : List Value) : id < w.store.arrays.size →
    method.room (w.store.array id).size < 2 ^ 64 →
    method.Reaches x (w.store.array id).size position →
    ∃ w', Eval.callMethod machine (.array id) method.name (.number x :: rest) viewer env w =
        .done (method.answer (w.store.array id).toList position) w' ∧
      (w'.store.array id).toList =
        method.after (w.store.array id).toList position (rest.headD .null) ∧
      w' = w.withItems id (w'.store.array id).toList
  /-- Otherwise it panics and changes nothing. -/
  arrayFails {w : World} {id : ArrayId} {method : PositionMethod} {x : Float} (rest : List Value) :
    method.room (w.store.array id).size < 2 ^ 64 →
    (∀ position, ¬ method.Reaches x (w.store.array id).size position) →
    Eval.callMethod machine (.array id) method.name (.number x :: rest) viewer env w =
      .stopped (.signal (.panic (.outOfBounds x (w.store.array id).size))) w
  /-- What has been inserted is taken out again where it was inserted, and then all is as before. -/
  restored {w : World} {id : ArrayId} {x : Float} {position : Nat} (rest rest' : List Value) :
    id < w.store.arrays.size →
    PositionMethod.insert.room (w.store.array id).size < 2 ^ 64 →
    PositionMethod.insert.Reaches x (w.store.array id).size position →
    ∃ w', Eval.callMethod machine (.array id) "insert" (.number x :: rest) viewer env w =
        .done .unit w' ∧
      Eval.callMethod machine (.array id) "remove" (.number x :: rest') viewer env w' =
        .done (rest.headD .null) w
  /-- The same is true of the lists of the host, into which nothing can be inserted: a method answers with
  the item that was there before. -/
  host {w : World} {ref : HostRef} {l : HostList} {method : PositionMethod} {x : Float}
    {position : Nat} (value : HostValue) : w.store.host? ref = some (.list l) → method ≠ .insert →
    method.room l.size < 2 ^ 64 → method.Reaches x l.size position →
    ∃ item, l[position]? = some item ∧
      Eval.callHost machine ref method.name (method.hostArgs x value) env w = .done (.ok item)
        (w.withHost ref (.list (method.after l.toList position value).toArray))
  /-- It fails if there is no such position. -/
  hostFails {w : World} {ref : HostRef} {l : HostList} {method : PositionMethod} {x : Float}
    (value : HostValue) : w.store.host? ref = some (.list l) → method ≠ .insert →
    method.room l.size < 2 ^ 64 → (∀ position, ¬ method.Reaches x l.size position) →
    Eval.callHost machine ref method.name (method.hostArgs x value) env w =
      .done (.error (method.hostError w.store.hostTypeName x l.size)) w

/-- A method that takes a position does its work there and nothing else, or fails and does nothing. -/
theorem Eval.positions_exact (machine : Machine) (env : EnvId) (viewer : Option EntityRef) :
    PositionsExact machine env viewer where
  array {w id method x position} rest there short reaches := by
    have found := (PositionMethod.position?_eq_some_iff short).mpr reaches
    refine ⟨_, callMethod_somewhere rest found reaches.1, ?_, ?_⟩
    · rw [World.array_withItems there]
    · rw [World.array_withItems there]
  arrayFails rest short nowhere :=
    callMethod_nowhere rest (PositionMethod.position?_eq_none short nowhere)
  restored {w id x position} rest rest' there short reaches := by
    have found := (PositionMethod.position?_eq_some_iff short).mpr reaches
    have le : position ≤ (w.store.array id).toList.length := Nat.le_of_lt_succ reaches.1
    refine ⟨_, callMethod_somewhere rest found reaches.1, ?_⟩
    generalize after_def : PositionMethod.insert.after (w.store.array id).toList position
      (rest.headD .null) = after
    have items := World.array_withItems there after
    have size : ((w.withItems id after).store.array id).size = (w.store.array id).size + 1 := by
      rw [items, List.size_toArray, ← after_def]
      exact List.length_insertIdx_of_le_length le _
    have inside : position < PositionMethod.remove.room
        ((w.withItems id after).store.array id).size := size ▸ reaches.1
    have again := (PositionMethod.position?_eq_some_iff (size ▸ short)).mpr ⟨inside, reaches.2⟩
    refine (callMethod_somewhere rest' again inside).trans ?_
    rw [items, World.withItems_withItems, ← after_def]
    refine congrArg₂ Progress.done ?_ ?_
    · show (List.insertIdx _ position _).getD position Value.null = _
      rw [List.getD_eq_getElem?_getD, List.getElem?_insertIdx_self, if_pos le, Option.getD_some]
    · show w.withItems id ((List.insertIdx _ position _).eraseIdx position) = w
      rw [List.eraseIdx_insertIdx_self, World.withItems_self]
  host {w ref l method x position} value there listed short reaches := by
    have found := (PositionMethod.position?_eq_some_iff short).mpr reaches
    have inside : position < l.size := by
      cases method with
      | insert => exact absurd rfl listed
      | _ => exact reaches.1
    refine ⟨l[position], Array.getElem?_eq_getElem inside, callHost_ok there ?_⟩
    rw [HostObject.call?, PositionMethod.call_somewhere value listed found,
      List.getD_eq_getElem?_getD, Array.getElem?_toList, Array.getElem?_eq_getElem inside]
    rfl
  hostFails {w ref l method x} value there listed short nowhere := by
    refine callHost_error there ?_
    rw [HostObject.call?, PositionMethod.call_nowhere value listed
      (PositionMethod.position?_eq_none short nowhere)]
    rfl

/-- A world with an array of one item. -/
def World.oneItemSample : World :=
  { World.empty with store := { Store.empty with arrays := #[#[.bool true]] } }

/-- A value is inserted behind the only item, and one and a half is no position there. -/
theorem Eval.positions_exact_of_oneItem : ∃ w',
    callMethod ⟨fun goal => goal.run 0⟩ (.array 0) "insert" [.number 1.0, .unit] none 0
      .oneItemSample = .done .unit w' ∧
    callMethod ⟨fun goal => goal.run 0⟩ (.array 0) "remove" [.number 1.0] none 0 w' =
      .done .unit .oneItemSample ∧
    callMethod ⟨fun goal => goal.run 0⟩ (.array 0) "get" [.number 1.5] none 0 .oneItemSample =
      .stopped (.signal (.panic (.outOfBounds 1.5 1))) .oneItemSample := by
  have law := positions_exact ⟨fun goal => goal.run 0⟩ 0 none
  have there : 0 < World.oneItemSample.store.arrays.size := by decide
  have one : PositionMethod.insert.Reaches 1.0 (World.oneItemSample.store.array 0).size 1 := by
    refine ⟨by decide, ?_⟩
    decide +kernel
  have none : ∀ position,
      ¬ PositionMethod.get.Reaches 1.5 (World.oneItemSample.store.array 0).size position := by
    rintro position ⟨inside, same⟩
    obtain rfl : position = 0 := Nat.lt_one_iff.mp inside
    exact absurd same (by decide +kernel)
  obtain ⟨w', inserted, removed⟩ := law.restored [.unit] [] there (by decide) one
  exact ⟨w', inserted, removed, law.arrayFails [] (by decide) none⟩

end ScriptEngine
