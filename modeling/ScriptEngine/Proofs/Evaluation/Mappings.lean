import ScriptEngine.Proofs.Evaluation.Iteration
import ScriptEngine.Proofs.Store.Cells

/-!
# Methods of maps

What a method answers of a map is told by the changes that have been made of the map, and what methods
have changed is told by adding their changes to these. A key must not show the map that it is put into or
removed from: there is no end then.

* `MapMethod.changes`: the changes that a method makes.
* `MapMethod.Answers`: what a method answers of a map of a history, and the world it leaves.
* `Eval.callMethod_mapping`, `Eval.callMethod_answers`: a call of a method.
* `Eval.CallsMap`, `Eval.CallsMap.map_eq`: calls one after another.
* `Eval.maps_follow_history`: maps and their methods.
-/

namespace ScriptEngine

open OrderedMap (Change Holds Lists after after_concat get?_after mem_keys_after lists_after)

/-- The world with other entries in a map. -/
def World.withEntries (w : World) (id : MapId) (entries : OrderedMap Value) : World :=
  { w with store := w.store.modifyMap id fun _ => entries }

theorem World.map_withEntries {w : World} {id : MapId} (there : id < w.store.maps.size)
    (entries : OrderedMap Value) : (w.withEntries id entries).store.map id = entries := by
  show (w.store.modifyMap id _).map id = _
  rw [Store.map_modifyMap, if_pos ⟨rfl, there⟩]

theorem World.withEntries_eq {w : World} {id : MapId} {f : OrderedMap Value → OrderedMap Value}
    {entries : OrderedMap Value} (same : f (w.store.map id) = entries) :
    { w with store := w.store.modifyMap id f } = w.withEntries id entries := by
  rw [withEntries, Store.modifyMap, Store.modifyMap, Store.modify_eq_of_getD same]

namespace MapMethod

/-- The changes that a method makes of a map when it is called with a key and a value. -/
def changes (key : String) (value : Value) : MapMethod → List (Change Value)
  | .put => [.insert key value]
  | .remove => [.erase key]
  | _ => []

/-- The value that a key holds, or null. -/
def LooksUp (history : List (Change Value)) (key : String) (answer : Value) : Prop :=
  Holds history key answer ∨ answer = .null ∧ ∀ value, ¬ Holds history key value

/-- What a method answers of a map of a history in a world, and the world behind it. -/
def Answers (method : MapMethod) (id : MapId) (history : List (Change Value)) (key : String)
    (value : Value) (w : World) (answer : Value) (w' : World) : Prop :=
  match method with
  | .put | .remove => LooksUp history key answer ∧
    w' = w.withEntries id (after (history ++ method.changes key value))
  | .get => LooksUp history key answer ∧ w' = w
  | .containsKey => ∃ present, (present = true ↔ ∃ value, Holds history key value) ∧
    answer = .bool present ∧ w' = w
  | .keys => ∃ entries, Lists history entries ∧
    (answer, w') = w.withArray (entries.map fun entry => .string entry.1)
  | .values => ∃ entries, Lists history entries ∧ (answer, w') = w.withArray (entries.map (·.2))
  | .size => ∃ entries, Lists history entries ∧ answer = .ofNat entries.length ∧ w' = w
  | .isEmpty => ∃ entries, Lists history entries ∧ answer = .bool entries.isEmpty ∧ w' = w

theorem looksUp_get? (history : List (Change Value)) (key : String) :
    LooksUp history key (((after history).get? key).getD .null) := by
  cases found : (after history).get? key with
  | some value => exact .inl ((get?_after history key value).mp found)
  | none =>
    refine .inr ⟨rfl, fun value holds => ?_⟩
    cases found.symm.trans ((get?_after history key value).mpr holds)

end MapMethod

namespace Eval

variable {machine : Machine} {env : EnvId} {viewer : Option EntityRef} {w w' : World} {id : MapId}
  {history : List (Change Value)} {name : String} {method : MapMethod} {args : List Value}

theorem hasMethod_mapping (known : MapMethod.ofName? name = some method) :
    (Value.map id).hasMethod name = true := by
  show (name == Value.textMethod || (MapMethod.ofName? name).isSome) = true
  rw [known]
  exact Bool.or_true _

/-- The name of a method of maps is not that of the method of all values. -/
theorem ne_textMethod (known : MapMethod.ofName? name = some method) :
    (name == Value.textMethod) = false := by
  refine beq_false_of_ne ?_
  rintro rfl
  cases known

/-- A call of a method by its name. -/
theorem callMethod_mapping (known : MapMethod.ofName? name = some method) :
    callMethod machine (.map id) name args viewer env w = mapMethod method id args env w := by
  unfold callMethod builtinMethod
  simp only [hasMethod_mapping known, ne_textMethod known, known, if_true, if_false,
    Bool.false_eq_true]

/-- The text of a key that does not show the map. -/
theorem keyInto_of_hidden {key : Value} (hidden : w.store.shows id Store.shownLevels key = false) :
    keyInto id key env w = .done (w.store.keyOf key) w := by
  rw [keyInto, bind_eq, ask, Progress.bind, hidden]
  rfl

/-- A method that may be called answers what it has to. -/
theorem callMethod_answers (known : MapMethod.ofName? name = some method)
    (told : w.store.map id = after history)
    (hidden : method = .put ∨ method = .remove →
      w.store.shows id Store.shownLevels (Value.argument args 0) = false) :
    ∃ answer w', callMethod machine (.map id) name args viewer env w = .done answer w' ∧
      method.Answers id history (w.store.keyOf (Value.argument args 0)) (Value.argument args 1) w
        answer w' := by
  rw [callMethod_mapping known]
  have looksUp := MapMethod.looksUp_get? history (w.store.keyOf (Value.argument args 0))
  have lists := lists_after history
  rw [← told] at looksUp lists
  cases method with
  | put =>
    refine ⟨_, _, ?_, looksUp, rfl⟩
    rw [mapMethod, bind_eq, keyInto_of_hidden (hidden (.inl rfl))]
    refine congrArg (Progress.done _) (World.withEntries_eq ?_)
    rw [told]
    exact (after_concat history (.insert _ _)).symm
  | remove =>
    refine ⟨_, _, ?_, looksUp, rfl⟩
    rw [mapMethod, bind_eq, keyInto_of_hidden (hidden (.inr rfl))]
    refine congrArg (Progress.done _) (World.withEntries_eq ?_)
    rw [told]
    exact (after_concat history (.erase _)).symm
  | get => exact ⟨_, _, rfl, looksUp, rfl⟩
  | containsKey =>
    refine ⟨_, _, rfl, _, ?_, rfl, rfl⟩
    rw [told, Rows.contains_iff, mem_keys_after]
  | keys =>
    have keys : (w.store.map id).keys.map Value.string = _ := List.map_map
    exact ⟨_, _, rfl, _, lists, congrArg w.withArray keys⟩
  | values => exact ⟨_, _, rfl, _, lists, rfl⟩
  | size => exact ⟨_, _, rfl, _, lists, congrArg Value.ofNat Array.length_toList.symm, rfl⟩
  | isEmpty => exact ⟨_, _, rfl, _, lists, congrArg Value.bool Array.isEmpty_toList.symm, rfl⟩

/-- The map behind a call is that of the changes up to then. -/
theorem map_of_answers {key : String} {value answer : Value} (there : id < w.store.maps.size)
    (told : w.store.map id = after history)
    (answers : method.Answers id history key value w answer w') :
    id < w'.store.maps.size ∧ w'.store.map id = after (history ++ method.changes key value) := by
  cases method with
  | put | remove =>
    obtain ⟨-, rfl⟩ := answers
    exact ⟨there.trans_eq Array.size_modify.symm, World.map_withEntries there _⟩
  | keys | values =>
    obtain ⟨entries, -, same⟩ := answers
    obtain rfl := congrArg Prod.snd same
    exact ⟨there, told.trans (congrArg after (List.append_nil _).symm)⟩
  | get =>
    obtain ⟨-, rfl⟩ := answers
    exact ⟨there, told.trans (congrArg after (List.append_nil _).symm)⟩
  | containsKey | size | isEmpty =>
    obtain ⟨_, -, -, rfl⟩ := answers
    exact ⟨there, told.trans (congrArg after (List.append_nil _).symm)⟩

/-! ## Calls one after another -/

/-- Methods of a map are called one after another: the world before them, the changes that they make and
the world behind them. -/
inductive CallsMap (machine : Machine) (env : EnvId) (viewer : Option EntityRef) (id : MapId) :
    World → List (Change Value) → World → Prop
  | nil (w : World) : CallsMap machine env viewer id w [] w
  | cons {w w' w'' : World} {name : String} {method : MapMethod} {args : List Value} {answer : Value}
    {changes : List (Change Value)} : MapMethod.ofName? name = some method →
    (method = .put ∨ method = .remove →
      w.store.shows id Store.shownLevels (Value.argument args 0) = false) →
    callMethod machine (.map id) name args viewer env w = .done answer w' →
    CallsMap machine env viewer id w' changes w'' →
    CallsMap machine env viewer id w (method.changes (w.store.keyOf (Value.argument args 0))
      (Value.argument args 1) ++ changes) w''

/-- So the map behind all of them is that of all the changes. -/
theorem CallsMap.map_eq {changes : List (Change Value)}
    (calls : CallsMap machine env viewer id w changes w') (there : id < w.store.maps.size)
    (told : w.store.map id = after history) :
    w'.store.map id = after (history ++ changes) := by
  induction calls generalizing history with
  | nil w => rw [told, List.append_nil]
  | cons known hidden called _ ih =>
    obtain ⟨answer, next, answered, answers⟩ := callMethod_answers known told hidden
    obtain ⟨rfl, rfl⟩ := Progress.done.inj (called.symm.trans answered)
    obtain ⟨there, told⟩ := map_of_answers there told answers
    rw [ih there told, List.append_assoc]

end Eval

/-! ## All together -/

/-- What is true of maps, and of the maps of scripts. -/
structure MapsFollowHistory (machine : Machine) (env : EnvId) (viewer : Option EntityRef) : Prop where
  /-- A map is what its changes make of it. -/
  history (history : List (Change Value)) : OrderedMap.FollowsHistory history
  /-- The map of some entries is that of their insertions, in order. -/
  list (entries : List (String × Value)) :
    OrderedMap.ofList entries = after (entries.map fun entry => .insert entry.1 entry.2)
  /-- There is no map that has not come from changes. -/
  told (m : OrderedMap Value) : ∃ history, m = after history
  /-- A method answers what the changes of the map say, and makes its own ones and no others. -/
  call {w : World} {id : MapId} {history : List (Change Value)} {name : String} {method : MapMethod}
    {args : List Value} : MapMethod.ofName? name = some method →
    w.store.map id = after history →
    (method = .put ∨ method = .remove →
      w.store.shows id Store.shownLevels (Value.argument args 0) = false) →
    ∃ answer w', Eval.callMethod machine (.map id) name args viewer env w = .done answer w' ∧
      method.Answers id history (w.store.keyOf (Value.argument args 0)) (Value.argument args 1) w
        answer w'
  /-- Whatever methods are called one after another, the map behind them is that of all their changes. -/
  calls {w w' : World} {id : MapId} {history changes : List (Change Value)} :
    Eval.CallsMap machine env viewer id w changes w' → id < w.store.maps.size →
    w.store.map id = after history → w'.store.map id = after (history ++ changes)

/-- A map is told by its changes, and so are the answers of its methods. -/
theorem Eval.maps_follow_history (machine : Machine) (env : EnvId) (viewer : Option EntityRef) :
    MapsFollowHistory machine env viewer where
  history := OrderedMap.follows_history
  list := OrderedMap.ofList_eq_after
  told := OrderedMap.exists_history
  call := callMethod_answers
  calls := CallsMap.map_eq

/-- A world with a map without entries. -/
def World.emptyMapSample : World :=
  { World.empty with store := { Store.empty with maps := #[.empty] } }

/-- What has been put into a map without entries is found there. -/
theorem Eval.maps_follow_history_of_put : ∃ w',
    callMethod ⟨fun goal => goal.run 0⟩ (.map 0) "put" [.string "a", .bool true] none 0
      .emptyMapSample = .done .null w' ∧
    callMethod ⟨fun goal => goal.run 0⟩ (.map 0) "get" [.string "a"] none 0 w' =
      .done (.bool true) w' := by
  have law := maps_follow_history ⟨fun goal => goal.run 0⟩ 0 none
  obtain ⟨old, w', put, nothing, rfl⟩ :=
    @law.call .emptyMapSample 0 [] "put" .put [.string "a", .bool true] rfl rfl fun _ => rfl
  obtain rfl : old = .null := nothing.elim (absurd · OrderedMap.not_holds_nil) And.left
  have told := World.map_withEntries (show 0 < World.emptyMapSample.store.maps.size by decide)
    (after [.insert "a" (.bool true)])
  obtain ⟨value, w', get, found, rfl⟩ :=
    @law.call _ 0 _ "get" .get [.string "a"] rfl told (by rintro (no | no) <;> cases no)
  have last : Holds [.insert "a" (Value.bool true)] "a" (.bool true) := ⟨[], [], rfl, nofun⟩
  rcases found with holds | ⟨-, absent⟩
  · have value? := (law.history [.insert "a" (.bool true)]).value "a"
    obtain rfl : Value.bool true = value :=
      Option.some.inj (((value? _).mpr last).symm.trans ((value? _).mpr holds))
    exact ⟨_, put, get⟩
  · exact absurd last (absent _)

end ScriptEngine
