import ScriptEngine.Evaluation.Run
import ScriptEngine.Proofs.Evaluation.Regime
import ScriptEngine.Proofs.Store.Cells

/-!
# Reading and writing places

A place leads to a cell, or cannot be assigned. Writing it puts the value into the cell and reading it
gives what the cell holds, and after a write it still leads to the same cell.

* `Place.cell?`: the cell that a place leads to, as a frame sees it.
* `Place.Hosted`: the host keeps what is in the place.
* `Eval.writes_writePlace`, `Eval.reads_readPlace`: what writing and reading a place come to.
* `Place.cell?_put`: a place leads to the same cell after it has been written.
* `Place.write_then_read`: a value that has been written is read again, and nothing else has changed.
-/

namespace ScriptEngine

/-! ## The cell that a place leads to -/

namespace Store

/-- A viewer may see a member of an entity. -/
def admits (s : Store) (entity : EntityRef) (name : String) (viewer : Option EntityRef) : Bool :=
  !isPrivateName name || viewer.any fun viewer => s.related viewer entity

/-- The cell of a member of a value, as the viewer sees it. -/
def memberCell? (s : Store) (viewer : Option EntityRef) : Value → String → Option Cell
  | .entity entity, name =>
    if s.admits entity name viewer then some (.member (s.target entity name) name) else none
  | .map id, name => some (.entry id name)
  | _, _ => none

/-- The cell of what a value holds under an index, as the viewer sees it. -/
def itemCell? (s : Store) (viewer : Option EntityRef) : Value → Value → Option Cell
  | .array id, .number x => (Decimal.position? x (s.array id).size).map (.item id)
  | .map id, key => if s.shows id shownLevels key then none else some (.entry id (s.keyOf key))
  | .entity entity, .string name => s.memberCell? viewer (.entity entity) name
  | _, _ => none

/-- The cell of the item of a value at a position. -/
def positionCell? (s : Store) : Value → Nat → Option Cell
  | .array id, index => if index < (s.array id).size then some (.item id index) else none
  | _, _ => none

/-- The cell of a name in a frame: a slot, or a member of the entity that the frame belongs to. -/
def nameCell? (s : Store) (frame : FrameId) (name : String) : Option Cell :=
  match s.frames.slot? frame name with
  | some slot => some (.slot slot)
  | none => (s.frames.this? frame).map fun entity => .member (s.target entity name) name

/-- The host keeps the member of a value: the value is an object of the host, or an entity over one
that does not have the member itself. -/
def Hosted (s : Store) : Value → String → Prop
  | .external _, _ => True
  | .entity entity, name => s.member? entity name = none ∧ s.entityHost? entity ≠ none
  | _, _ => False

end Store

namespace Eval.Place

/-- The cell that a place leads to, as a frame sees it. -/
def cell? (s : Store) (frame : FrameId) : Place → Option Cell
  | .name n => s.nameCell? frame n
  | .member object n => s.memberCell? (s.frames.this? frame) object n
  | .item object index => s.itemCell? (s.frames.this? frame) object index
  | .position object index => s.positionCell? object index

/-- The host keeps what is in a place. -/
def Hosted (s : Store) : Place → Prop
  | .member object n => s.Hosted object n
  | .item (.entity entity) (.string n) => s.Hosted (.entity entity) n
  | .name _ | .item .. | .position .. => False

end Eval.Place

/-- The world in which a cell has another value. -/
def World.put (w : World) (value : Value) (cell : Cell) : World :=
  { w with store := w.store.put value cell }

namespace Eval

variable {m : Machine} {env : EnvId} {w : World} {frame : FrameId} {viewer : Option EntityRef}
  {object index value : Value} {name : String} {cell : Cell}

/-! ## Writing -/

/-- An evaluation puts a value into a cell, or stops and changes nothing if there is no cell. -/
def Writes (w : World) (value : Value) : Option Cell → Progress Unit → Prop
  | some cell, progress => progress = .done () (w.put value cell)
  | none, progress => ∃ stop, progress = .stopped stop w

/-- Assigning a name that a frame declares puts the value into the slot that the name means. -/
theorem assignName_of_slot? {name : String} {slot : SlotId} {value : Value}
    (means : w.store.frames.slot? frame name = some slot) :
    assignName frame name value env w =
      .done () { w with store.frames := w.store.frames.write slot value } := by
  rw [assignName, bind_eq, ask, Progress.bind, means]
  rfl

theorem change_setMember (entity : EntityRef) : change (·.setMember entity name value) env w =
    .done () (w.put value (.member (w.store.target entity name) name)) := by
  show Progress.done () { w with store := w.store.setMember entity name value } = _
  rw [Store.setMember_eq]
  rfl

theorem assignName_of_none (nowhere : w.store.nameCell? frame name = none) :
    assignName frame name value env w = .stopped (.signal (.panic (.varNotFound name))) w := by
  rw [Store.nameCell?] at nowhere
  cases means : w.store.frames.slot? frame name with
  | some slot =>
    rw [means] at nowhere
    cases nowhere
  | none =>
    rw [means] at nowhere
    have apart : w.store.frames.this? frame = none := Option.map_eq_none_iff.mp nowhere
    rw [assignName, bind_eq, ask, Progress.bind, means]
    show (this? frame >>= _) env w = _
    rw [bind_eq, this?, ask, Progress.bind, apart]
    rfl

theorem writes_assignName (frame : FrameId) (name : String) (value : Value) (env : EnvId)
    (w : World) : Writes w value (w.store.nameCell? frame name) (assignName frame name value env w) := by
  cases leads : w.store.nameCell? frame name with
  | none => exact ⟨_, assignName_of_none leads⟩
  | some cell =>
    rw [Store.nameCell?] at leads
    cases means : w.store.frames.slot? frame name with
    | some slot =>
      rw [means] at leads
      cases leads
      exact assignName_of_slot? means
    | none =>
      rw [means] at leads
      obtain ⟨entity, this, rfl⟩ := Option.map_eq_some_iff.mp leads
      rw [assignName, bind_eq, ask, Progress.bind, means]
      show (this? frame >>= _) env w = _
      rw [bind_eq, this?, ask, Progress.bind, this]
      exact change_setMember entity

theorem checkPrivate_eq (entity : EntityRef) : checkPrivate entity name viewer env w =
    if w.store.admits entity name viewer then .done () w
    else .stopped (.signal (.panic ⟨.memberNotFound, "'" ++ name ++ "' is private to its entity"⟩)) w := by
  show (if !w.store.admits entity name viewer then Eval.panic _ else pure () : Eval Unit) env w = _
  cases w.store.admits entity name viewer <;> rfl

theorem writes_setMember (script : ¬ w.store.Hosted object name) :
    Writes w value (w.store.memberCell? viewer object name)
      (setMember object name value viewer env w) := by
  cases object with
  | entity entity =>
    show Writes w value _ ((checkPrivate entity name viewer >>= _) env w)
    rw [bind_eq, checkPrivate_eq, Store.memberCell?]
    split
    · have kept : (if (w.store.member? entity name).isSome then none
          else w.store.entityHost? entity) = none := by
        cases found : w.store.member? entity name with
        | some old => rfl
        | none =>
          cases host : w.store.entityHost? entity with
          | none => rfl
          | some ref => exact absurd ⟨found, by simp [host]⟩ script
      show Writes w value _ ((ask _ >>= _) env w)
      rw [bind_eq, ask, Progress.bind, kept]
      exact change_setMember entity
    · exact ⟨_, rfl⟩
  | map id => rfl
  | external ref => exact absurd trivial script
  | _ => exact ⟨_, rfl⟩

theorem writes_setItem (script : ¬ Place.Hosted w.store (.item object index)) :
    Writes w value (w.store.itemCell? viewer object index)
      (setItem object index value viewer env w) := by
  cases object with
  | array id =>
    cases index with
    | number x =>
      show Writes w value _ ((ask _ >>= _) env w)
      rw [bind_eq, ask, Progress.bind, Store.itemCell?]
      cases Decimal.position? x (w.store.array id).size with
      | some position => rfl
      | none => exact ⟨_, rfl⟩
    | _ => exact ⟨_, rfl⟩
  | map id =>
    show Writes w value _ ((keyInto id index >>= _) env w)
    rw [bind_eq, keyInto, bind_eq, ask, Progress.bind, Store.itemCell?]
    split
    · exact ⟨_, rfl⟩
    · rfl
  | entity entity =>
    cases index with
    | string name =>
      have script : ¬ w.store.Hosted (.entity entity) name := script
      exact writes_setMember script
    | _ => exact ⟨_, rfl⟩
  | _ => exact ⟨_, rfl⟩

theorem writes_setPositional (object : Value) (position : Nat) :
    Writes w value (w.store.positionCell? object position)
      (setPositional object position value env w) := by
  cases object with
  | array id =>
    show Writes w value _ ((ask _ >>= _) env w)
    rw [bind_eq, ask, Progress.bind, Store.positionCell?]
    by_cases inside : position < (w.store.array id).size
    · rw [if_pos inside, if_pos inside]
      rfl
    · rw [if_neg inside, if_neg inside]
      exact ⟨_, rfl⟩
  | _ => exact ⟨_, rfl⟩

/-- Writing a place that the host does not keep puts the value into the cell that the place leads to, or
stops and changes nothing if there is none. -/
theorem writes_writePlace {place : Place} (script : ¬ place.Hosted w.store) :
    Writes w value (place.cell? w.store frame) (writePlace place value frame env w) := by
  cases place with
  | name name => exact writes_assignName frame name value env w
  | member object name =>
    show Writes w value _ (setMember object name value (w.store.frames.this? frame) env w)
    exact writes_setMember script
  | item object index =>
    show Writes w value _ (setItem object index value (w.store.frames.this? frame) env w)
    exact writes_setItem script
  | position object index => exact writes_setPositional object index

/-! ## Reading -/

/-- An evaluation gives a value, and all cells hold what they held. -/
def Reads (w : World) (value : Value) (progress : Progress Value) : Prop :=
  ∃ w', progress = .done value w' ∧ ∀ cell, w'.store.content cell = w.store.content cell

theorem reads_of_done {progress : Progress Value} (h : progress = .done value w) :
    Reads w value progress :=
  ⟨w, h, fun _ => rfl⟩

/-- Looking up a name that a frame declares gives what the slot holds. -/
theorem lookup_of_slot? {name : String} {slot : SlotId}
    (means : w.store.frames.slot? frame name = some slot) :
    lookup frame name env w = .done (w.store.frames.read slot)
      { w with store.frames := (w.store.frames.lookUp frame name).2 } := by
  have found : (w.store.frames.lookUp frame name).1 = some (w.store.frames.read slot) := by
    rw [Frames.lookUp, means]
  rw [lookup, bind_eq, declared?, make, Progress.bind]
  simp only [found]
  rfl

theorem reads_lookup (leads : w.store.nameCell? frame name = some cell)
    (holds : w.store.content cell = some value) : Reads w value (lookup frame name env w) := by
  rw [Store.nameCell?] at leads
  cases means : w.store.frames.slot? frame name with
  | some slot =>
    rw [means] at leads
    cases leads
    have same : w.store.frames.read slot = value := by
      have there : w.store.frames.slots[slot]? = some value := holds
      rw [Frames.read, Array.getD_eq_getD_getElem?, there]
      rfl
    refine ⟨_, same ▸ lookup_of_slot? means, fun cell => ?_⟩
    have slots : (w.store.frames.lookUp frame name).2.slots = w.store.frames.slots := by
      rw [Frames.lookUp, means]
    cases cell with
    | slot id => exact congrArg (·[id]?) slots
    | _ => rfl
  | none =>
    rw [means] at leads
    obtain ⟨entity, this, rfl⟩ := Option.map_eq_some_iff.mp leads
    rw [Store.content_target] at holds
    have looked : w.store.frames.lookUp frame name = (none, w.store.frames) := by
      rw [Frames.lookUp, means]
    have undeclared : declared? frame name env w = .done none w := by
      rw [declared?, make]
      simp only [looked]
    have owned : ownMember? frame name env w = .done (some value) w := by
      rw [ownMember?, bind_eq, this?, ask, Progress.bind, this]
      show (ask _ >>= _) env w = _
      rw [bind_eq, ask, Progress.bind, holds]
      rfl
    refine reads_of_done ?_
    rw [lookup, bind_eq, undeclared, Progress.bind]
    show (ownMember? frame name >>= _) env w = _
    rw [bind_eq, owned]
    rfl

theorem member_of_content (leads : w.store.memberCell? viewer object name = some cell)
    (holds : w.store.content cell = some value) :
    member object name viewer env w = .done value w := by
  cases object with
  | entity entity =>
    rw [Store.memberCell?] at leads
    split at leads
    · next admitted =>
      cases leads
      rw [Store.content_target] at holds
      show (checkPrivate entity name viewer >>= _) env w = _
      rw [bind_eq, checkPrivate_eq, if_pos admitted, Progress.bind]
      show (ask _ >>= _) env w = _
      rw [bind_eq, ask, Progress.bind, holds]
      rfl
    · cases leads
  | map id =>
    cases leads
    have holds : (w.store.map id).get? name = some value := holds
    show (ask _ >>= _) env w = _
    rw [bind_eq, ask, Progress.bind, holds]
    rfl
  | _ => cases leads

theorem item_of_content (leads : w.store.itemCell? viewer object index = some cell)
    (holds : w.store.content cell = some value) :
    item m object index viewer env w = .done value w := by
  cases object with
  | array id =>
    cases index with
    | number x =>
      obtain ⟨position, inside, rfl⟩ := Option.map_eq_some_iff.mp leads
      have holds : (w.store.array id)[position]? = some value := holds
      show (ofExcept (arrayItem (w.store.array id) x)) env w = _
      rw [arrayItem, inside, Option.bind_some, holds]
      rfl
    | _ => cases leads
  | map id =>
    rw [Store.itemCell?] at leads
    split at leads
    · cases leads
    · cases leads
      have holds : (w.store.map id).get? (w.store.keyOf index) = some value := holds
      show Progress.done (((w.store.map id).get? (w.store.keyOf index)).getD .null) w = _
      rw [holds]
      rfl
  | entity entity =>
    cases index with
    | string name =>
      have leads : w.store.memberCell? viewer (.entity entity) name = some cell := leads
      exact member_of_content leads holds
    | _ => cases leads
  | _ => cases leads

theorem positional_of_content {position : Nat}
    (leads : w.store.positionCell? object position = some cell)
    (holds : w.store.content cell = some value) :
    positional object position env w = .done value w := by
  cases object with
  | array id =>
    rw [Store.positionCell?] at leads
    split at leads
    · cases leads
      have holds : (w.store.array id)[position]? = some value := holds
      rw [← Array.getElem?_toList] at holds
      show (ask _ >>= _) env w = _
      rw [bind_eq, ask, Progress.bind, Store.positional?]
      dsimp only
      rw [holds]
      rfl
    · cases leads
  | _ => cases leads

/-- Reading a place gives what the cell holds that the place leads to. -/
theorem reads_readPlace {place : Place} (leads : place.cell? w.store frame = some cell)
    (holds : w.store.content cell = some value) : Reads w value (readPlace m place frame env w) := by
  cases place with
  | name name => exact reads_lookup leads holds
  | member object name =>
    have done : member object name (w.store.frames.this? frame) env w = .done value w :=
      member_of_content leads holds
    exact reads_of_done done
  | item object index =>
    have done : item m object index (w.store.frames.this? frame) env w = .done value w :=
      item_of_content leads holds
    exact reads_of_done done
  | position object index => exact reads_of_done (positional_of_content leads holds)

end Eval

/-! ## The cell after a write -/

namespace Store

variable {s : Store} {frame : FrameId} {viewer : Option EntityRef} {object index value : Value}
  {name : String} {cell : Cell}

theorem nameCell?_put (there : cell.There s) (leads : s.nameCell? frame name = some cell) :
    (s.put value cell).nameCell? frame name = some cell := by
  rw [nameCell?] at leads ⊢
  cases means : s.frames.slot? frame name with
  | some slot =>
    rw [means] at leads
    cases leads
    have means' : (s.put value (.slot slot)).frames.slot? frame name = some slot :=
      Frames.slot?_write.trans means
    rw [means']
  | none =>
    rw [means] at leads
    obtain ⟨entity, this, rfl⟩ := Option.map_eq_some_iff.mp leads
    have means' : (s.put value (.member (s.target entity name) name)).frames.slot? frame name = none :=
      means
    have this' : (s.put value (.member (s.target entity name) name)).frames.this? frame =
        some entity := this
    rw [means', this']
    dsimp only [Option.map_some]
    rw [target_put (lt_size_of_target there)]

theorem memberCell?_put (there : cell.There s) (leads : s.memberCell? viewer object name = some cell) :
    (s.put value cell).memberCell? viewer object name = some cell := by
  cases object with
  | entity entity =>
    rw [memberCell?] at leads ⊢
    split at leads
    · next admitted =>
      cases leads
      have admitted' : (s.put value (.member (s.target entity name) name)).admits entity name viewer =
          true := by
        simpa only [admits, put, related_define] using admitted
      rw [if_pos admitted', target_put (lt_size_of_target there)]
    · cases leads
  | map id => exact leads
  | _ => cases leads

theorem itemCell?_put (there : cell.There s) (leads : s.itemCell? viewer object index = some cell) :
    (s.put value cell).itemCell? viewer object index = some cell := by
  cases object with
  | array id =>
    cases index with
    | number x =>
      rw [itemCell?] at leads ⊢
      rwa [size_array_put]
    | _ => cases leads
  | map id =>
    rw [itemCell?] at leads ⊢
    split at leads
    · cases leads
    · next hidden =>
      cases leads
      rw [Bool.not_eq_true] at hidden
      rw [shows_put hidden, keyOf_put hidden]
      rfl
  | entity entity =>
    cases index with
    | string name =>
      have leads : s.memberCell? viewer (.entity entity) name = some cell := leads
      exact memberCell?_put there leads
    | _ => cases leads
  | _ => cases leads

theorem positionCell?_put {position : Nat} (leads : s.positionCell? object position = some cell) :
    (s.put value cell).positionCell? object position = some cell := by
  cases object with
  | array id =>
    rw [positionCell?] at leads ⊢
    rwa [size_array_put]
  | _ => cases leads

end Store

namespace Eval

variable {m : Machine} {env : EnvId} {w : World} {frame : FrameId} {cell : Cell}

theorem this?_put {s : Store} {value : Value} :
    (s.put value cell).frames.this? frame = s.frames.this? frame := by
  cases cell <;> rfl

/-- A place that has been written leads to the same cell again. -/
theorem Place.cell?_put {s : Store} {value : Value} {place : Place} (there : cell.There s)
    (leads : place.cell? s frame = some cell) : place.cell? (s.put value cell) frame = some cell := by
  cases place with
  | name n => exact Store.nameCell?_put there leads
  | member object n =>
    rw [cell?, this?_put]
    exact Store.memberCell?_put there leads
  | item object index =>
    rw [cell?, this?_put]
    exact Store.itemCell?_put there leads
  | position object index => exact Store.positionCell?_put leads

/-- A place that the host does not keep leads to a cell or cannot be written. In the first case writing
it puts the value into the cell and does nothing else, every other cell holds what it held, and reading
the place at once gives the value and changes no cell. In the other case nothing changes at all. -/
theorem Place.write_then_read (m : Machine) (env : EnvId) {place : Place} (value : Value)
    (script : ¬ place.Hosted w.store) (there : ∀ cell ∈ place.cell? w.store frame, cell.There w.store) :
    (∃ cell, place.cell? w.store frame = some cell ∧
      writePlace place value frame env w = .done () (w.put value cell) ∧
      (∀ other, other ≠ cell → (w.put value cell).store.content other = w.store.content other) ∧
      ∃ w', readPlace m place frame env (w.put value cell) = .done value w' ∧
        ∀ other, w'.store.content other = (w.put value cell).store.content other) ∨
    place.cell? w.store frame = none ∧
      ∃ stop, writePlace place value frame env w = .stopped stop w := by
  have writes : Writes w value (place.cell? w.store frame) (writePlace place value frame env w) :=
    writes_writePlace script
  cases leads : place.cell? w.store frame with
  | none =>
    rw [leads] at writes
    exact .inr ⟨rfl, writes⟩
  | some cell =>
    rw [leads] at writes
    have room : cell.There w.store := there cell leads
    exact .inl ⟨cell, rfl, writes, fun other apart => Store.content_put_of_ne apart,
      reads_readPlace (w := w.put value cell) (cell?_put room leads) (Store.content_put_self room)⟩

/-- A world with an entity of one private member, one over it as a base, and a frame of that one. -/
def estate : World :=
  { World.empty with
    store := { Store.empty with
      frames := ⟨#[⟨[], none, some ⟨0, 1⟩⟩], #[], []⟩
      arenas := #[⟨#[⟨⟨⟨#[("_age", .null)]⟩, by decide⟩, none, none⟩, ⟨.empty, some 0, none⟩]⟩] } }

/-- An heir assigns a private member of its base by the name as an index, and reads it again. -/
theorem Place.write_then_read_of_heir :
    ¬ Place.Hosted estate.store (.item (.entity ⟨0, 1⟩) (.string "_age")) ∧
      (∀ cell ∈ Place.cell? estate.store 0 (.item (.entity ⟨0, 1⟩) (.string "_age")),
        cell.There estate.store) ∧
      writePlace (.item (.entity ⟨0, 1⟩) (.string "_age")) (.bool true) 0 0 estate =
        .done () (estate.put (.bool true) (.member ⟨0, 0⟩ "_age")) ∧
      ∃ w', readPlace ⟨Eval.goal⟩ (.item (.entity ⟨0, 1⟩) (.string "_age")) 0 0
        (estate.put (.bool true) (.member ⟨0, 0⟩ "_age")) = .done (.bool true) w' := by
  have script : ¬ Place.Hosted estate.store (.item (.entity ⟨0, 1⟩) (.string "_age")) :=
    fun hosted => nomatch hosted.1
  have leads : Place.cell? estate.store 0 (.item (.entity ⟨0, 1⟩) (.string "_age")) =
      some (.member ⟨0, 0⟩ "_age") := rfl
  have there : ∀ cell ∈ Place.cell? estate.store 0 (.item (.entity ⟨0, 1⟩) (.string "_age")),
      cell.There estate.store := by
    rintro _ ⟨⟩
    show 0 < 2
    decide
  rcases Place.write_then_read ⟨Eval.goal⟩ 0 (.bool true) script there with
    ⟨cell, same, writes, -, w', reads, -⟩ | ⟨nowhere, -⟩
  · rw [leads] at same
    cases same
    exact ⟨script, there, writes, w', reads⟩
  · cases leads.symm.trans nowhere

end Eval

end ScriptEngine
