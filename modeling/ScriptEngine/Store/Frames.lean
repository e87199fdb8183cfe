import ScriptEngine.Value

/-!
# Frames

A frame binds names to slots, and looks up in the frame around it what it does not bind. A slot
holds one value; frames that import a name share the slot of the exporter.
-/

namespace ScriptEngine

/-- The number of a slot. -/
abbrev SlotId := Nat

/-- A frame: the slots of its names, the frame around it, and the entity it belongs to. -/
structure Frame where
  slots : List (String × SlotId)
  parent : Option FrameId
  this : Option EntityRef
deriving Repr, Inhabited

/-- Something that happens to a slot. -/
inductive Access where
  /-- A value is put there. -/
  | put (slot : SlotId) (value : Value)
  /-- A name is looked up in a frame and those around it, and means the slot with this value. -/
  | read (frame : FrameId) (name : String) (slot : SlotId) (value : Value)
deriving Repr

/-- All frames and slots. -/
structure Frames where
  frames : Array Frame
  slots : Array Value
  /-- What has happened to slots so far, the latest first. No outcome depends on it. -/
  accesses : List Access
deriving Repr, Inhabited

namespace Frames

/-- No frames. -/
def empty : Frames := ⟨#[], #[], []⟩

/-- The frame with this number. -/
def frame? (s : Frames) (id : FrameId) : Option Frame := s.frames[id]?

/-- Adds a frame and gives its number. -/
def push (s : Frames) (parent : Option FrameId) (this : Option EntityRef) : FrameId × Frames :=
  (s.frames.size, { s with frames := s.frames.push ⟨[], parent, this⟩ })

/-- Adds a frame that nothing surrounds. -/
def root (s : Frames) : FrameId × Frames := s.push none none

/-- The entity that a frame belongs to. -/
def this? (s : Frames) (id : FrameId) : Option EntityRef :=
  (s.frame? id).bind (·.this)

/-- Adds a frame inside another one, for the same entity. -/
def child (s : Frames) (parent : FrameId) : FrameId × Frames :=
  s.push (some parent) (s.this? parent)

/-- Binds a name to a slot in the list of a frame, in the place of the slot it had. -/
def bindSlot (name : String) (slot : SlotId) : List (String × SlotId) → List (String × SlotId)
  | [] => [(name, slot)]
  | (other, old) :: rest =>
    if other == name then (name, slot) :: rest else (other, old) :: bindSlot name slot rest

/-- Binds a name of a frame to a slot that is there already. -/
def link (s : Frames) (id : FrameId) (name : String) (slot : SlotId) : Frames :=
  { s with frames := s.frames.modify id fun f => { f with slots := bindSlot name slot f.slots } }

/-- Adds a slot with a value and gives its number. -/
@[inline] def newSlot (s : Frames) (value : Value) : SlotId × Frames :=
  let slot := s.slots.size
  (slot, { s with slots := s.slots.push value, accesses := .put slot value :: s.accesses })

/-- Binds a name of a frame to a new slot with this value. -/
def declare (s : Frames) (id : FrameId) (name : String) (value : Value) : Frames :=
  let (slot, s) := s.newSlot value
  s.link id name slot

/-- The slot of a name in a frame itself. -/
def localSlot? (s : Frames) (id : FrameId) (name : String) : Option SlotId :=
  (s.frame? id).bind fun f => f.slots.lookup name

/-- The value in a slot. -/
def read (s : Frames) (slot : SlotId) : Value := s.slots.getD slot .null

/-- Puts a value into a slot. -/
def write (s : Frames) (slot : SlotId) (value : Value) : Frames :=
  { s with slots := s.slots.setIfInBounds slot value, accesses := .put slot value :: s.accesses }

/-- The value of a name in a frame itself. -/
def local? (s : Frames) (id : FrameId) (name : String) : Option Value :=
  (s.localSlot? id name).map s.read

/-- The slot of a name in the first of some frames outwards; the fuel bounds how many. -/
def slotFrom? (s : Frames) (name : String) : Nat → FrameId → Option SlotId
  | 0, _ => none
  | fuel + 1, id => do
    let f ← s.frame? id
    match f.slots.lookup name with
    | some slot => some slot
    | none => s.slotFrom? name fuel (← f.parent)

/-- The slot that a name means in a frame. -/
def slot? (s : Frames) (id : FrameId) (name : String) : Option SlotId :=
  s.slotFrom? name s.frames.size id

/-- The value that a name means in a frame. -/
def get? (s : Frames) (id : FrameId) (name : String) : Option Value :=
  (s.slot? id name).map s.read

/-- Puts a value into the slot that a name means in a frame, if there is one. -/
def assign? (s : Frames) (id : FrameId) (name : String) (value : Value) : Option Frames :=
  (s.slot? id name).map (s.write · value)

/-- The value that a name means in a frame, and the frames when it has been looked up. -/
def lookUp (s : Frames) (id : FrameId) (name : String) : Option Value × Frames :=
  match s.slot? id name with
  | some slot =>
    let value := s.read slot
    (some value, { s with accesses := .read id name slot value :: s.accesses })
  | none => (none, s)

end Frames

end ScriptEngine
