import ScriptEngine.Store.Frames

/-!
# Frames that come later

Frames are only ever added, and a frame keeps its surroundings. A frame that nothing surrounds keeps
what its names mean as well, as long as no name is bound in it twice.

* `frame?_link`, `frame?_push`: the frames after a change.
* `Extends`: what stays of frames that others come of.
* `extends_link`, `extends_declare`: a name that was not bound may be.
* `Bounded`: the slots that names mean are there.
* `Consistent`, `Recorded`: slots hold what was put into them last, and so they did whenever a name was
  looked up.
* `slot?_write`: a value in a slot does not change what names mean.
-/

namespace ScriptEngine.Frames

variable {s s' s'' : Frames} {id other : FrameId} {name : String} {slot : SlotId}

/-! ## Names in a frame -/

theorem lookup_bindSlot {list : List (String × SlotId)} {n : String} :
    (bindSlot name slot list).lookup n = if n = name then some slot else list.lookup n := by
  induction list with
  | nil =>
    rw [bindSlot, List.lookup_cons]
    by_cases same : n = name
    · simp [same]
    · simp [beq_eq_false_iff_ne.mpr same, same]
  | cons entry rest ih =>
    obtain ⟨bound, old⟩ := entry
    rw [bindSlot]
    by_cases same : bound = name
    · subst same
      by_cases this : n = bound
      · simp [this]
      · simp [List.lookup_cons, beq_eq_false_iff_ne.mpr this, this]
    · simp only [beq_eq_false_iff_ne.mpr same, Bool.false_eq_true, if_false]
      by_cases this : n = bound
      · subst this
        simp [same]
      · have differs : (n == bound) = false := beq_eq_false_iff_ne.mpr this
        simp [List.lookup_cons, differs, ih]

theorem frame?_link : (s.link id name slot).frame? other =
    if id = other then (s.frame? other).map fun f => { f with slots := bindSlot name slot f.slots }
    else s.frame? other := by
  simp [frame?, link, Array.getElem?_modify]

theorem frame?_push {parent : Option FrameId} {this : Option EntityRef} :
    (s.push parent this).2.frame? other =
      if other = s.frames.size then some ⟨[], parent, this⟩ else s.frame? other := by
  simp [frame?, push, Array.getElem?_push]

theorem lt_size_of_frame? {f : Frame} (h : s.frame? id = some f) : id < s.frames.size :=
  (Array.getElem?_eq_some_iff.mp h).1

theorem localSlot?_of_frame? {f : Frame} (h : s.frame? id = some f) :
    s.localSlot? id name = f.slots.lookup name := by
  rw [localSlot?, h, Option.bind_some]

/-- A name that is bound now means the slot it is bound to; the others mean what they did. -/
theorem localSlot?_link {n : String} : (s.link id name slot).localSlot? other n =
    if id = other ∧ n = name then (s.frame? other).map fun _ => slot else s.localSlot? other n := by
  rw [localSlot?, localSlot?, frame?_link]
  cases s.frame? other with
  | none => simp
  | some f =>
    by_cases same : id = other
    · simp [same, lookup_bindSlot]
    · simp [same]

/-! ## Later frames -/

/-- A frame that nothing surrounds, as those of modules. -/
def IsRoot (s : Frames) (id : FrameId) : Prop := ∃ f, s.frame? id = some f ∧ f.parent = none

/-- A frame that stands inside another one. -/
def IsChild (s : Frames) (id : FrameId) : Prop :=
  ∃ f parent, s.frame? id = some f ∧ f.parent = some parent

/-- A frame keeps its surroundings, and what its names mean if it is a root. -/
structure Frame.Extends (f f' : Frame) : Prop where
  parent : f'.parent = f.parent
  this : f'.this = f.this
  names : f.parent = none → ∀ name slot, f.slots.lookup name = some slot →
    f'.slots.lookup name = some slot

/-- Frames are added to others that go on to be there. -/
structure Extends (s s' : Frames) : Prop where
  frame : ∀ id f, s.frame? id = some f → ∃ f', s'.frame? id = some f' ∧ Frame.Extends f f'
  slots : s.slots.size ≤ s'.slots.size

theorem IsRoot.not_isChild (h : s.IsRoot id) : ¬ s.IsChild id := by
  rintro ⟨f, parent, found, inside⟩
  obtain ⟨f', found', outside⟩ := h
  obtain rfl := Option.some.inj (found.symm.trans found')
  rw [inside] at outside
  cases outside

namespace Extends

theorem of_frames (h : s'.frames = s.frames) (slots : s.slots.size ≤ s'.slots.size) :
    s.Extends s' where
  frame id f found := ⟨f, by rw [frame?, h]; exact found, rfl, rfl, fun _ _ _ bound => bound⟩
  slots := slots

theorem refl (s : Frames) : s.Extends s := .of_frames rfl (Nat.le_refl _)

theorem trans (h : s.Extends s') (h' : s'.Extends s'') : s.Extends s'' where
  frame id f found := by
    obtain ⟨f', found', keeps⟩ := h.frame id f found
    obtain ⟨f'', found'', keeps'⟩ := h'.frame id f' found'
    refine ⟨f'', found'', keeps'.parent.trans keeps.parent, keeps'.this.trans keeps.this, ?_⟩
    exact fun outside name slot bound =>
      keeps'.names (keeps.parent.trans outside) name slot (keeps.names outside name slot bound)
  slots := Nat.le_trans h.slots h'.slots

theorem this? (h : s.Extends s') (has : (s.this? id).isSome) : (s'.this? id).isSome := by
  cases found : s.frame? id with
  | none => simp [Frames.this?, found] at has
  | some f =>
    obtain ⟨f', found', keeps⟩ := h.frame id f found
    rw [Frames.this?, found, Option.bind_some] at has
    rwa [Frames.this?, found', Option.bind_some, keeps.this]

theorem isRoot (h : s.Extends s') (root : s.IsRoot id) : s'.IsRoot id := by
  obtain ⟨f, found, outside⟩ := root
  obtain ⟨f', found', keeps⟩ := h.frame id f found
  exact ⟨f', found', keeps.parent.trans outside⟩

theorem isChild (h : s.Extends s') (child : s.IsChild id) : s'.IsChild id := by
  obtain ⟨f, parent, found, inside⟩ := child
  obtain ⟨f', found', keeps⟩ := h.frame id f found
  exact ⟨f', parent, found', keeps.parent.trans inside⟩

/-- What a name of a root means never changes. -/
theorem localSlot? (h : s.Extends s') (root : s.IsRoot id)
    (bound : s.localSlot? id name = some slot) : s'.localSlot? id name = some slot := by
  obtain ⟨f, found, outside⟩ := root
  obtain ⟨f', found', keeps⟩ := h.frame id f found
  rw [localSlot?_of_frame? found] at bound
  rw [localSlot?_of_frame? found']
  exact keeps.names outside name slot bound

end Extends

/-- A name may be bound if it has no meaning in a root yet. -/
theorem extends_link (free : s.IsRoot id → s.localSlot? id name = none) :
    s.Extends (s.link id name slot) where
  frame other f found := by
    rw [frame?_link]
    split
    · next same =>
      subst same
      refine ⟨{ f with slots := bindSlot name slot f.slots }, by rw [found]; rfl, rfl, rfl,
        fun outside n old bound => ?_⟩
      have unbound := free ⟨f, found, outside⟩
      rw [localSlot?_of_frame? found] at unbound
      have apart : n ≠ name := by
        rintro rfl
        rw [unbound] at bound
        cases bound
      rwa [lookup_bindSlot, if_neg apart]
    · exact ⟨f, found, rfl, rfl, fun _ _ _ bound => bound⟩
  slots := Nat.le_refl _

theorem extends_declare {value : Value} (free : s.IsRoot id → s.localSlot? id name = none) :
    s.Extends (s.declare id name value) := by
  let pushed := (s.newSlot value).2
  have first : s.Extends pushed := .of_frames rfl (by simp [pushed, newSlot])
  have free : pushed.IsRoot id → pushed.localSlot? id name = none := free
  exact first.trans (extends_link free)

theorem extends_push {parent : Option FrameId} {this : Option EntityRef} :
    s.Extends (s.push parent this).2 where
  frame id f found := by
    refine ⟨f, ?_, rfl, rfl, fun _ _ _ bound => bound⟩
    rw [frame?_push, if_neg (Nat.ne_of_lt (lt_size_of_frame? found))]
    exact found
  slots := Nat.le_refl _

/-! ## Slots -/

/-- The slots that names mean are there. -/
def Bounded (s : Frames) : Prop :=
  ∀ id name slot, s.localSlot? id name = some slot → slot < s.slots.size

theorem Bounded.link (h : s.Bounded) (there : slot < s.slots.size) :
    (s.link id name slot).Bounded := by
  intro other n slot' bound
  rw [localSlot?_link] at bound
  split at bound
  · obtain ⟨_, _, rfl⟩ := Option.map_eq_some_iff.mp bound
    exact there
  · exact h other n slot' bound

theorem Bounded.newSlot {value : Value} (h : s.Bounded) : (s.newSlot value).2.Bounded := by
  intro other n slot bound
  rw [Frames.newSlot, Array.size_push]
  exact Nat.lt_succ_of_lt (h other n slot bound)

theorem Bounded.declare {value : Value} (h : s.Bounded) : (s.declare id name value).Bounded :=
  h.newSlot.link (by simp [Frames.newSlot])

theorem Bounded.push {parent : Option FrameId} {this : Option EntityRef} (h : s.Bounded) :
    (s.push parent this).2.Bounded := by
  intro other n slot bound
  rw [localSlot?, frame?_push] at bound
  split at bound
  · cases bound
  · exact h other n slot bound

theorem Bounded.of_frames (h : s.Bounded) (frames : s'.frames = s.frames)
    (slots : s.slots.size ≤ s'.slots.size) : s'.Bounded := by
  intro id name slot bound
  rw [localSlot?, frame?, frames] at bound
  exact Nat.lt_of_lt_of_le (h id name slot bound) slots

/-- What a name means outwards is what some frame binds it to: the frame itself, if nothing surrounds
that. -/
theorem bound_of_slotFrom? {fuel : Nat} (means : s.slotFrom? name fuel id = some slot) :
    (∃ outer, s.localSlot? outer name = some slot) ∧
      ∃ f, s.frame? id = some f ∧ (f.parent = none → f.slots.lookup name = some slot) := by
  induction fuel generalizing id with
  | zero => cases means
  | succ fuel ih =>
    rw [slotFrom?] at means
    obtain ⟨f, found, means⟩ := Option.bind_eq_some_iff.mp means
    cases bound : f.slots.lookup name with
    | some own =>
      rw [bound] at means
      obtain rfl := Option.some.inj means
      exact ⟨⟨id, (localSlot?_of_frame? found).trans bound⟩, f, found, fun _ => bound⟩
    | none =>
      rw [bound] at means
      obtain ⟨parent, inside, outwards⟩ := Option.bind_eq_some_iff.mp means
      refine ⟨(ih outwards).1, f, found, fun outside => ?_⟩
      rw [outside] at inside
      cases inside

/-! ## Accesses -/

/-- The value that was put into a slot last. -/
def lastPut (slot : SlotId) : List Access → Option Value
  | [] => none
  | .put other value :: earlier => if other = slot then some value else lastPut slot earlier
  | .read _ _ _ _ :: earlier => lastPut slot earlier

/-- Each read gave the value that had been put into the slot last. -/
def Consistent : List Access → Prop
  | [] => True
  | .put _ _ :: earlier => Consistent earlier
  | .read _ _ slot value :: earlier => lastPut slot earlier = some value ∧ Consistent earlier

theorem Consistent.of_append {later earlier : List Access} (h : Consistent (later ++ earlier)) :
    Consistent earlier := by
  induction later with
  | nil => exact h
  | cons access later ih =>
    cases access with
    | put slot value => exact ih h
    | read frame name slot value => exact ih h.2

/-- Each slot holds what was put into it last, and so it did whenever it was read. A name that was
looked up in a frame that nothing surrounds goes on to mean the same slot. -/
structure Recorded (s : Frames) : Prop where
  holds : ∀ slot < s.slots.size, lastPut slot s.accesses = some (s.read slot)
  consistent : Consistent s.accesses
  meant {frame : FrameId} {name : String} {slot : SlotId} {value : Value} :
    .read frame name slot value ∈ s.accesses →
      ∃ f, s.frame? frame = some f ∧ (f.parent = none → f.slots.lookup name = some slot)

namespace Recorded

/-- Frames that are added change nothing about slots. -/
theorem of_extends (h : s.Recorded) (extends' : s.Extends s') (slots : s'.slots = s.slots)
    (accesses : s'.accesses = s.accesses) : s'.Recorded where
  holds slot there := by
    rw [accesses, read, slots]
    exact h.holds slot (slots ▸ there)
  consistent := accesses ▸ h.consistent
  meant {frame name slot value} mem := by
    rw [accesses] at mem
    obtain ⟨f, found, means⟩ := h.meant mem
    obtain ⟨f', found', keeps⟩ := extends'.frame frame f found
    refine ⟨f', found', fun outside => ?_⟩
    have outside' := keeps.parent.symm.trans outside
    exact keeps.names outside' name slot (means outside')

/-- Whatever is put somewhere, if each slot holds what was put there last. -/
theorem put (h : s.Recorded) {value : Value} (frames : s'.frames = s.frames)
    (accesses : s'.accesses = .put slot value :: s.accesses)
    (holds : ∀ other < s'.slots.size,
      (if slot = other then some value else lastPut other s.accesses) = some (s'.read other)) :
    s'.Recorded where
  holds other there := by
    rw [accesses]
    exact holds other there
  consistent := by
    rw [accesses]
    exact h.consistent
  meant mem := by
    rw [accesses] at mem
    rcases List.mem_cons.mp mem with no | mem
    · cases no
    · rw [frame?, frames]
      exact h.meant mem

theorem newSlot {value : Value} (h : s.Recorded) : (s.newSlot value).2.Recorded := by
  refine h.put rfl rfl fun slot there => ?_
  rw [Frames.newSlot, Array.size_push] at there
  rw [Frames.newSlot, read, Array.getD_eq_getD_getElem?, Array.getElem?_push]
  by_cases new : s.slots.size = slot
  · simp [new]
  · have old := h.holds slot (by omega)
    rw [read, Array.getD_eq_getD_getElem?] at old
    rw [if_neg new, if_neg (Ne.symm new)]
    exact old

theorem declare {value : Value} (h : s.Recorded)
    (free : s.IsRoot id → s.localSlot? id name = none) : (s.declare id name value).Recorded :=
  h.newSlot.of_extends (extends_link free) rfl rfl

theorem write {value : Value} (h : s.Recorded) : (s.write slot value).Recorded := by
  refine h.put rfl rfl fun other there => ?_
  rw [Frames.write, Array.size_setIfInBounds] at there
  rw [Frames.write, read, Array.getD_eq_getD_getElem?, Array.getElem?_setIfInBounds]
  by_cases same : slot = other
  · simp [same, there]
  · have old := h.holds other there
    rw [read, Array.getD_eq_getD_getElem?] at old
    rw [if_neg same, if_neg same]
    exact old

theorem lookUp (h : s.Recorded) (bounded : s.Bounded) : (s.lookUp id name).2.Recorded := by
  unfold Frames.lookUp
  split
  · next slot means =>
    obtain ⟨⟨outer, bound⟩, f, found, own⟩ := bound_of_slotFrom? means
    refine ⟨h.holds, ⟨h.holds slot (bounded outer name slot bound), h.consistent⟩, fun mem => ?_⟩
    rcases List.mem_cons.mp mem with same | mem
    · cases same
      exact ⟨f, found, own⟩
    · exact h.meant mem
  · exact h

end Recorded

/-- Looking up a name changes no frame and no slot. -/
theorem frames_lookUp : (s.lookUp id name).2.frames = s.frames := by
  unfold lookUp
  split <;> rfl

theorem slots_lookUp : (s.lookUp id name).2.slots = s.slots := by
  unfold lookUp
  split <;> rfl

/-- A name that a frame binds means its slot there. -/
theorem slot?_of_localSlot? (h : s.localSlot? id name = some slot) : s.slot? id name = some slot := by
  obtain ⟨f, found, bound⟩ := Option.bind_eq_some_iff.mp h
  obtain ⟨fuel, same⟩ : ∃ fuel, s.frames.size = fuel + 1 :=
    Nat.exists_eq_succ_of_ne_zero (Nat.ne_of_gt (Nat.lt_of_le_of_lt (Nat.zero_le _)
      (lt_size_of_frame? found)))
  rw [slot?, same, slotFrom?, found]
  simp [bound]

/-- Looking up a name that means a slot is an access to the slot. -/
theorem accesses_lookUp (means : s.slot? id name = some slot) :
    (s.lookUp id name).2.accesses = .read id name slot (s.read slot) :: s.accesses := by
  rw [lookUp, means]

theorem slotFrom?_write {value : Value} {fuel : Nat} :
    (s.write slot value).slotFrom? name fuel id = s.slotFrom? name fuel id := by
  induction fuel generalizing id with
  | zero => rfl
  | succ fuel ih =>
    simp only [slotFrom?]
    cases found : s.frame? id with
    | none =>
      have found' : (s.write slot value).frame? id = none := found
      simp [found']
    | some f =>
      have found' : (s.write slot value).frame? id = some f := found
      simp [found', ih]

/-- Putting a value into a slot does not change what names mean. -/
theorem slot?_write {value : Value} : (s.write slot value).slot? id name = s.slot? id name :=
  slotFrom?_write

end ScriptEngine.Frames
