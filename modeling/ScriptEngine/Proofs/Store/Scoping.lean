import Mathlib.Data.List.Induction
import ScriptEngine.Proofs.Store.Frames

/-!
# Frames for some names

Some names are declared in a new frame inside another one. The new frame has these names and no others,
and nothing else is changed. What it binds matters to itself and to what stands in it only.

* `scope`: the frames with a new one for some names.
* `Encloses`, `encloses_scope`: what a new frame holds, and what stays.
* `Within`: a frame and those around it.
* `Unseen`: what a frame binds does not matter in another one.
* `unseen_of_extends`: nor does it matter, however much later, around the frame and beside it.
-/

namespace ScriptEngine.Frames

variable {s s' : Frames} {id inside other parent : FrameId} {name : String} {value : Value}
  {names : List (String × Value)}

/-! ## A frame that is there -/

/-- The frames in which some names of a frame have been declared in order. -/
def declareAll (s : Frames) (id : FrameId) (names : List (String × Value)) : Frames :=
  names.foldl (fun s entry => s.declare id entry.1 entry.2) s

/-- The frames with a new one inside another one, in which some names have been declared. -/
def scope (s : Frames) (parent : FrameId) (names : List (String × Value)) : Frames :=
  (s.child parent).2.declareAll (s.child parent).1 names

theorem declareAll_append_singleton : s.declareAll id (names ++ [(name, value)]) =
    (s.declareAll id names).declare id name value := by
  rw [declareAll, List.foldl_append]
  rfl

theorem frame?_declare : (s.declare id name value).frame? other =
    if id = other then (s.frame? other).map fun f =>
      { f with slots := bindSlot name s.slots.size f.slots }
    else s.frame? other :=
  frame?_link

theorem read_declare_of_lt {slot : SlotId} (there : slot < s.slots.size) :
    (s.declare id name value).read slot = s.read slot := by
  show (s.slots.push value).getD slot .null = s.slots.getD slot .null
  rw [Array.getD_eq_getD_getElem?, Array.getElem?_push, if_neg (Nat.ne_of_lt there),
    ← Array.getD_eq_getD_getElem?]

theorem read_declare : (s.declare id name value).read s.slots.size = value := by
  show (s.slots.push value).getD s.slots.size .null = value
  rw [Array.getD_eq_getD_getElem?, Array.getElem?_push, if_pos rfl]
  rfl

theorem size_slots_declare : (s.declare id name value).slots.size = s.slots.size + 1 :=
  Array.size_push ..

/-- A frame of a parent and an entity that holds some names. -/
structure Holds (s : Frames) (id : FrameId) (parent : FrameId) (this : Option EntityRef)
    (names : List (String × Value)) : Prop where
  surroundings : ∃ f, s.frame? id = some f ∧ f.parent = some parent ∧ f.this = this
  bounded : ∀ name slot, s.localSlot? id name = some slot → slot < s.slots.size
  own : ∀ name, s.local? id name = names.reverse.lookup name

/-- A name that is declared is one name more. -/
theorem Holds.declare {this : Option EntityRef} (h : s.Holds id parent this names) :
    (s.declare id name value).Holds id parent this (names ++ [(name, value)]) := by
  obtain ⟨f, found, around, belongs⟩ := h.surroundings
  have found' : (s.declare id name value).frame? id =
      some { f with slots := bindSlot name s.slots.size f.slots } := by
    rw [frame?_declare, if_pos rfl, found]
    rfl
  have means (n : String) : (s.declare id name value).localSlot? id n =
      if n = name then some s.slots.size else s.localSlot? id n := by
    rw [localSlot?_of_frame? found', localSlot?_of_frame? found, lookup_bindSlot]
  refine ⟨⟨_, found', around, belongs⟩, fun n slot bound => ?_, fun n => ?_⟩
  · rw [means] at bound
    rw [size_slots_declare]
    split at bound
    · obtain rfl := Option.some.inj bound
      exact Nat.lt_succ_self _
    · exact Nat.lt_succ_of_lt (h.bounded n slot bound)
  · rw [local?, means, List.reverse_append, List.reverse_singleton, List.singleton_append,
      List.lookup_cons]
    by_cases same : n = name
    · rw [if_pos same, beq_iff_eq.mpr same, Option.map_some, read_declare]
    · rw [if_neg same, beq_eq_false_iff_ne.mpr same, ← h.own n, local?]
      cases bound : s.localSlot? id n with
      | none => rfl
      | some slot => exact congrArg some (read_declare_of_lt (h.bounded n slot bound))

/-! ## A new frame -/

/-- A frame that was not there stands inside another one now, for the same entity, and has some names
and no others. All other frames are as they were, and so is what slots hold. -/
structure Encloses (s s' : Frames) (parent inside : FrameId) (names : List (String × Value)) :
    Prop where
  fresh : s.frame? inside = none
  holds : s'.Holds inside parent (s.this? parent) names
  frames : ∀ other, other ≠ inside → s'.frame? other = s.frame? other
  slots : ∀ slot < s.slots.size, s'.read slot = s.read slot
  size : s.slots.size ≤ s'.slots.size

theorem encloses_scope (s : Frames) (parent : FrameId) (names : List (String × Value)) :
    s.Encloses (s.scope parent names) parent s.frames.size names := by
  induction names using List.reverseRecOn with
  | nil =>
    have found : (s.child parent).2.frame? s.frames.size =
        some ⟨[], some parent, s.this? parent⟩ := frame?_push.trans (if_pos rfl)
    have unbound (n : String) : (s.child parent).2.localSlot? s.frames.size n = none :=
      localSlot?_of_frame? found
    refine ⟨Array.getElem?_size, ⟨⟨_, found, rfl, rfl⟩, fun n slot bound => ?_, fun n => ?_⟩,
      fun other apart => frame?_push.trans (if_neg apart), fun _ _ => rfl, Nat.le_refl _⟩
    · rw [scope, declareAll, List.foldl_nil, unbound] at bound
      cases bound
    · rw [scope, declareAll, List.foldl_nil, local?, unbound]
      rfl
  | append_singleton names entry ih =>
    have step : s.scope parent (names ++ [entry]) =
        (s.scope parent names).declare s.frames.size entry.1 entry.2 :=
      declareAll_append_singleton
    rw [step]
    refine ⟨ih.fresh, ih.holds.declare, fun other apart => ?_, fun slot there => ?_, ?_⟩
    · rw [frame?_declare, if_neg apart.symm, ih.frames other apart]
    · rw [read_declare_of_lt (Nat.lt_of_lt_of_le there ih.size), ih.slots slot there]
    · rw [size_slots_declare]
      exact Nat.le_succ_of_le ih.size

/-- A new frame is added to those that are there. -/
theorem extends_scope : s.Extends (s.scope parent names) where
  frame other f found := by
    have apart : other ≠ s.frames.size := Nat.ne_of_lt (lt_size_of_frame? found)
    have same := (encloses_scope s parent names).frames other apart
    exact ⟨f, same.trans found, rfl, rfl, fun _ _ _ bound => bound⟩
  slots := (encloses_scope s parent names).size

/-! ## What is seen of a frame -/

/-- A frame is another one or stands in it, however deep. -/
inductive Within (s : Frames) (outer : FrameId) : FrameId → Prop
  | here : Within s outer outer
  | inside {id parent : FrameId} {f : Frame} : s.frame? id = some f → f.parent = some parent →
    Within s outer parent → Within s outer id

/-- What names mean in a frame does not depend on what another one binds. -/
def Unseen (s : Frames) (inside id : FrameId) : Prop :=
  ∀ s' : Frames, s'.frames.size = s.frames.size →
    (∀ other, other ≠ inside → s'.frame? other = s.frame? other) →
    ∀ name, s'.slot? id name = s.slot? id name

theorem unseen_of_not_within (apart : ¬ s.Within inside id) : s.Unseen inside id := by
  intro s' size same name
  rw [slot?, slot?, size]
  generalize s.frames.size = fuel
  induction fuel generalizing id with
  | zero => rfl
  | succ fuel ih =>
    have here : id ≠ inside := fun eq => apart (eq ▸ .here)
    rw [slotFrom?, slotFrom?, same id here]
    cases found : s.frame? id with
    | none => rfl
    | some f =>
      cases around : f.parent with
      | none => simp [around]
      | some parent =>
        have outwards := ih fun within => apart (.inside found around within)
        simp [around, outwards]

/-- The frames around frames are there. -/
def Closed (s : Frames) : Prop :=
  ∀ id f parent, s.frame? id = some f → f.parent = some parent → parent < s.frames.size

/-- A frame that was there before another one is never inside that. -/
theorem not_within_of_extends (closed : s.Closed) (later : (s.scope parent names).Extends s')
    (there : id < s.frames.size) : ¬ s'.Within s.frames.size id := by
  intro within
  generalize outer : s.frames.size = new at within
  induction within with
  | here => exact Nat.ne_of_lt there outer.symm
  | @inside id around f found stands _ ih =>
    have old : s.frame? id = some s.frames[id] := Array.getElem?_eq_getElem there
    have kept := (encloses_scope s parent names).frames id (Nat.ne_of_lt there)
    obtain ⟨f', found', keeps⟩ := later.frame id _ (kept.trans old)
    obtain rfl := Option.some.inj (found.symm.trans found')
    exact ih (closed id _ around old (keeps.parent.symm.trans stands))

/-- A frame that was made for some names is never seen around it, nor in another frame that is made
there later. -/
theorem unseen_of_extends (closed : s.Closed) (there : parent < s.frames.size)
    (later : (s.scope parent names).Extends s') :
    s'.Unseen s.frames.size parent ∧ ∀ names' s'', (s'.scope parent names').Extends s'' →
      s''.Unseen s.frames.size s'.frames.size := by
  refine ⟨unseen_of_not_within (not_within_of_extends closed later there),
    fun names' s'' later' => unseen_of_not_within fun within => ?_⟩
  have made : s.frames.size < s'.frames.size := by
    obtain ⟨f, found, -⟩ := (encloses_scope s parent names).holds.surroundings
    obtain ⟨f', found', -⟩ := later.frame _ f found
    exact lt_size_of_frame? found'
  obtain ⟨f, found, around, -⟩ := (encloses_scope s' parent names').holds.surroundings
  obtain ⟨f', found', keeps⟩ := later'.frame _ f found
  generalize inner : s'.frames.size = id at within found'
  cases within with
  | here => exact Nat.ne_of_lt made inner.symm
  | inside found'' stands within =>
    obtain rfl := Option.some.inj (found'.symm.trans found'')
    obtain rfl := Option.some.inj ((keeps.parent.trans around).symm.trans stands)
    exact not_within_of_extends closed (later.trans (extends_scope.trans later')) there within

end ScriptEngine.Frames
