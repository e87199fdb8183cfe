import ScriptEngine.Proofs.Evaluation.Confinement
import ScriptEngine.Proofs.Evaluation.Selection

/-!
# Walks over what there is at the beginning

A loop over the elements of a value takes these when it begins, and so does a method of an array that calls
a function for its items. What is done to the array, the map or the entity meanwhile has nothing to do with
what is still visited, so that there is an end to it even if each visit adds an element.

* `EachRound`, `Visits`, `WalkEnds`: a round of a loop, rounds in order, and what they end with.
* `Eval.visit_comes_iff`, `exists_walkEnds`: loops walk over a list, and come to an end.
* `Store.snapshot?`, `EachEnds`: the elements of a value, and what a loop over them ends with.
* `Calls`, `CallsEnd`, `Eval.callEach`: calls of a function for items in order, of which the methods of
  arrays are made.
* `IteratesSnapshot`, `Eval.iterates_snapshot`: all of this together.
-/

namespace ScriptEngine

/-! ## Rounds -/

/-- The names of a round: the item is the element, and the index is the position. -/
def roundNames (item : String) (index : Option String) (element : Value) (position : Nat) :
    List (String × Value) :=
  (item, element) :: (index.map fun name => (name, .ofNat position)).toList

/-- Whether a loop goes on behind a body: if it is at its end, or has been continued. -/
def roundResult : Except Stop Unit → Except Stop Bool
  | .ok () | .error (.signal .continuing) => .ok true
  | .error (.signal .breaking) => .ok false
  | .error stop => .error stop

namespace Eval

variable {m : Machine} {meanwhile : Wait → World → World → Prop} {env : EnvId} {w last : World}

/-- A step of a task may wait, but does not stop. -/
theorem not_comes_tick {stop : Stop} : ¬ (tick env w).Comes meanwhile (.error stop) last := by
  obtain ⟨store, environments, queue, locks, clock, ⟨task, interpreter, left, rival, alarm⟩, effects,
    incidents, history, calls⟩ := w
  cases left with
  | succ left => exact fun ends => nomatch ends.1
  | zero =>
    dsimp only [tick]
    split
    · rintro ⟨w', -, ends, -⟩
      cases ends
    · exact fun ends => nomatch ends.1

/-- What has been attempted says whether the loop goes on. -/
theorem comes_match_attempt {x : Eval Unit} {result : Except Stop Bool} : ((do
    match ← attempt x with
    | .ok () | .error .continuing => return true
    | .error .breaking => return false
    | .error s => signal s : Eval Bool) env w).Comes meanwhile result last ↔
      ∃ ended, (x env w).Comes meanwhile ended last ∧ result = roundResult ended := by
  rw [comes_bind]
  constructor
  · rintro (⟨attempted, w', comes, ends⟩ | ⟨stop, stops, rfl⟩)
    · have comes := Progress.comes_attempt_ok.mp comes
      rcases attempted with (cause | value | _ | _) | _ <;> obtain ⟨rfl, rfl⟩ := ends <;>
        exact ⟨_, comes, rfl⟩
    · obtain ⟨⟨_, rfl⟩, comes⟩ := Progress.comes_attempt_error.mp stops
      exact ⟨_, comes, rfl⟩
  · rintro ⟨ended, comes, rfl⟩
    have done {attempted : Except Signal Unit} (same : attempted.mapError .signal = ended) :
        (attempt x env w).Comes meanwhile (.ok attempted) last :=
      Progress.comes_attempt_ok.mpr (same ▸ comes)
    match ended with
    | .ok () => exact .inl ⟨.ok (), _, done rfl, rfl, rfl⟩
    | .error (.signal (.panic cause)) => exact .inl ⟨.error _, _, done rfl, rfl, rfl⟩
    | .error (.signal (.returning value)) => exact .inl ⟨.error _, _, done rfl, rfl, rfl⟩
    | .error (.signal .breaking) => exact .inl ⟨.error _, _, done rfl, rfl, rfl⟩
    | .error (.signal .continuing) => exact .inl ⟨.error _, _, done rfl, rfl, rfl⟩
    | .error (.unfinished halt) =>
      exact .inr ⟨_, Progress.comes_attempt_error.mpr ⟨⟨halt, rfl⟩, comes⟩, rfl⟩

/-- The body of a loop is run after a step of the task, and the loop goes on or not. -/
theorem loopBody_comes_iff {body : Block} {inside : FrameId} {result : Except Stop Bool} :
    (loopBody m body inside env w).Comes meanwhile result last ↔
      ∃ w' ended, (tick env w).Comes meanwhile (.ok ()) w' ∧
        (innerInside m body inside env w').Comes meanwhile ended last ∧
          result = roundResult ended := by
  rw [loopBody, comes_bind]
  constructor
  · rintro (⟨_, w', ticks, ends⟩ | ⟨stop, stops, -⟩)
    · obtain ⟨ended, comes, same⟩ := comes_match_attempt.mp ends
      exact ⟨w', ended, ticks, comes, same⟩
    · exact absurd stops not_comes_tick
  · rintro ⟨w', ended, ticks, comes, same⟩
    exact .inl ⟨(), w', ticks, comes_match_attempt.mpr ⟨ended, comes, same⟩⟩

theorem eachRound_eq {item : String} {index : Option String} {body : Block} {frame : FrameId}
    {element : Value} {position : Nat} :
    eachRound m item index body frame element position env w =
      loopBody m body w.nextFrame env (w.scope frame (roundNames item index element position)) := by
  cases index <;> rfl

end Eval

/-! ## Walks -/

theorem roundResult_eq_break_iff {ended : Except Stop Unit} :
    roundResult ended = .ok false ↔ ended = .error (.signal .breaking) := by
  rcases ended with ((cause | value | _ | _) | _) | _ <;> simp [roundResult]

theorem roundResult_eq_error_iff {ended : Except Stop Unit} {stop : Stop} :
    roundResult ended = .error stop ↔
      ended = .error stop ∧ stop ≠ .signal .breaking ∧ stop ≠ .signal .continuing := by
  rcases ended with ((cause | value | _ | _) | _) | _ <;> simp [roundResult] <;> rintro rfl <;> simp

/-- How the body of a loop ends if the loop goes on. -/
def GoesOn (ended : Except Stop Unit) : Prop := roundResult ended = .ok true

/-- A round of a loop over elements: in a new frame the item and the index are declared, and after a step
of the task the body is run there. -/
def EachRound (m : Machine) (meanwhile : Wait → World → World → Prop) (item : String)
    (index : Option String) (body : Block) (frame : FrameId) (env : EnvId) (element : Value)
    (position : Nat) (w : World) (ended : Except Stop Unit) (last : World) : Prop :=
  ∃ w', (Eval.tick env (w.scope frame (roundNames item index element position))).Comes meanwhile
      (.ok ()) w' ∧
    (Eval.innerInside m body w.nextFrame env w').Comes meanwhile ended last

section

variable (round : Value → Nat → World → Except Stop Unit → World → Prop)

/-- Elements are visited in order, each of them once: the position is that of the one before and one more,
and the world is what that has left. The loop goes on behind each of them. -/
inductive Visits : List Value → Nat → World → World → Prop
  | nil (position : Nat) (w : World) : Visits [] position w w
  | cons {element : Value} {elements : List Value} {position : Nat} {w w' last : World}
    {ended : Except Stop Unit} : round element position w ended w' → GoesOn ended →
    Visits elements (position + 1) w' last → Visits (element :: elements) position w last

/-- What a walk over elements from a position on ends with. -/
inductive WalkEnds (elements : List Value) (position : Nat) (w : World) :
    Except Stop Unit → World → Prop
  /-- All of them have been visited. -/
  | all {last : World} : Visits round elements position w last →
    WalkEnds elements position w (.ok ()) last
  /-- Those before one have been, and there a break ends the loop. -/
  | broken {before after : List Value} {element : Value} {w' last : World} :
    elements = before ++ element :: after → Visits round before position w w' →
    round element (position + before.length) w' (.error (.signal .breaking)) last →
    WalkEnds elements position w (.ok ()) last
  /-- Those before one have been, and there a panic or a return leaves the loop, or it is not finished. -/
  | left {before after : List Value} {element : Value} {w' last : World} {stop : Stop} :
    elements = before ++ element :: after → Visits round before position w w' →
    round element (position + before.length) w' (.error stop) last →
    stop ≠ .signal .breaking → stop ≠ .signal .continuing →
    WalkEnds elements position w (.error stop) last

variable {round} {element : Value} {elements : List Value} {position : Nat} {w w' last : World}
  {result : Except Stop Unit} {ended : Except Stop Unit}

theorem add_length_cons (position : Nat) (element : Value) (before : List Value) :
    position + (element :: before).length = position + 1 + before.length :=
  (Nat.add_right_comm position before.length 1).trans rfl

/-- Behind an element from which the loop goes on, a walk ends as that over the others does. -/
theorem WalkEnds.cons (first : round element position w ended w') (goesOn : GoesOn ended)
    (ends : WalkEnds round elements (position + 1) w' result last) :
    WalkEnds round (element :: elements) position w result last := by
  cases ends with
  | all visits => exact .all (.cons first goesOn visits)
  | @broken before after other _ _ split visits breaks =>
    exact .broken (split ▸ List.cons_append.symm) (.cons first goesOn visits)
      (add_length_cons .. ▸ breaks)
  | @left before after other _ _ _ split visits stops noBreak noContinue =>
    exact .left (split ▸ List.cons_append.symm) (.cons first goesOn visits)
      (add_length_cons .. ▸ stops) noBreak noContinue

/-- A walk ends at its first element, or goes on behind it. -/
theorem walkEnds_cons_iff : WalkEnds round (element :: elements) position w result last ↔
    ∃ ended w', round element position w ended w' ∧
      ((GoesOn ended ∧ WalkEnds round elements (position + 1) w' result last) ∨
        (roundResult ended = .ok false ∧ result = .ok () ∧ last = w') ∨
          ∃ stop, roundResult ended = .error stop ∧ result = .error stop ∧ last = w') := by
  constructor
  · intro ends
    cases ends with
    | all visits =>
      obtain _ | ⟨first, goesOn, visits⟩ := visits
      exact ⟨_, _, first, .inl ⟨goesOn, .all visits⟩⟩
    | @broken before after other _ _ split visits breaks =>
      obtain _ | ⟨first, goesOn, visits⟩ := visits
      · obtain ⟨rfl, rfl⟩ := List.cons.inj split
        exact ⟨_, _, breaks, .inr (.inl ⟨rfl, rfl, rfl⟩)⟩
      · obtain ⟨rfl, rfl⟩ := List.cons.inj split
        rw [add_length_cons] at breaks
        exact ⟨_, _, first, .inl ⟨goesOn, .broken rfl visits breaks⟩⟩
    | @left before after other _ _ stop split visits stops noBreak noContinue =>
      obtain _ | ⟨first, goesOn, visits⟩ := visits
      · obtain ⟨rfl, rfl⟩ := List.cons.inj split
        have leaves := roundResult_eq_error_iff.mpr ⟨rfl, noBreak, noContinue⟩
        exact ⟨_, _, stops, .inr (.inr ⟨stop, leaves, rfl, rfl⟩)⟩
      · obtain ⟨rfl, rfl⟩ := List.cons.inj split
        rw [add_length_cons] at stops
        exact ⟨_, _, first, .inl ⟨goesOn, .left rfl visits stops noBreak noContinue⟩⟩
  · rintro ⟨ended, w', first, ⟨goesOn, ends⟩ | ⟨breaks, rfl, rfl⟩ | ⟨stop, stops, rfl, rfl⟩⟩
    · exact ends.cons first goesOn
    · obtain rfl := roundResult_eq_break_iff.mp breaks
      exact .broken (List.nil_append _).symm (.nil ..) first
    · obtain ⟨rfl, noBreak, noContinue⟩ := roundResult_eq_error_iff.mp stops
      exact .left (List.nil_append _).symm (.nil ..) first noBreak noContinue

/-- Every walk comes to its end if every round does, whatever the rounds do. -/
theorem exists_walkEnds (ends : ∀ element ∈ elements, ∀ position w, ∃ ended w',
    round element position w ended w') : ∃ result last, WalkEnds round elements position w result last := by
  induction elements generalizing position w with
  | nil => exact ⟨_, _, .all (.nil position w)⟩
  | cons element elements ih =>
    obtain ⟨first, others⟩ := List.forall_mem_cons.mp ends
    obtain ⟨ended, w', round⟩ := first position w
    cases result : roundResult ended with
    | error stop =>
      refine ⟨.error stop, w', walkEnds_cons_iff.mpr ⟨ended, w', round, ?_⟩⟩
      exact .inr (.inr ⟨stop, result, rfl, rfl⟩)
    | ok again =>
      cases again with
      | false =>
        refine ⟨.ok (), w', walkEnds_cons_iff.mpr ⟨ended, w', round, ?_⟩⟩
        exact .inr (.inl ⟨result, rfl, rfl⟩)
      | true =>
        obtain ⟨_, _, ends⟩ : ∃ result last, WalkEnds _ elements (position + 1) w' result last :=
          ih others
        exact ⟨_, _, ends.cons round result⟩

end

namespace Eval

variable {m : Machine} {meanwhile : Wait → World → World → Prop} {env : EnvId} {w last : World}
  {item : String} {index : Option String} {body : Block} {frame : FrameId} {elements : List Value}
  {position : Nat} {result : Except Stop Unit}

theorem eachRound_comes_iff {element : Value} {result : Except Stop Bool} :
    (eachRound m item index body frame element position env w).Comes meanwhile result last ↔
      ∃ ended, EachRound m meanwhile item index body frame env element position w ended last ∧
        result = roundResult ended := by
  rw [eachRound_eq, loopBody_comes_iff]
  exact ⟨fun ⟨w', ended, ticks, comes, same⟩ => ⟨ended, ⟨w', ticks, comes⟩, same⟩,
    fun ⟨ended, ⟨w', ticks, comes⟩, same⟩ => ⟨w', ended, ticks, comes, same⟩⟩

/-- The elements of a list are walked over, and not those of anything else. -/
theorem visit_comes_iff :
    (visit (eachRound m item index body frame) elements position env w).Comes meanwhile result last ↔
      WalkEnds (EachRound m meanwhile item index body frame env) elements position w result last := by
  induction elements generalizing position w with
  | nil =>
    constructor
    · rintro ⟨rfl, rfl⟩
      exact .all (.nil ..)
    · intro ends
      cases ends with
      | all visits =>
        cases visits
        exact ⟨rfl, rfl⟩
      | broken split => cases List.append_ne_nil_of_right_ne_nil _ (List.cons_ne_nil _ _) split.symm
      | left split => cases List.append_ne_nil_of_right_ne_nil _ (List.cons_ne_nil _ _) split.symm
  | cons element elements ih =>
    rw [visit_cons, comes_bind, walkEnds_cons_iff]
    constructor
    · rintro (⟨again, w', first, ends⟩ | ⟨stop, stops, rfl⟩)
      · obtain ⟨ended, round, same⟩ := eachRound_comes_iff.mp first
        cases again with
        | true => exact ⟨ended, w', round, .inl ⟨same.symm, ih.mp ends⟩⟩
        | false => exact ⟨ended, w', round, .inr (.inl ⟨same.symm, ends⟩)⟩
      · obtain ⟨ended, round, same⟩ := eachRound_comes_iff.mp stops
        exact ⟨ended, last, round, .inr (.inr ⟨stop, same.symm, rfl, rfl⟩)⟩
    · rintro ⟨ended, w', round, ⟨goesOn, ends⟩ | ⟨breaks, rfl, rfl⟩ | ⟨stop, stops, rfl, rfl⟩⟩
      · exact .inl ⟨true, w', eachRound_comes_iff.mpr ⟨ended, round, goesOn.symm⟩, ih.mpr ends⟩
      · exact .inl ⟨false, _, eachRound_comes_iff.mpr ⟨ended, round, breaks.symm⟩, rfl, rfl⟩
      · exact .inr ⟨stop, eachRound_comes_iff.mpr ⟨ended, round, stops.symm⟩, rfl⟩

end Eval

/-! ## Loops -/

/-- The elements that a value has in a store: the items of an array or a tuple, the entries of a map with
their keys, the data of an entity with their names, and the characters of a text. -/
def Store.snapshot? (s : Store) : Value → Option (List Value)
  | .array id => some (s.array id).toList
  | .tuple items => some items
  | .map id => some ((s.map id).entries.map fun (key, value) => .tuple [.string key, value])
  | .entity entity => some ((s.members entity).map fun (name, value) => .tuple [.string name, value])
  | .string text => some (text.toList.map fun c => .string c.toString)
  | _ => none

theorem Eval.elements_eq {m : Machine} {value : Value} {items : List Value} {env : EnvId} {w : World}
    (snapshot : w.store.snapshot? value = some items) : elements m value env w = .done items w := by
  cases value <;> cases snapshot <;> rfl

/-- What a loop over the elements of a value ends with: where the value or its elements stop, or else with
what the walk does over the elements that there are when it begins. -/
inductive EachEnds (m : Machine) (meanwhile : Wait → World → World → Prop) (item : String)
    (index : Option String) (iterable : Expr) (body : Block) (frame : FrameId) (env : EnvId)
    (w : World) : Except Stop Unit → World → Prop
  | unevaluated {stop : Stop} {last : World} :
    (Eval.eval m iterable frame env w).Comes meanwhile (.error stop) last →
    EachEnds m meanwhile item index iterable body frame env w (.error stop) last
  | uncounted {value : Value} {w' last : World} {stop : Stop} :
    (Eval.eval m iterable frame env w).Comes meanwhile (.ok value) w' →
    (Eval.elements m value env w').Comes meanwhile (.error stop) last →
    EachEnds m meanwhile item index iterable body frame env w (.error stop) last
  | walked {value : Value} {w' w'' last : World} {elements : List Value} {result : Except Stop Unit} :
    (Eval.eval m iterable frame env w).Comes meanwhile (.ok value) w' →
    (Eval.elements m value env w').Comes meanwhile (.ok elements) w'' →
    WalkEnds (EachRound m meanwhile item index body frame env) elements 0 w'' result last →
    EachEnds m meanwhile item index iterable body frame env w result last

theorem Eval.statement_each_comes_iff {m : Machine} {meanwhile : Wait → World → World → Prop}
    {position : Position} {item : String} {index : Option String} {iterable : Expr} {body : Block}
    {frame : FrameId} {env : EnvId} {w last : World} {result : Except Stop Unit} :
    (statement m ⟨position, .each item index iterable body⟩ frame env w).Comes meanwhile result last ↔
      EachEnds m meanwhile item index iterable body frame env w result last := by
  show ((do
    let value ← eval m iterable frame
    let elements ← elements m value
    visit (eachRound m item index body frame) elements 0 : Eval Unit) env w).Comes _ _ _ ↔ _
  simp only [comes_bind, visit_comes_iff]
  constructor
  · rintro (⟨value, w', evaluated, ⟨elements, w'', counted, ends⟩ | ⟨stop, stops, rfl⟩⟩ |
      ⟨stop, stops, rfl⟩)
    · exact .walked evaluated counted ends
    · exact .uncounted evaluated stops
    · exact .unevaluated stops
  · rintro (stops | ⟨evaluated, stops⟩ | ⟨evaluated, counted, ends⟩)
    · exact .inr ⟨_, stops, rfl⟩
    · exact .inl ⟨_, _, evaluated, .inr ⟨_, stops, rfl⟩⟩
    · exact .inl ⟨_, _, evaluated, .inl ⟨_, _, counted, ends⟩⟩

/-! ## Calls for items -/

section

variable (m : Machine) (meanwhile : Wait → World → World → Prop) (callback : Value)
  (args : Value → Value → List Value) (env : EnvId)

/-- A function is called for items in order, and once for each of them: every call begins in the world that
the one before has left. What it is given may depend on the value of the one before, too. -/
inductive Calls : Value → List Value → List Value → World → World → Prop
  | nil (previous : Value) (w : World) : Calls previous [] [] w w
  | cons {previous item value : Value} {items values : List Value} {w w' last : World} :
    (m.run (.call callback (args previous item) none) env w).Comes meanwhile (.ok value) w' →
    Calls value items values w' last → Calls previous (item :: items) (value :: values) w last

/-- Those before one item have been called for, and the call for that one stops. -/
def CallsStop (previous : Value) (items : List Value) (w : World) (stop : Stop) (last : World) : Prop :=
  ∃ before item after values w', items = before ++ item :: after ∧
    Calls m meanwhile callback args env previous before values w w' ∧
      (m.run (.call callback (args (values.getLastD previous) item) none) env w').Comes meanwhile
        (.error stop) last

/-- What calls for items end with: if all of them give values, with what is made of these. -/
inductive CallsEnd {α : Type} (finish : List Value → World → α × World) (previous : Value)
    (items : List Value) (w : World) : Except Stop α → World → Prop
  | all {values : List Value} {w' : World} :
    Calls m meanwhile callback args env previous items values w w' →
    CallsEnd finish previous items w (.ok (finish values w').1) (finish values w').2
  | stopped {stop : Stop} {last : World} :
    CallsStop m meanwhile callback args env previous items w stop last →
    CallsEnd finish previous items w (.error stop) last

/-- Calls a function for items in order, and gives the values. -/
def Eval.callEach : Value → List Value → Eval (List Value)
  | _, [] => return []
  | previous, item :: items => do
    let value ← m.run (.call callback (args previous item) none)
    return value :: (← callEach value items)

end

/-- A function is given the item. -/
def itemAlone : Value → Value → List Value
  | _, item => [item]

/-- A function is given the value of the call before, and the item. -/
def withPrevious : Value → Value → List Value
  | previous, item => [previous, item]

/-- The items for which a function has given what counts as true. -/
def keptItems (items values : List Value) : List Value :=
  ((items.zip values).filter (·.2.isTruthy)).map (·.1)

section

variable {m : Machine} {meanwhile : Wait → World → World → Prop} {callback : Value}
  {args : Value → Value → List Value} {env : EnvId} {previous item value : Value}
  {items values : List Value} {w last : World}

theorem keptItems_sublist (enough : items.length ≤ values.length) :
    (keptItems items values).Sublist items := by
  have kept := (List.filter_sublist (p := (·.2.isTruthy)) (l := items.zip values)).map (·.1)
  rwa [List.map_fst_zip enough] at kept

theorem Calls.length_eq (h : Calls m meanwhile callback args env previous items values w last) :
    items.length = values.length := by
  induction h with
  | nil => rfl
  | cons _ _ ih => exact congrArg Nat.succ ih

/-- Behind a call that gives a value, those for the other items stop where they do. -/
theorem CallsStop.cons {w' : World} {stop : Stop}
    (first : (m.run (.call callback (args previous item) none) env w).Comes meanwhile (.ok value) w')
    (stops : CallsStop m meanwhile callback args env value items w' stop last) :
    CallsStop m meanwhile callback args env previous (item :: items) w stop last := by
  obtain ⟨before, other, after, values, w'', rfl, calls, stops⟩ := stops
  refine ⟨item :: before, other, after, value :: values, w'', rfl, .cons first calls, ?_⟩
  rwa [List.getLastD_cons]

/-- Calls for items come to an end if every call does. -/
theorem exists_callsEnd {α : Type} (finish : List Value → World → α × World)
    (ends : ∀ args w, ∃ outcome w',
      (m.run (.call callback args none) env w).Comes meanwhile outcome w')
    (previous : Value) (items : List Value) (w : World) :
    ∃ result last, CallsEnd m meanwhile callback args env finish previous items w result last := by
  suffices called : (∃ values last, Calls m meanwhile callback args env previous items values w last) ∨
      ∃ stop last, CallsStop m meanwhile callback args env previous items w stop last by
    obtain ⟨values, last, calls⟩ | ⟨stop, last, stops⟩ := called
    · exact ⟨_, _, .all calls⟩
    · exact ⟨_, _, .stopped stops⟩
  induction items generalizing previous w with
  | nil => exact .inl ⟨[], w, .nil previous w⟩
  | cons item items ih =>
    obtain ⟨outcome, w', first⟩ := ends (args previous item) w
    cases outcome with
    | error stop => exact .inr ⟨stop, w', [], item, items, [], w, rfl, .nil previous w, first⟩
    | ok value =>
      obtain ⟨values, last, calls⟩ | ⟨stop, last, stops⟩ := ih value w'
      · exact .inl ⟨value :: values, last, .cons first calls⟩
      · exact .inr ⟨stop, last, stops.cons first⟩

namespace Eval

theorem callEach_comes_ok : (callEach m callback args previous items env w).Comes meanwhile
    (.ok values) last ↔ Calls m meanwhile callback args env previous items values w last := by
  induction items generalizing previous values w with
  | nil =>
    constructor
    · rintro ⟨⟨⟩, rfl⟩
      exact .nil previous last
    · intro calls
      cases calls
      exact ⟨rfl, rfl⟩
  | cons item items ih =>
    simp only [callEach, comes_bind]
    constructor
    · rintro (⟨value, w', first, ⟨others, w'', rest, ⟨⟩, rfl⟩ | ⟨_, _, ⟨⟩⟩⟩ | ⟨_, _, ⟨⟩⟩)
      exact .cons first (ih.mp rest)
    · intro calls
      obtain _ | ⟨first, rest⟩ := calls
      exact .inl ⟨_, _, first, .inl ⟨_, _, ih.mpr rest, rfl, rfl⟩⟩

theorem callEach_comes_error {stop : Stop} : (callEach m callback args previous items env w).Comes
    meanwhile (.error stop) last ↔
      CallsStop m meanwhile callback args env previous items w stop last := by
  induction items generalizing previous w with
  | nil =>
    constructor
    · exact fun ends => nomatch ends.1
    · rintro ⟨before, item, after, values, w', split, -⟩
      exact absurd split (by simp)
  | cons item items ih =>
    simp only [callEach, comes_bind]
    constructor
    · rintro (⟨value, w', first, ⟨others, w'', rest, ⟨⟩, -⟩ | ⟨_, stops, ⟨⟩⟩⟩ | ⟨_, stops, ⟨⟩⟩)
      · exact (ih.mp stops).cons first
      · exact ⟨[], item, items, [], w, rfl, .nil previous w, stops⟩
    · rintro ⟨before, other, after, values, w', split, calls, stops⟩
      obtain _ | ⟨first, calls⟩ := calls
      · obtain ⟨rfl, rfl⟩ := List.cons.inj split
        exact .inr ⟨_, stops, rfl⟩
      · obtain ⟨rfl, rfl⟩ := List.cons.inj split
        rw [List.getLastD_cons] at stops
        exact .inl ⟨_, _, first, .inr ⟨_, ih.mpr ⟨_, _, _, _, _, rfl, calls, stops⟩, rfl⟩⟩

/-- Something is made of the values of calls. -/
theorem callEach_comes_iff {α : Type} {next : List Value → Eval α}
    {finish : List Value → World → α × World} {result : Except Stop α}
    (finishes : ∀ values w, next values env w = .done (finish values w).1 (finish values w).2) :
    ((callEach m callback args previous items >>= next) env w).Comes meanwhile result last ↔
      CallsEnd m meanwhile callback args env finish previous items w result last := by
  simp only [comes_bind, callEach_comes_ok, callEach_comes_error, finishes]
  constructor
  · rintro (⟨values, w', calls, rfl, rfl⟩ | ⟨stop, stops, rfl⟩)
    · exact .all calls
    · exact .stopped stops
  · intro ends
    cases ends with
    | all calls => exact .inl ⟨_, _, calls, rfl, rfl⟩
    | stopped stops => exact .inr ⟨_, stops, rfl⟩

/-! ### The methods of arrays -/

/-- What is called for an item, and then for the others. -/
theorem map_callEach_cons {α : Type} (f : List Value → α) :
    f <$> callEach m callback args previous (item :: items) = (do
      let value ← m.run (.call callback (args previous item) none)
      (fun values => f (value :: values)) <$> callEach m callback args value items) := by
  simp [callEach]

theorem mapItems_eq (previous : Value) (results : Array Value) : mapItems m callback items results =
    (results.toList ++ ·) <$> callEach m callback itemAlone previous items := by
  induction items generalizing results previous with
  | nil => simp [mapItems, callEach]
  | cons item items ih =>
    rw [mapItems, map_callEach_cons]
    refine bind_congr fun value => ?_
    simp [ih value]

theorem eachItem_eq (previous : Value) : eachItem m callback items =
    (fun _ => ()) <$> callEach m callback itemAlone previous items := by
  induction items generalizing previous with
  | nil => rfl
  | cons item items ih =>
    rw [eachItem, map_callEach_cons]
    exact bind_congr fun value => ih value

theorem filterItems_eq (previous : Value) (kept : Array Value) : filterItems m callback items kept =
    (kept.toList ++ keptItems items ·) <$> callEach m callback itemAlone previous items := by
  induction items generalizing kept previous with
  | nil => simp [filterItems, callEach, keptItems]
  | cons item items ih =>
    rw [filterItems, map_callEach_cons]
    refine bind_congr fun value => (ih value _).trans ?_
    cases truth : value.isTruthy <;> simp [keptItems, truth]

theorem foldItems_eq (first : Value) : foldItems m callback items first =
    (·.getLastD first) <$> callEach m callback withPrevious first items := by
  induction items generalizing first with
  | nil => simp [foldItems, callEach]
  | cons item items ih =>
    rw [foldItems, map_callEach_cons]
    refine bind_congr fun value => (ih value).trans ?_
    simp only [List.getLastD_cons]

end Eval

end

/-- A new array, and the world with it. -/
def World.withArray (w : World) (items : List Value) : Value × World :=
  (.array w.store.arrays.size, { w with store := (w.store.newArray items.toArray).2 })

namespace Eval

variable {m : Machine} {meanwhile : Wait → World → World → Prop} {env : EnvId} {w last : World}
  {id : ArrayId} {f : FunctionId} {viewer : Option EntityRef} {result : Except Stop Value}

/-- A method that calls a function for the items of an array calls it for those that there are now. -/
theorem callMethod_forEach : callMethod m (.array id) "forEach" [.function f] viewer env w =
    (eachItem m (.function f) (w.store.array id).toList >>= fun _ => return .unit) env w := rfl

theorem callMethod_map : callMethod m (.array id) "map" [.function f] viewer env w =
    (mapItems m (.function f) (w.store.array id).toList #[] >>= newArray) env w := rfl

theorem callMethod_filter : callMethod m (.array id) "filter" [.function f] viewer env w =
    (filterItems m (.function f) (w.store.array id).toList #[] >>= newArray) env w := rfl

theorem callMethod_reduce (args : List Value) : callMethod m (.array id) "reduce" args viewer env w =
    itemMethod m .reduce (.array id) (w.store.array id).toList "reduce" args env w := rfl

theorem itemMethod_reduce_from (first : Value) (items : List Value) :
    itemMethod m .reduce (.array id) items "reduce" [first, .function f] env w =
      foldItems m (.function f) items first env w := by
  have found : callback? .reduce [first, .function f] = some (.function f) := by
    cases first <;> rfl
  rw [itemMethod, found]

end Eval

/-! ## All together -/

/-- Loops and methods of arrays visit what there is when they begin. -/
structure IteratesSnapshot (m : Machine) (meanwhile : Wait → World → World → Prop) (env : EnvId) :
    Prop where
  /-- A loop walks over the elements of its value, from the first position on. -/
  each {s : Stmt} {item : String} {index : Option String} {iterable : Expr} {body : Block}
    {frame : FrameId} {w last : World} {result : Except Stop Unit} :
    s.kind = .each item index iterable body →
      ((Eval.statement m s frame env w).Comes meanwhile result last ↔
        EachEnds m meanwhile item index iterable body frame env w result last)
  /-- These are the ones that an array, a tuple, a map, an entity or a text has when the loop begins. -/
  counts {value : Value} {elements : List Value} {w last : World}
    {result : Except Stop (List Value)} : w.store.snapshot? value = some elements →
      ((Eval.elements m value env w).Comes meanwhile result last ↔
        result = .ok elements ∧ last = w)
  /-- The frame of a round is new, stands in that of the loop, and has the names of the item and the index
  and no others. -/
  binds {item : String} {index : Option String} {element : Value} {position : Nat} {frame : FrameId}
    {w : World} : w.store.frames.Encloses
      (w.scope frame (roundNames item index element position)).store.frames frame w.nextFrame
      (roundNames item index element position)
  /-- A loop ends if all its rounds do, whatever they do. -/
  ends {item : String} {index : Option String} {body : Block} {frame : FrameId}
    {elements : List Value} {w : World} :
    (∀ element ∈ elements, ∀ position w, ∃ ended w',
      EachRound m meanwhile item index body frame env element position w ended w') →
    ∃ result last, WalkEnds (EachRound m meanwhile item index body frame env) elements 0 w result last
  /-- The function is called for each item of an array in order. -/
  forEach {id : ArrayId} {f : FunctionId} {viewer : Option EntityRef} {w last : World}
    {result : Except Stop Value} :
    (Eval.callMethod m (.array id) "forEach" [.function f] viewer env w).Comes meanwhile result last ↔
      CallsEnd m meanwhile (.function f) itemAlone env (fun _ w => (.unit, w)) .null
        (w.store.array id).toList w result last
  /-- The values of the calls are those of a new array. -/
  map {id : ArrayId} {f : FunctionId} {viewer : Option EntityRef} {w last : World}
    {result : Except Stop Value} :
    (Eval.callMethod m (.array id) "map" [.function f] viewer env w).Comes meanwhile result last ↔
      CallsEnd m meanwhile (.function f) itemAlone env (fun values w => w.withArray values) .null
        (w.store.array id).toList w result last
  /-- The items for which the values count as true are those of a new array. -/
  filter {id : ArrayId} {f : FunctionId} {viewer : Option EntityRef} {w last : World}
    {result : Except Stop Value} :
    (Eval.callMethod m (.array id) "filter" [.function f] viewer env w).Comes meanwhile result last ↔
      CallsEnd m meanwhile (.function f) itemAlone env
        (fun values w' => w'.withArray (keptItems (w.store.array id).toList values)) .null
        (w.store.array id).toList w result last
  /-- The items are combined from the left with a first value, -/
  reduceFrom {id : ArrayId} {f : FunctionId} {first : Value} {viewer : Option EntityRef}
    {w last : World} {result : Except Stop Value} :
    (Eval.callMethod m (.array id) "reduce" [first, .function f] viewer env w).Comes meanwhile
        result last ↔
      CallsEnd m meanwhile (.function f) withPrevious env (fun values w => (values.getLastD first, w))
        first (w.store.array id).toList w result last
  /-- or else the others with the first one of them, -/
  reduce {id : ArrayId} {f : FunctionId} {first : Value} {items : List Value}
    {viewer : Option EntityRef} {w last : World} {result : Except Stop Value} :
    (w.store.array id).toList = first :: items →
    ((Eval.callMethod m (.array id) "reduce" [.function f] viewer env w).Comes meanwhile result last ↔
      CallsEnd m meanwhile (.function f) withPrevious env (fun values w => (values.getLastD first, w))
        first items w result last)
  /-- if there is one. -/
  reduceNone {id : ArrayId} {f : FunctionId} {viewer : Option EntityRef} {w last : World}
    {result : Except Stop Value} : (w.store.array id).toList = [] →
    ((Eval.callMethod m (.array id) "reduce" [.function f] viewer env w).Comes meanwhile result last ↔
      result = .ok .null ∧ last = w)
  /-- Calls end if all of them do, whatever they do. -/
  called {callback : Value} {args : Value → Value → List Value}
    {finish : List Value → World → Value × World} {previous : Value} {items : List Value} {w : World} :
    (∀ args w, ∃ outcome w',
      (m.run (.call callback args none) env w).Comes meanwhile outcome w') →
    ∃ result last, CallsEnd m meanwhile callback args env finish previous items w result last
  /-- There is one value for each item, and what is kept is some of the items in their order. -/
  calls {f : FunctionId} {args : Value → Value → List Value} {previous : Value}
    {items values : List Value} {w last : World} :
    Calls m meanwhile (.function f) args env previous items values w last →
      items.length = values.length ∧ (keptItems items values).Sublist items

/-- Loops over elements and methods that call a function for the items of an array are about what there is
when they begin. A function that is called only stops by a panic, if what there is has been accepted. -/
theorem Eval.iterates_snapshot (m : Machine) (meanwhile : Wait → World → World → Prop) (env : EnvId) :
    IteratesSnapshot m meanwhile env ∧
      ∀ {levels : Nat} {callback : Value} {args : List Value} {w last : World} {s : Signal},
        w.Accepted → ((⟨fun goal => goal.run levels⟩ : Machine).run (.call callback args none) env w).Comes
          (fun _ w w' => w'.Accepted ∧ w.Later w') (.error (.signal s)) last →
        ∃ cause, s = .panic cause := by
  constructor
  · constructor
    case each =>
      rintro ⟨position, _⟩ item index iterable body frame w last result ⟨⟩
      exact statement_each_comes_iff
    case counts =>
      intro value elements w last result snapshot
      rw [elements_eq snapshot]
      exact Iff.rfl
    case binds => exact Frames.encloses_scope ..
    case ends => exact exists_walkEnds
    case forEach =>
      intro id f viewer w last result
      rw [callMethod_forEach, eachItem_eq .null, bind_map_left]
      exact callEach_comes_iff fun _ _ => rfl
    case map =>
      intro id f viewer w last result
      rw [callMethod_map, mapItems_eq .null, bind_map_left]
      exact callEach_comes_iff fun _ _ => rfl
    case filter =>
      intro id f viewer w last result
      rw [callMethod_filter, filterItems_eq .null, bind_map_left]
      exact callEach_comes_iff fun _ _ => rfl
    case reduceFrom =>
      intro id f first viewer w last result
      rw [callMethod_reduce, itemMethod_reduce_from, foldItems_eq, map_eq_pure_bind]
      exact callEach_comes_iff fun _ _ => rfl
    case reduce =>
      intro id f first items viewer w last result some
      rw [callMethod_reduce, some]
      show (foldItems m (.function f) items first env w).Comes _ _ _ ↔ _
      rw [foldItems_eq, map_eq_pure_bind]
      exact callEach_comes_iff fun _ _ => rfl
    case reduceNone =>
      intro id f viewer w last result none
      rw [callMethod_reduce, none]
      exact Iff.rfl
    case called => exact fun ends => exists_callsEnd _ ends ..
    case calls => exact fun calls => ⟨calls.length_eq, keptItems_sublist (Nat.le_of_eq calls.length_eq)⟩
  · intro levels callback args w last s accepted comes
    have tame := tame_run_open (d := .accepted) levels
    have follows : (Machine.run _ (.call callback args none)).Tame .accepted env w false false :=
      tame.callAlone
    exact ((follows w accepted (.refl w)).ends_of_comes comes).exists_panic

/-- A world in which `a` is an array with one item, and a function that panics. -/
def World.listed : World :=
  { World.empty with
    store := { Store.empty with
      frames := Frames.empty.root.2.declare 0 "a" (.array 0)
      arrays := #[#[.bool true]]
      functions := #[.native .panic] } }

theorem World.accepted_listed : World.listed.Accepted where
  functions := by
    intro callable mem
    obtain rfl := Array.mem_singleton.mp mem
    trivial
  queue := nofun
  modules := nofun
  clean := rfl

/-- The block `{ a.push(x); }`. -/
def growingSample : Block :=
  ⟨[⟨.nowhere, .expression ⟨0, .nowhere, .call ⟨1, .nowhere, .member ⟨2, .nowhere, .name "a"⟩ "push"⟩
    [⟨3, .nowhere, .name "x"⟩]⟩ true⟩], .nowhere⟩

/-- The loop `each x in a { a.push(x); }` visits the one item of the array, which has two in the end.
What ends the call of a function that panics is a panic. -/
theorem Eval.iterates_snapshot_of_growing :
    (∃ last, EachEnds ⟨fun goal => goal.run 5⟩ (fun _ _ _ => False) "x" none ⟨4, .nowhere, .name "a"⟩
        growingSample 0 0 .listed (.ok ()) last ∧
      (last.store.array 0).size = 2) ∧
    World.listed.Accepted ∧
      ∃ s last cause, ((⟨fun goal => goal.run 5⟩ : Machine).run
          (.call (.function 0) [.bool true] none) 0 .listed).Comes
            (fun _ w w' => w'.Accepted ∧ w.Later w') (.error (.signal s)) last ∧ s = .panic cause := by
  have ⟨law, panics⟩ := iterates_snapshot ⟨fun goal => goal.run 5⟩ (fun _ _ _ => False) 0
  have grown : (match statement ⟨fun goal => goal.run 5⟩
      ⟨.nowhere, .each "x" none ⟨4, .nowhere, .name "a"⟩ growingSample⟩ 0 0 .listed with
    | .done () last => (last.store.array 0).size
    | _ => 0) = 2 := by decide +kernel
  refine ⟨?_, World.accepted_listed, ?_⟩
  · split at grown
    · next last ran =>
      refine ⟨last, (law.each (s := ⟨.nowhere, _⟩) rfl).mp ?_, grown⟩
      rw [ran]
      exact ⟨rfl, rfl⟩
    · cases grown
  · obtain ⟨cause, same⟩ := @panics 5 (.function 0) [.bool true] _ _ _ World.accepted_listed ⟨rfl, rfl⟩
    exact ⟨_, _, cause, ⟨rfl, rfl⟩, same⟩

end ScriptEngine
