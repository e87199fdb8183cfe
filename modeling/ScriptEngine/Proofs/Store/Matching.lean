import ScriptEngine.Store.Equality

/-!
# Values that fit a pattern

A pattern fits a value or not; which it is does not depend on how it is found out. A value that fits
gives the names of the pattern, in the order they are written.

* `Store.Fits`: which values a pattern fits, and what part of the value each of its names faces.
* `Store.names_bindPattern`: the names that are bound are those of the pattern.
* `Store.bindSequence_of_not_mem`, `Store.bindSequence_around`: what matching lists comes to, without
  a mark for the rest and around the first one.
* `Store.bindPattern_iff_fits`: matching finds the names and values where the pattern fits.
-/

namespace ScriptEngine.Store

open Pattern (bindingsOfAll)

/-! ## Fitting -/

mutual

/-- A pattern fits a value, and its names face these parts of the value, in the order they are
written. -/
inductive Fits (s : Store) : Pattern → Value → List (String × Value) → Prop
  | wildcard (value : Value) : Fits s .wildcard value []
  | rest (value : Value) : Fits s .rest value []
  | bind (name : String) (value : Value) : Fits s (.bind name) value [(name, value)]
  | literal {literal : Literal} {value : Value} : s.equals (.ofLiteral literal) value = true →
    Fits s (.literal literal) value []
  /-- A tuple pattern takes apart tuples, arrays and entities: these by their own members. -/
  | tupleOfTuple {items : List Pattern} {elements : List Value} {names : List (String × Value)} :
    FitsItems s items elements names → Fits s (.tuple items) (.tuple elements) names
  | tupleOfArray {items : List Pattern} {id : ArrayId} {names : List (String × Value)} :
    FitsItems s items (s.array id).toList names → Fits s (.tuple items) (.array id) names
  | tupleOfEntity {items : List Pattern} {entity : EntityRef} {names : List (String × Value)} :
    FitsItems s items ((s.members entity).map (·.2)) names →
    Fits s (.tuple items) (.entity entity) names
  /-- An array pattern takes apart arrays and tuples. -/
  | arrayOfArray {items : List Pattern} {id : ArrayId} {names : List (String × Value)} :
    FitsItems s items (s.array id).toList names → Fits s (.array items) (.array id) names
  | arrayOfTuple {items : List Pattern} {elements : List Value} {names : List (String × Value)} :
    FitsItems s items elements names → Fits s (.array items) (.tuple elements) names

/-- A list of patterns fits a list of elements: either item by item, or, around the first mark for the
rest, those before it the leading elements and those behind it the trailing ones. -/
inductive FitsItems (s : Store) : List Pattern → List Value → List (String × Value) → Prop
  | exact {items : List Pattern} {elements : List Value} {names : List (String × Value)} :
    .rest ∉ items → FitsEach s items elements names → FitsItems s items elements names
  | around {before after : List Pattern} {leading middle trailing : List Value}
    {names others : List (String × Value)} : .rest ∉ before → FitsEach s before leading names →
    FitsEach s after trailing others →
    FitsItems s (before ++ .rest :: after) (leading ++ middle ++ trailing) (names ++ others)

/-- As many patterns as elements fit one by one. -/
inductive FitsEach (s : Store) : List Pattern → List Value → List (String × Value) → Prop
  | nil : FitsEach s [] [] []
  | cons {item : Pattern} {items : List Pattern} {element : Value} {elements : List Value}
    {names others : List (String × Value)} : Fits s item element names →
    FitsEach s items elements others →
    FitsEach s (item :: items) (element :: elements) (names ++ others)

end

/-! ## Names -/

mutual

theorem names_bindPattern (s : Store) {p : Pattern} {value : Value} {names : List (String × Value)}
    (h : s.bindPattern p value = some names) : names.map (·.1) = p.bindings := by
  match p with
  | .wildcard | .rest =>
    obtain rfl := Option.some.inj h
    rfl
  | .bind name =>
    obtain rfl := Option.some.inj h
    rfl
  | .literal literal =>
    rw [bindPattern] at h
    split at h
    · obtain rfl := Option.some.inj h
      rfl
    · cases h
  | .tuple items =>
    rw [bindPattern] at h
    split at h
    · exact s.names_bindSequence h
    · cases h
  | .array items =>
    cases value with
    | array ref | tuple parts =>
      rw [bindPattern] at h
      split at h
      · exact s.names_bindSequence h
      · cases h
    | _ => cases h

theorem names_bindSequence (s : Store) {items : List Pattern} {elements : List Value}
    {names : List (String × Value)} (h : s.bindSequence items elements = some names) :
    names.map (·.1) = bindingsOfAll items := by
  match items, elements with
  | [], [] =>
    obtain rfl := Option.some.inj h
    rfl
  | [], _ :: _ => cases h
  | item :: items, elements =>
    unfold bindSequence at h
    split at h
    · next no => cases no
    · next no => cases no
    · next same =>
      cases same
      split at h
      · next enough =>
        -- As many elements are left at the end as patterns stand behind the mark.
        have behind := s.names_bindEach (by rw [List.length_drop]; omega) h
        exact behind
      · cases h
    · cases h
    · next same =>
      cases same
      obtain ⟨first, one, h⟩ := Option.bind_eq_some_iff.mp h
      obtain ⟨others, rest, h⟩ := Option.bind_eq_some_iff.mp h
      obtain rfl := Option.some.inj h
      rw [List.map_append, s.names_bindPattern one, s.names_bindSequence rest]
      rfl

theorem names_bindEach (s : Store) {items : List Pattern} {elements : List Value}
    {names : List (String × Value)} (length : items.length = elements.length)
    (h : s.bindEach items elements = some names) :
    names.map (·.1) = bindingsOfAll items := by
  match items, elements with
  | [], [] =>
    obtain rfl := Option.some.inj h
    rfl
  | item :: items, element :: elements =>
    obtain ⟨first, one, h⟩ := Option.bind_eq_some_iff.mp h
    obtain ⟨others, rest, h⟩ := Option.bind_eq_some_iff.mp h
    obtain rfl := Option.some.inj h
    rw [List.map_append, s.names_bindPattern one, s.names_bindEach (Nat.succ.inj length) rest]
    rfl

end

/-! ## Matching lists -/

variable {s : Store} {item : Pattern} {items before after : List Pattern} {element : Value}
  {elements : List Value} {names : List (String × Value)}

theorem bindSequence_cons_nil (ne : item ≠ .rest) : s.bindSequence (item :: items) [] = none := by
  cases item <;> first | exact absurd rfl ne | rfl

theorem bindSequence_cons (ne : item ≠ .rest) :
    s.bindSequence (item :: items) (element :: elements) =
      (s.bindPattern item element).bind fun first =>
        (s.bindSequence items elements).bind fun others => some (first ++ others) := by
  cases item <;> first | exact absurd rfl ne | rfl

theorem bindEach_cons : s.bindEach (item :: items) (element :: elements) =
    (s.bindPattern item element).bind fun first =>
      (s.bindEach items elements).bind fun others => some (first ++ others) := rfl

/-- Without a mark for the rest, as many elements are matched one by one. -/
theorem bindSequence_of_not_mem (no : .rest ∉ items) : s.bindSequence items elements =
    if items.length = elements.length then s.bindEach items elements else none := by
  induction items generalizing elements with
  | nil => cases elements <;> rfl
  | cons item items ih =>
    have ne : item ≠ .rest := fun same => no (same ▸ List.mem_cons_self)
    cases elements with
    | nil => exact bindSequence_cons_nil ne
    | cons element elements =>
      rw [bindSequence_cons ne, ih fun mem => no (List.mem_cons_of_mem _ mem), bindEach_cons,
        List.length_cons, List.length_cons]
      by_cases same : items.length = elements.length
      · rw [if_pos same, if_pos (congrArg Nat.succ same)]
      · rw [if_neg same, if_neg fun next => same (Nat.succ.inj next)]
        cases s.bindPattern item element <;> rfl

/-- Around the first mark for the rest, the leading elements are matched with the patterns before it
and the trailing ones with those behind it. -/
theorem bindSequence_around (no : .rest ∉ before) :
    s.bindSequence (before ++ .rest :: after) elements =
      if before.length + after.length ≤ elements.length then
        (s.bindEach before (elements.take before.length)).bind fun first =>
          (s.bindEach after (elements.drop (elements.length - after.length))).bind fun others =>
            some (first ++ others)
      else none := by
  induction before generalizing elements with
  | nil =>
    show (if after.length ≤ elements.length then _ else none) = _
    rw [List.length_nil, Nat.zero_add]
    by_cases enough : after.length ≤ elements.length
    · rw [if_pos enough, if_pos enough]
      show _ = (s.bindEach after _).bind fun others => some others
      cases s.bindEach after (elements.drop (elements.length - after.length)) <;> rfl
    · rw [if_neg enough, if_neg enough]
  | cons item before ih =>
    have ne : item ≠ .rest := fun same => no (same ▸ List.mem_cons_self)
    cases elements with
    | nil =>
      rw [List.cons_append, bindSequence_cons_nil ne, if_neg]
      rw [List.length_cons, List.length_nil]
      omega
    | cons element elements =>
      rw [List.cons_append, bindSequence_cons ne, ih fun mem => no (List.mem_cons_of_mem _ mem)]
      simp only [List.length_cons]
      by_cases enough : before.length + after.length ≤ elements.length
      · have behind : elements.length + 1 - after.length = elements.length - after.length + 1 := by
          omega
        rw [if_pos enough, if_pos (by omega), behind, List.take_succ_cons, List.drop_succ_cons,
          bindEach_cons]
        cases s.bindPattern item element with
        | none => rfl
        | some first =>
          cases s.bindEach before (elements.take before.length) with
          | none => rfl
          | some second =>
            cases s.bindEach after (elements.drop (elements.length - after.length)) with
            | none => rfl
            | some others => simp
      · rw [if_neg enough, if_neg (by omega)]
        cases s.bindPattern item element <;> rfl

/-! ## Matching is fitting -/

theorem FitsEach.length_eq (fits : s.FitsEach items elements names) :
    items.length = elements.length := by
  induction items generalizing elements names with
  | nil => cases fits; rfl
  | cons item items ih =>
    cases fits with
    | cons _ others => exact congrArg _ (ih others)

/-- What holds of each pattern of a list holds of the list. -/
theorem bindEach_iff_fits (each : ∀ item ∈ items, ∀ value names,
      s.bindPattern item value = some names ↔ s.Fits item value names)
    (length : items.length = elements.length) :
    s.bindEach items elements = some names ↔ s.FitsEach items elements names := by
  induction items generalizing elements names with
  | nil =>
    obtain rfl := List.length_eq_zero_iff.mp length.symm
    constructor
    · intro found
      obtain rfl := Option.some.inj found
      exact .nil
    · intro fits
      cases fits
      rfl
  | cons item items ih =>
    obtain ⟨element, elements, rfl⟩ := List.exists_cons_of_length_eq_add_one length.symm
    have ih := @ih elements
    rw [bindEach_cons, Option.bind_eq_some_iff]
    constructor
    · rintro ⟨first, one, found⟩
      obtain ⟨others, rest, same⟩ := Option.bind_eq_some_iff.mp found
      obtain rfl := Option.some.inj same
      refine .cons ((each item List.mem_cons_self _ _).mp one) ?_
      exact (ih (fun item mem => each item (List.mem_cons_of_mem _ mem)) (Nat.succ.inj length)).mp rest
    · intro fits
      cases fits with
      | @cons _ _ _ _ first others one rest =>
        refine ⟨first, (each item List.mem_cons_self _ _).mpr one, ?_⟩
        have rest := (ih (fun item mem => each item (List.mem_cons_of_mem _ mem))
          (Nat.succ.inj length)).mpr rest
        rw [rest]
        rfl

/-- The leading and the trailing elements of a list with what is between them. -/
theorem leading_middle_trailing {before after : Nat} (enough : before + after ≤ elements.length) :
    elements.take before ++ (elements.drop before).take (elements.length - after - before) ++
      elements.drop (elements.length - after) = elements := by
  have behind : elements.drop (elements.length - after) =
      (elements.drop before).drop (elements.length - after - before) := by
    rw [List.drop_drop]
    congr 1
    omega
  rw [behind, List.append_assoc, List.take_append_drop, List.take_append_drop]

/-- What matching a list finds, it finds where the list fits. -/
theorem fitsItems_of_bindSequence (each : ∀ item ∈ items, ∀ value names,
      s.bindPattern item value = some names ↔ s.Fits item value names)
    (found : s.bindSequence items elements = some names) : s.FitsItems items elements names := by
  by_cases mark : .rest ∈ items
  · obtain ⟨before, after, rfl, no⟩ := List.eq_append_cons_of_mem mark
    rw [bindSequence_around no] at found
    by_cases enough : before.length + after.length ≤ elements.length
    · rw [if_pos enough] at found
      obtain ⟨first, leading, found⟩ := Option.bind_eq_some_iff.mp found
      obtain ⟨others, trailing, same⟩ := Option.bind_eq_some_iff.mp found
      obtain rfl := Option.some.inj same
      have lead : s.FitsEach before (elements.take before.length) first := by
        refine (bindEach_iff_fits (fun item mem => each item (List.mem_append_left _ mem)) ?_).mp leading
        rw [List.length_take]
        omega
      have trail : s.FitsEach after (elements.drop (elements.length - after.length)) others := by
        refine (bindEach_iff_fits (fun item mem => each item
          (List.mem_append_right _ (List.mem_cons_of_mem _ mem))) ?_).mp trailing
        rw [List.length_drop]
        omega
      exact leading_middle_trailing enough ▸ .around no lead trail
    · rw [if_neg enough] at found
      cases found
  · rw [bindSequence_of_not_mem mark] at found
    by_cases length : items.length = elements.length
    · rw [if_pos length] at found
      exact .exact mark ((bindEach_iff_fits each length).mp found)
    · rw [if_neg length] at found
      cases found

/-- Where a list fits, matching it finds what its names face. -/
theorem bindSequence_of_fitsItems (each : ∀ item ∈ items, ∀ value names,
      s.bindPattern item value = some names ↔ s.Fits item value names)
    (fits : s.FitsItems items elements names) : s.bindSequence items elements = some names := by
  cases fits with
  | exact no fits =>
    rw [bindSequence_of_not_mem no, if_pos fits.length_eq]
    exact (bindEach_iff_fits each fits.length_eq).mpr fits
  | @around before after leading middle trailing first others no lead trail =>
    have found := (bindEach_iff_fits (fun item mem => each item (List.mem_append_left _ mem))
      lead.length_eq).mpr lead
    have behind := (bindEach_iff_fits (fun item mem => each item
      (List.mem_append_right _ (List.mem_cons_of_mem _ mem))) trail.length_eq).mpr trail
    have start : (leading ++ middle ++ trailing).take before.length = leading := by
      rw [List.append_assoc]
      exact List.take_left' lead.length_eq.symm
    have stop : (leading ++ middle ++ trailing).drop
        ((leading ++ middle ++ trailing).length - after.length) = trailing := by
      refine List.drop_left' ?_
      simp only [List.length_append, trail.length_eq]
      omega
    rw [bindSequence_around no, start, stop, found, behind, if_pos]
    · rfl
    · rw [List.length_append, List.length_append, lead.length_eq, trail.length_eq]
      omega

/-- Matching finds names and values exactly where the pattern fits: the values are those that the names
face. -/
theorem bindPattern_iff_fits (p : Pattern) (value : Value) (names : List (String × Value)) :
    s.bindPattern p value = some names ↔ s.Fits p value names := by
  cases p with
  | wildcard =>
    constructor
    · intro found
      obtain rfl := Option.some.inj found
      exact .wildcard value
    · rintro ⟨⟩
      rfl
  | rest =>
    constructor
    · intro found
      obtain rfl := Option.some.inj found
      exact .rest value
    · rintro ⟨⟩
      rfl
  | bind name =>
    constructor
    · intro found
      obtain rfl := Option.some.inj found
      exact .bind name value
    · rintro ⟨⟩
      rfl
  | literal literal =>
    rw [bindPattern]
    constructor
    · intro found
      split at found
      · next same =>
        obtain rfl := Option.some.inj found
        exact .literal same
      · cases found
    · intro fits
      cases fits with
      | literal same => rw [if_pos same]
  | tuple items =>
    have each : ∀ item ∈ items, ∀ value names,
        s.bindPattern item value = some names ↔ s.Fits item value names :=
      fun item mem => bindPattern_iff_fits item
    constructor
    · intro found
      cases value with
      | tuple _ => exact .tupleOfTuple (fitsItems_of_bindSequence each found)
      | array _ => exact .tupleOfArray (fitsItems_of_bindSequence each found)
      | entity _ => exact .tupleOfEntity (fitsItems_of_bindSequence each found)
      | _ => cases found
    · intro fits
      cases fits with
      | tupleOfTuple fits | tupleOfArray fits | tupleOfEntity fits =>
        exact bindSequence_of_fitsItems each fits
  | array items =>
    have each : ∀ item ∈ items, ∀ value names,
        s.bindPattern item value = some names ↔ s.Fits item value names :=
      fun item mem => bindPattern_iff_fits item
    constructor
    · intro found
      cases value with
      | array _ => exact .arrayOfArray (fitsItems_of_bindSequence each found)
      | tuple _ => exact .arrayOfTuple (fitsItems_of_bindSequence each found)
      | _ => cases found
    · intro fits
      cases fits with
      | arrayOfArray fits | arrayOfTuple fits => exact bindSequence_of_fitsItems each fits
termination_by sizeOf p

/-- Matching finds something exactly where the pattern fits the value. What it finds are the names of
the pattern in order, a name as often as it is written, each with the part of the value that it
faces. -/
theorem bindPattern_faces (s : Store) (p : Pattern) (value : Value)
    (names : List (String × Value)) :
    (s.bindPattern p value = some names ↔ s.Fits p value names) ∧
      (s.Fits p value names → names.map (·.1) = p.bindings) :=
  ⟨bindPattern_iff_fits p value names, fun fits =>
    s.names_bindPattern ((bindPattern_iff_fits p value names).mpr fits)⟩

/-- The rest may stand in the middle. -/
example : Store.empty.bindPattern
    (.tuple [.bind "age", .rest, .tuple [.wildcard, .bind "last"]])
    (.tuple [.number 47, .number 168, .string "male", .tuple [.string "will", .string "zhang"]]) =
      some [("age", .number 47), ("last", .string "zhang")] := rfl

end ScriptEngine.Store
