import ScriptEngine.Proofs.Typing.Unification

/-!
# A type by the forms of its parts

The common shape of two types is told part by part: a part is found by the steps that lead to it, and has
a form, such as that of an array or of a tuple of three. Of two forms in one place the weightier one is
the common one, and two forms of things that have nothing in common clash.

* `TypeExpr.Step`, `TypeExpr.child?`: the parts of a type; `TypeExpr.formAt`: the form of a part.
* `Form.rank`, `Form.join`: which of two forms gives way.
* `Clash`, `Fails`, `Undisputed`: two types that clash in a part, as a whole, or not around a part.
* `meets_unify`: two types have a common shape unless they clash as a whole, and it has the common form
  in every part that is undisputed.
* `sorted_eq_of_alike`: types whose parts have the same forms are the same, but for the order of
  members.
-/

namespace ScriptEngine.TypeExpr

/-! ## Forms and parts -/

/-- The form of a type, without what is inside it. Where there is no type the form is `absent`. -/
inductive Form
  | absent
  | unknown
  | null
  | number
  | string
  | bool
  | unit
  | array
  | tuple (length : Nat)
  | map
  | entity
  | function (arity : Nat)
  | promise
  | error
deriving DecidableEq

/-- A step into a type. -/
inductive Step
  | item
  | value
  | outcome
  | component (index : Nat)
  | param (index : Nat)
  | result
  | member (name : String)
deriving DecidableEq

/-- The form of a type. -/
def form : TypeExpr → Form
  | .number => .number
  | .string => .string
  | .bool => .bool
  | .unit => .unit
  | .null => .null
  | .array _ => .array
  | .tuple items => .tuple items.length
  | .map _ => .map
  | .entity _ => .entity
  | .function params _ => .function params.length
  | .promise _ => .promise
  | .error => .error
  | .unknown => .unknown

/-- The type that a step leads to. Every part of an error is an error. -/
def child? : TypeExpr → Step → Option TypeExpr
  | .error, _ => some .error
  | .array item, .item => some item
  | .map value, .value => some value
  | .promise value, .outcome => some value
  | .tuple items, .component index => items[index]?
  | .function params _, .param index => params[index]?
  | .function _ result, .result => some result
  | .entity members, .member name => memberOf? members name
  | _, _ => none

/-- The form of the part that some steps lead to. -/
def formAt : TypeExpr → List Step → Form
  | type, [] => type.form
  | type, step :: steps =>
    match type.child? step with
    | some part => part.formAt steps
    | none => .absent

variable {left right type other : TypeExpr} {step : Step} {steps : List Step}

@[simp] theorem formAt_nil (type : TypeExpr) : type.formAt [] = type.form := rfl

theorem formAt_cons_of_child? {part : TypeExpr} (h : type.child? step = some part) :
    type.formAt (step :: steps) = part.formAt steps := by
  rw [formAt, h]

theorem formAt_cons_of_none (h : type.child? step = none) :
    type.formAt (step :: steps) = .absent := by
  rw [formAt, h]

@[simp] theorem formAt_error (steps : List Step) : formAt .error steps = .error := by
  induction steps with
  | nil => rfl
  | cons step steps ih => exact (formAt_cons_of_child? rfl).trans ih

theorem form_ne_absent (type : TypeExpr) : type.form ≠ .absent := by
  cases type <;> nofun

/-! ## Which form gives way -/

namespace Form

/-- How much a form says. An error says the most, and `unknown` next to nothing. -/
def rank : Form → Nat
  | .absent => 0
  | .unknown => 1
  | .null => 2
  | .error => 4
  | _ => 3

/-- The common form of two, of which one gives way. -/
def join (form other : Form) : Form :=
  if form.rank < other.rank then other else form

/-- Two forms that nothing is of at once. -/
def Clashes (form other : Form) : Prop :=
  form.rank = 3 ∧ other.rank = 3 ∧ form ≠ other

theorem Clashes.symm {form other : Form} (h : form.Clashes other) : other.Clashes form :=
  ⟨h.2.1, h.1, h.2.2.symm⟩

theorem not_clashes_self (form : Form) : ¬ form.Clashes form :=
  fun h => h.2.2 rfl

theorem eq_of_rank_eq {form other : Form} (apart : ¬ form.Clashes other)
    (same : form.rank = other.rank) : form = other := by
  by_contra differ
  have ranks : form.rank ≠ 3 := fun rank => apart ⟨rank, same ▸ rank, differ⟩
  cases form <;> cases other <;> simp_all [rank]

@[simp] theorem join_absent (form : Form) : form.join .absent = form := by
  simp [join, rank]

@[simp] theorem absent_join (form : Form) : Form.absent.join form = form := by
  cases form <;> rfl

@[simp] theorem join_self (form : Form) : form.join form = form := by
  simp [join]

@[simp] theorem error_join (form : Form) : Form.error.join form = .error := by
  cases form <;> rfl

@[simp] theorem join_error (form : Form) : form.join .error = .error := by
  cases form <;> rfl

theorem join_eq_or_eq (form other : Form) : form.join other = form ∨ form.join other = other := by
  rw [join]
  split
  · exact .inr rfl
  · exact .inl rfl

/-- Forms that do not clash may come in any order. -/
theorem join_right_comm {first second : Form} (apart : ¬ first.Clashes second) (form : Form) :
    (form.join first).join second = (form.join second).join first := by
  rcases Nat.lt_trichotomy first.rank second.rank with lt | same | gt
  · simp only [join]
    split_ifs <;> first | rfl | omega
  · rw [eq_of_rank_eq apart same]
  · simp only [join]
    split_ifs <;> first | rfl | omega

/-- Only an error displaces a form that says what something is. -/
theorem join_eq_left {form other : Form} (solid : form.rank = 3) (sound : other ≠ .error) :
    form.join other = form := by
  rw [join, if_neg]
  cases other <;> simp_all [rank]

theorem join_eq_right {form other : Form} (solid : other.rank = 3) (sound : form ≠ .error)
    (apart : ¬ form.Clashes other) : form.join other = other := by
  rw [join]
  split
  · rfl
  · next le =>
    refine eq_of_rank_eq apart ?_
    cases form <;> simp_all [rank]

end Form

/-! ## Where two types clash -/

/-- Two types clash in a part. -/
def Clash (left right : TypeExpr) (steps : List Step) : Prop :=
  (left.formAt steps).Clashes (right.formAt steps)

/-- Steps that enter no member of an entity: what they lead to stands or falls with the type. -/
def Whole (steps : List Step) : Prop :=
  ∀ name, Step.member name ∉ steps

/-- Two types that clash as a whole. -/
def Fails (left right : TypeExpr) : Prop :=
  ∃ steps, Whole steps ∧ Clash left right steps

/-- None of the members that the steps go through clashes as a whole. -/
def Undisputed (left right : TypeExpr) (steps : List Step) : Prop :=
  ∀ before name after inside, steps = before ++ .member name :: after → Whole inside →
    ¬ Clash left right (before ++ .member name :: inside)

theorem Clash.symm (h : Clash left right steps) : Clash right left steps :=
  Form.Clashes.symm h

theorem not_clash_self (type : TypeExpr) (steps : List Step) : ¬ Clash type type steps :=
  Form.not_clashes_self _

/-- A clash in a part of a part. -/
theorem clash_cons {part part' : TypeExpr} (h : left.child? step = some part)
    (h' : right.child? step = some part') :
    Clash left right (step :: steps) ↔ Clash part part' steps := by
  rw [Clash, Clash, formAt_cons_of_child? h, formAt_cons_of_child? h']

theorem not_clash_of_left_none (h : left.child? step = none) :
    ¬ Clash left right (step :: steps) := by
  rintro ⟨solid, -, -⟩
  rw [formAt_cons_of_none h] at solid
  cases solid

theorem not_clash_of_right_none (h : right.child? step = none) :
    ¬ Clash left right (step :: steps) :=
  fun clash => not_clash_of_left_none h clash.symm

/-- What is undisputed from outside is so from inside. -/
theorem Undisputed.inside {part part' : TypeExpr} (h : left.child? step = some part)
    (h' : right.child? step = some part') (undisputed : Undisputed left right (step :: steps)) :
    Undisputed part part' steps := by
  intro before name after inside split whole clash
  exact undisputed (step :: before) name after inside (by rw [split, List.cons_append]) whole
    ((clash_cons h h').mpr clash)

/-- A member that is gone through does not clash as a whole. -/
theorem Undisputed.not_fails {name : String} {part part' : TypeExpr}
    (h : left.child? (.member name) = some part) (h' : right.child? (.member name) = some part')
    (undisputed : Undisputed left right (.member name :: steps)) : ¬ Fails part part' := by
  rintro ⟨inside, whole, clash⟩
  exact undisputed [] name steps inside rfl whole ((clash_cons h h').mpr clash)

theorem undisputed_of_whole (whole : Whole steps) : Undisputed left right steps := by
  rintro before name after inside rfl
  exact absurd (List.mem_append_right _ List.mem_cons_self) (whole name)

/-- Steps enter no member, or there is a last one that they enter. -/
theorem whole_or_last (steps : List Step) :
    Whole steps ∨ ∃ before name after, Whole after ∧ steps = before ++ .member name :: after := by
  induction steps with
  | nil => exact .inl fun name => List.not_mem_nil
  | cons step steps ih =>
    rcases ih with whole | ⟨before, name, after, whole, rfl⟩
    · cases step with
      | member name => exact .inr ⟨[], name, steps, whole, rfl⟩
      | _ => exact .inl fun name mem => whole name (by simpa using mem)
    · exact .inr ⟨step :: before, name, after, whole, rfl⟩

/-- Types that clash neither as a whole nor around a part do not clash there. -/
theorem Undisputed.not_clash (undisputed : Undisputed left right steps)
    (fits : ¬ Fails left right) : ¬ Clash left right steps := by
  rcases whole_or_last steps with whole | ⟨before, name, after, whole, rfl⟩
  · exact fun clash => fits ⟨steps, whole, clash⟩
  · exact undisputed before name after after rfl whole

/-- Members that are entered before some steps that enter none are entered on the way to anything
beside them. -/
theorem Undisputed.beside {before after inside : List Step} {name : String}
    (whole : Whole inside) (undisputed : Undisputed left right (before ++ .member name :: after)) :
    Undisputed left right (before ++ .member name :: inside) := by
  intro before' name' after' inside' split whole'
  obtain ⟨rest, rfl, next⟩ | ⟨rest, rfl, next⟩ := List.append_eq_append_iff.mp split
  · cases rest with
    | nil =>
      obtain ⟨rfl, rfl⟩ : name = name' ∧ inside = after' := by simpa using next
      exact undisputed _ name after inside' (by simp) whole'
    | cons step rest =>
      obtain ⟨-, rfl⟩ : Step.member name = step ∧ inside = rest ++ .member name' :: after' := by
        simpa using next
      exact absurd (List.mem_append_right _ List.mem_cons_self) (whole name')
  · cases rest with
    | nil =>
      obtain ⟨rfl, rfl⟩ : name' = name ∧ after' = inside := by simpa using next
      exact undisputed _ name' after inside' (by simp) whole'
    | cons step rest =>
      obtain ⟨rfl, -⟩ : Step.member name' = step ∧ after' = rest ++ .member name :: inside := by
        simpa using next
      exact undisputed before' name' (rest ++ .member name :: after) inside' (by simp) whole'

/-! ## The common shape by its parts -/

/-- What the common shape of two types is: there is none if they clash as a whole, and otherwise one with
the common form in every part that is undisputed. -/
def Meets (left right : TypeExpr) : Except TypeMismatch TypeExpr → Prop
  | .ok type => ¬ Fails left right ∧ ∀ steps, Undisputed left right steps →
      type.formAt steps = (left.formAt steps).join (right.formAt steps)
  | .error _ => Fails left right

/-- What becomes of the parts that one step leads to. Only those of a member may clash as a whole. -/
def MeetsAt (step : Step) : Option TypeExpr → Option TypeExpr → Option TypeExpr → Prop
  | some part, some part', type? => ∃ common, type? = some common ∧
      (Meets part part' (.ok common) ∨ Fails part part' ∧ ∃ name, step = .member name)
  | some part, none, type? => type? = some part
  | none, part?, type? => type? = part?

/-- Two types of one form have the common shape of that form that has the common shapes of their parts. -/
theorem meets_of_parts (same : left.form = right.form) (alike : type.form = left.form)
    (parts : ∀ step, MeetsAt step (left.child? step) (right.child? step) (type.child? step)) :
    Meets left right (.ok type) := by
  constructor
  · rintro ⟨_ | ⟨step, steps⟩, whole, clash⟩
    · exact clash.2.2 same
    · have meets := parts step
      cases first : left.child? step with
      | none => exact not_clash_of_left_none first clash
      | some part =>
        cases second : right.child? step with
        | none => exact not_clash_of_right_none second clash
        | some part' =>
          rw [first, second] at meets
          obtain ⟨common, -, inside | ⟨-, name, rfl⟩⟩ := meets
          · exact inside.1 ⟨steps, fun name mem => whole name (List.mem_cons_of_mem _ mem),
              (clash_cons first second).mp clash⟩
          · exact whole name List.mem_cons_self
  · rintro (_ | ⟨step, steps⟩) undisputed
    · rw [formAt_nil, formAt_nil, formAt_nil, alike, ← same, Form.join_self]
    · have meets := parts step
      cases first : left.child? step with
      | none =>
        rw [first] at meets
        rw [formAt_cons_of_none first, Form.absent_join, formAt, formAt, meets]
      | some part =>
        cases second : right.child? step with
        | none =>
          rw [first, second] at meets
          rw [formAt_cons_of_none second, Form.join_absent, formAt, formAt, meets, first]
        | some part' =>
          rw [first, second] at meets
          obtain ⟨common, third, inside | ⟨fails, name, rfl⟩⟩ := meets
          · rw [formAt_cons_of_child? first, formAt_cons_of_child? second,
              formAt_cons_of_child? third]
            exact inside.2 steps (undisputed.inside first second)
          · exact absurd fails (undisputed.not_fails first second)

/-- Types that clash where a step leads that enters no member clash as a whole. -/
theorem fails_of_child? {part part' : TypeExpr} (step : Step) (h : left.child? step = some part)
    (h' : right.child? step = some part') (enters : ∀ name, step ≠ .member name)
    (fails : Fails part part') : Fails left right := by
  obtain ⟨steps, whole, clash⟩ := fails
  refine ⟨step :: steps, fun name mem => ?_, (clash_cons h h').mpr clash⟩
  rcases List.mem_cons.mp mem with same | among
  · exact enters name same.symm
  · exact whole name among

theorem fails_of_form (clash : left.form.Clashes right.form) : Fails left right :=
  ⟨[], fun _ => List.not_mem_nil, clash⟩

/-! ### Types that are not built alike -/

/-- Which of two types that are not built alike gives way is a matter of their forms. -/
theorem settle_eq (apart : ¬ BuiltAlike left right) : settle left right =
    if left.form.rank = 3 ∧ right.form.rank = 3 ∧ left.form ≠ right.form then .error ⟨left, right⟩
    else .ok (if left.form.rank < right.form.rank then right else left) := by
  cases left <;> cases right <;> first | rfl | exact absurd (by constructor) apart

/-- Types that have parts in one place are built alike, unless one of them is an error. -/
theorem builtAlike_of_child? {part part' : TypeExpr} (h : left.child? step = some part)
    (h' : right.child? step = some part') :
    left = .error ∨ right = .error ∨ BuiltAlike left right := by
  unfold child? at h h'
  split at h <;> split at h' <;>
    first
    | exact .inl rfl
    | exact .inr (.inl rfl)
    | exact .inr (.inr (by constructor))
    | simp_all

theorem not_fails_of_not_builtAlike (apart : ¬ BuiltAlike left right)
    (agree : ¬ left.form.Clashes right.form) : ¬ Fails left right := by
  rintro ⟨_ | ⟨step, steps⟩, whole, clash⟩
  · exact agree clash
  · cases first : left.child? step with
    | none => exact not_clash_of_left_none first clash
    | some part =>
      cases second : right.child? step with
      | none => exact not_clash_of_right_none second clash
      | some part' =>
        obtain ⟨solid, solid', -⟩ := clash
        rcases builtAlike_of_child? first second with rfl | rfl | alike
        · rw [formAt_error] at solid
          cases solid
        · rw [formAt_error] at solid'
          cases solid'
        · exact apart alike

/-- A type that gives way to another one has no parts of its own, unless that one is an error. -/
theorem error_or_child?_eq_none {weak strong : TypeExpr} (apart : ¬ BuiltAlike strong weak)
    (agree : ¬ strong.form.Clashes weak.form) (le : weak.form.rank ≤ strong.form.rank) :
    strong = .error ∨ ∀ step, weak.child? step = none := by
  cases weak with
  | error =>
    cases strong with
    | error => exact .inl rfl
    | _ => exact absurd le (by simp [form, Form.rank])
  | array | tuple | map | entity | function | promise =>
    cases strong <;>
      first
      | exact .inl rfl
      | exact absurd (by constructor) apart
      | exact absurd ⟨rfl, rfl, nofun⟩ agree
      | exact absurd le (by simp [form, Form.rank])
  | _ => exact .inr fun step => rfl

theorem formAt_eq_join {weak strong : TypeExpr} (apart : ¬ BuiltAlike strong weak)
    (agree : ¬ strong.form.Clashes weak.form) (le : weak.form.rank ≤ strong.form.rank)
    (step : Step) (steps : List Step) :
    strong.formAt (step :: steps) =
        (strong.formAt (step :: steps)).join (weak.formAt (step :: steps)) ∧
      strong.formAt (step :: steps) =
        (weak.formAt (step :: steps)).join (strong.formAt (step :: steps)) := by
  rcases error_or_child?_eq_none apart agree le with rfl | leaf
  · rw [formAt_error, Form.error_join, Form.join_error]
    exact ⟨rfl, rfl⟩
  · rw [formAt_cons_of_none (leaf step), Form.join_absent, Form.absent_join]
    exact ⟨rfl, rfl⟩

theorem meets_of_not_builtAlike (apart : ¬ BuiltAlike left right) :
    Meets left right (unify left right) := by
  rw [unify_of_not_builtAlike apart, settle_eq apart]
  split
  · next clash => exact fails_of_form clash
  · next agree =>
    refine ⟨not_fails_of_not_builtAlike apart agree, ?_⟩
    rintro (_ | ⟨step, steps⟩) -
    · rw [formAt_nil, formAt_nil, formAt_nil, Form.join, apply_ite form]
    · split
      · next lt =>
        exact (formAt_eq_join (mt BuiltAlike.symm apart) (mt Form.Clashes.symm agree)
          (Nat.le_of_lt lt) step steps).2
      · next ge => exact (formAt_eq_join apart agree (Nat.le_of_not_lt ge) step steps).1

/-! ### Types that are built alike -/

/-- A shape around one part. -/
theorem meets_wrapped {wrap : TypeExpr → TypeExpr} {outcome : Except TypeMismatch TypeExpr}
    (enter : Step) (alike : ∀ inner inner', (wrap inner).form = (wrap inner').form)
    (only : ∀ inner step, (wrap inner).child? step = if step = enter then some inner else none)
    (enters : ∀ name, enter ≠ .member name) (meets : Meets left right outcome) :
    Meets (wrap left) (wrap right) (outcome.map wrap) := by
  cases outcome with
  | error mismatch =>
    exact fails_of_child? enter ((only _ enter).trans (if_pos rfl)) ((only _ enter).trans (if_pos rfl))
      enters meets
  | ok common =>
    refine meets_of_parts (alike _ _) (alike _ _) fun step => ?_
    rw [only, only, only]
    split
    · exact ⟨common, rfl, .inl meets⟩
    · rfl

/-- The common shapes of two lists of types, one by one. -/
def MeetsEach (lefts rights : List TypeExpr) : Except TypeMismatch (List TypeExpr) → Prop
  | .ok types => types.length = lefts.length ∧
      ∀ (step : Step) (index : Nat), MeetsAt step lefts[index]? rights[index]? types[index]?
  | .error _ => ∃ (index : Nat) (part part' : TypeExpr),
      lefts[index]? = some part ∧ rights[index]? = some part' ∧ Fails part part'

theorem meets_tuple {lefts rights : List TypeExpr} {outcome : Except TypeMismatch (List TypeExpr)}
    (same : lefts.length = rights.length) (each : MeetsEach lefts rights outcome) :
    Meets (.tuple lefts) (.tuple rights) (outcome.map .tuple) := by
  cases outcome with
  | error mismatch =>
    obtain ⟨index, part, part', first, second, fails⟩ := each
    exact fails_of_child? (.component index) first second nofun fails
  | ok types =>
    obtain ⟨length, parts⟩ := each
    refine meets_of_parts (by rw [form, form, same]) (by rw [form, form, length]) fun step => ?_
    cases step with
    | component index => exact parts _ index
    | _ => rfl

theorem meets_function {params others : List TypeExpr}
    {outcome : Except TypeMismatch (List TypeExpr)} {last : Except TypeMismatch TypeExpr}
    (same : params.length = others.length) (each : MeetsEach params others outcome)
    (meets : Meets left right last) :
    Meets (.function params left) (.function others right) (do
      let common ← outcome
      return .function common (← last)) := by
  cases outcome with
  | error mismatch =>
    obtain ⟨index, part, part', first, second, fails⟩ := each
    exact fails_of_child? (.param index) first second nofun fails
  | ok types =>
    cases last with
    | error mismatch => exact fails_of_child? .result rfl rfl nofun meets
    | ok common =>
      obtain ⟨length, parts⟩ := each
      refine meets_of_parts (by rw [form, form, same]) ?_ fun step => ?_
      · show Form.function types.length = Form.function params.length
        rw [length]
      cases step with
      | param index => exact parts _ index
      | result => exact ⟨common, rfl, .inl meets⟩
      | _ => rfl

theorem meetsEach_cons {lefts rights : List TypeExpr} {first : Except TypeMismatch TypeExpr}
    {rest : Except TypeMismatch (List TypeExpr)} (meets : Meets left right first)
    (each : MeetsEach lefts rights rest) :
    MeetsEach (left :: lefts) (right :: rights) (do
      let type ← first
      return type :: (← rest)) := by
  cases first with
  | error mismatch => exact ⟨0, left, right, rfl, rfl, meets⟩
  | ok type =>
    cases rest with
    | error mismatch =>
      obtain ⟨index, part, part', inside, inside', fails⟩ := each
      exact ⟨index + 1, part, part', inside, inside', fails⟩
    | ok types =>
      obtain ⟨length, parts⟩ := each
      refine ⟨congrArg Nat.succ length, fun step index => ?_⟩
      cases index with
      | zero => exact ⟨type, rfl, .inl meets⟩
      | succ index => exact parts step index

/-- Joined members are those of both entities. A member of both may clash. -/
theorem meets_entity {members others : List (String × TypeExpr)}
    (inside : ∀ member ∈ members, ∀ other, Meets member.2 other (unify member.2 other)) :
    Meets (.entity members) (.entity others) (.ok (.entity (joined members others))) := by
  refine meets_of_parts rfl rfl fun step => ?_
  cases step with
  | member name =>
    rw [child?, child?, child?, memberOf?_joined]
    cases first : memberOf? members name with
    | none => rfl
    | some part =>
      cases memberOf? others name with
      | none => rfl
      | some part' =>
        obtain ⟨member, found, rfl⟩ := Option.map_eq_some_iff.mp first
        have meets := inside member (List.mem_of_find?_eq_some found) part'
        refine ⟨_, rfl, ?_⟩
        rw [shared]
        cases run : unify member.2 part' with
        | ok common => exact .inl (run ▸ meets)
        | error mismatch =>
          rw [run] at meets
          exact .inr ⟨meets, name, rfl⟩
  | _ => rfl

mutual

/-- Two types have a common shape unless they clash as a whole, and it has the common form in every part
that is undisputed. -/
theorem meets_unify : ∀ left right : TypeExpr, Meets left right (unify left right)
  | .array item, right => by
    cases right with
    | array other =>
      rw [unify_array]
      exact meets_wrapped .item (fun _ _ => rfl) (fun _ step => by cases step <;> rfl) nofun
        (meets_unify item other)
    | _ => exact meets_of_not_builtAlike nofun
  | .tuple items, right => by
    cases right with
    | tuple others =>
      rw [unify_tuple]
      split
      · next same => exact meets_tuple same (meets_unifyEach items others same)
      · next differ => exact fails_of_form ⟨rfl, rfl, fun same => differ (Form.tuple.inj same)⟩
    | _ => exact meets_of_not_builtAlike nofun
  | .map value, right => by
    cases right with
    | map other =>
      rw [unify_map]
      exact meets_wrapped .value (fun _ _ => rfl) (fun _ step => by cases step <;> rfl) nofun
        (meets_unify value other)
    | _ => exact meets_of_not_builtAlike nofun
  | .entity members, right => by
    cases right with
    | entity others =>
      rw [unify_entity]
      exact meets_entity (meets_members members)
    | _ => exact meets_of_not_builtAlike nofun
  | .function params result, right => by
    cases right with
    | function others other =>
      rw [unify]
      split
      · next same =>
        have each := meets_unifyEach params others same
        have last := meets_unify result other
        exact meets_function same each last
      · next differ => exact fails_of_form ⟨rfl, rfl, fun same => differ (Form.function.inj same)⟩
    | _ => exact meets_of_not_builtAlike nofun
  | .promise value, right => by
    cases right with
    | promise other =>
      rw [unify_promise]
      exact meets_wrapped .outcome (fun _ _ => rfl) (fun _ step => by cases step <;> rfl) nofun
        (meets_unify value other)
    | _ => exact meets_of_not_builtAlike nofun
  | .number, _ | .string, _ | .bool, _ | .unit, _ | .null, _ | .error, _ | .unknown, _ =>
    meets_of_not_builtAlike nofun

theorem meets_unifyEach : ∀ lefts rights : List TypeExpr, lefts.length = rights.length →
    MeetsEach lefts rights (unifyEach lefts rights)
  | [], [], _ => by
    rw [unifyEach]
    · exact ⟨rfl, fun step index => by simp [MeetsAt]⟩
    · nofun
  | left :: lefts, right :: rights, same => by
    have first := meets_unify left right
    have rest := meets_unifyEach lefts rights (Nat.succ.inj same)
    rw [unifyEach]
    exact meetsEach_cons first rest

/-- So it is for the types of members. -/
theorem meets_members : ∀ members : List (String × TypeExpr),
    ∀ member ∈ members, ∀ other, Meets member.2 other (unify member.2 other)
  | [] => List.forall_mem_nil _
  | (name, type) :: members => by
    intro member mem other
    rcases List.mem_cons.mp mem with rfl | mem
    · exact meets_unify type other
    · exact meets_members members member mem other

end

/-! ## Types by the forms of their parts -/

/-- Every part of one type has the form that it has in the other one. -/
def Alike (left right : TypeExpr) : Prop :=
  ∀ steps, left.formAt steps = right.formAt steps

theorem Alike.symm (h : Alike left right) : Alike right left :=
  fun steps => (h steps).symm

theorem Alike.child? {part : TypeExpr} (h : Alike left right) (step : Step)
    (first : left.child? step = some part) :
    ∃ part', right.child? step = some part' ∧ Alike part part' := by
  cases second : right.child? step with
  | none =>
    have absent := h [step]
    rw [formAt_cons_of_child? first, formAt_cons_of_none second] at absent
    exact absurd absent (form_ne_absent part)
  | some part' =>
    refine ⟨part', rfl, fun steps => ?_⟩
    rw [← formAt_cons_of_child? first, ← formAt_cons_of_child? second]
    exact h (step :: steps)

/-- Entities whose members are the same in order are the same in order. -/
theorem sorted_entity_of_alike {members others : List (String × TypeExpr)}
    (distinct : (members.map (·.1)).Nodup) (distinct' : (others.map (·.1)).Nodup)
    (alike : Alike (.entity members) (.entity others))
    (inside : ∀ member ∈ members, ∀ other ∈ others, Alike member.2 other.2 →
      member.2.sorted = other.2.sorted) :
    sorted (.entity members) = sorted (.entity others) := by
  rw [sorted, sorted]
  congr 1
  refine sortMembers_eq_of_perm (by rwa [names_sortedMembers])
    (perm_of_memberOf?_eq (by rwa [names_sortedMembers]) (by rwa [names_sortedMembers])
      fun name => ?_)
  rw [memberOf?_sortedMembers, memberOf?_sortedMembers]
  cases first : memberOf? members name with
  | none =>
    cases second : memberOf? others name with
    | none => rfl
    | some part' =>
      obtain ⟨part, there, -⟩ := alike.symm.child? (.member name) second
      cases first.symm.trans there
  | some part =>
    obtain ⟨part', second, same⟩ := alike.child? (.member name) first
    rw [show memberOf? others name = some part' from second]
    exact congrArg some (inside _ ((memberOf?_eq_some_iff distinct).mp first) _
      ((memberOf?_eq_some_iff distinct').mp second) same)

mutual

/-- Types whose parts have the same forms are the same, but for the order of members. -/
theorem sorted_eq_of_alike : ∀ left right : TypeExpr, left.Distinct → right.Distinct →
    Alike left right → left.sorted = right.sorted
  | .array item, right, h, h', alike => by
    cases right with
    | array other =>
      obtain ⟨_, ⟨⟩, inside⟩ := alike.child? .item rfl
      rw [sorted, sorted, sorted_eq_of_alike item other h h' inside]
    | _ => nomatch alike []
  | .tuple items, right, h, h', alike => by
    cases right with
    | tuple others =>
      rw [sorted, sorted, sortedEach_eq_of_alike items others h h' (Form.tuple.inj (alike []))
        fun index part inside => alike.child? (.component index) inside]
    | _ => nomatch alike []
  | .map value, right, h, h', alike => by
    cases right with
    | map other =>
      obtain ⟨_, ⟨⟩, inside⟩ := alike.child? .value rfl
      rw [sorted, sorted, sorted_eq_of_alike value other h h' inside]
    | _ => nomatch alike []
  | .entity members, right, h, h', alike => by
    cases right with
    | entity others =>
      exact sorted_entity_of_alike h.1 h'.1 alike
        (members_sorted_of_alike members h.2 (distinctMembers_iff.mp h'.2))
    | _ => nomatch alike []
  | .function params result, right, h, h', alike => by
    cases right with
    | function others other =>
      obtain ⟨_, ⟨⟩, inside⟩ := alike.child? .result rfl
      rw [sorted, sorted, sorted_eq_of_alike result other h.2 h'.2 inside,
        sortedEach_eq_of_alike params others h.1 h'.1 (Form.function.inj (alike []))
          fun index part inside => alike.child? (.param index) inside]
    | _ => nomatch alike []
  | .promise value, right, h, h', alike => by
    cases right with
    | promise other =>
      obtain ⟨_, ⟨⟩, inside⟩ := alike.child? .outcome rfl
      rw [sorted, sorted, sorted_eq_of_alike value other h h' inside]
    | _ => nomatch alike []
  | .number, right, _, _, alike | .string, right, _, _, alike | .bool, right, _, _, alike
  | .unit, right, _, _, alike | .null, right, _, _, alike | .error, right, _, _, alike
  | .unknown, right, _, _, alike => by
    cases right <;> first | rfl | nomatch alike []

theorem sortedEach_eq_of_alike : ∀ lefts rights : List TypeExpr, DistinctEach lefts →
    DistinctEach rights → lefts.length = rights.length →
      (∀ (index : Nat) (part : TypeExpr), lefts[index]? = some part →
        ∃ part', rights[index]? = some part' ∧ Alike part part') →
      sortedEach lefts = sortedEach rights
  | [], [], _, _, _, _ => rfl
  | left :: lefts, right :: rights, h, h', same, alike => by
    obtain ⟨_, ⟨⟩, first⟩ := alike 0 left rfl
    rw [sortedEach, sortedEach, sorted_eq_of_alike left right h.1 h'.1 first,
      sortedEach_eq_of_alike lefts rights h.2 h'.2 (Nat.succ.inj same)
        fun index part inside => alike (index + 1) part inside]

/-- So it is for the types of members. -/
theorem members_sorted_of_alike {others : List (String × TypeExpr)} :
    ∀ members : List (String × TypeExpr), DistinctMembers members →
      (∀ other ∈ others, other.2.Distinct) → ∀ member ∈ members, ∀ other ∈ others,
        Alike member.2 other.2 → member.2.sorted = other.2.sorted
  | [], _, _ => List.forall_mem_nil _
  | (name, type) :: members, h, h' => by
    intro member mem other mem' alike
    rcases List.mem_cons.mp mem with rfl | mem
    · exact sorted_eq_of_alike type other.2 h.1 (h' other mem') alike
    · exact members_sorted_of_alike members h.2 h' member mem other mem' alike

end

end ScriptEngine.TypeExpr
