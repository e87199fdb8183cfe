import ScriptEngine.Proofs.Typing.Forms

/-!
# The common shape of many types

Types are brought together one after the other. As long as no two of them clash, every part of what comes
out has the weightiest form that the part has in any of them, whichever comes first. Two types that clash
as a whole are the end of it, unless an error has covered the place where they clash.

A member in which two types clash is lost only for the moment: it becomes unknown, and unknown gives way
to whatever comes next. So what becomes of it depends on what comes behind the clash, and in the same way
an error stands for everything if it comes before a clash and for nothing behind it.

* `clash_of_unify`: what a common shape clashes with, one of the two types clashes with too.
* `formAt_foldlM`, `foldlM_of_not_fails`: what a run over types comes to.
* `unifyAll_in_any_order`: the order of types does not matter, but for disputed members and errors.
-/

namespace ScriptEngine.TypeExpr

variable {left right type other acc : TypeExpr} {types types' : List TypeExpr} {steps : List Step}

/-! ## One step -/

/-- What a common shape clashes with, one of the two types clashes with too. -/
theorem clash_of_unify (run : unify left right = .ok type) (undisputed : Undisputed left right steps)
    (clash : Clash type other steps) : Clash left other steps ∨ Clash right other steps := by
  have meets := meets_unify left right
  rw [run] at meets
  rw [Clash, meets.2 steps undisputed] at clash
  rcases Form.join_eq_or_eq (left.formAt steps) (right.formAt steps) with first | second
  · rw [first] at clash
    exact .inl clash
  · rw [second] at clash
    exact .inr clash

/-- What both of two types leave undisputed, so does their common shape. -/
theorem Undisputed.of_unify (run : unify left right = .ok type)
    (undisputed : Undisputed left right steps) (first : Undisputed left other steps)
    (second : Undisputed right other steps) : Undisputed type other steps := by
  rintro before name after inside rfl whole clash
  rcases clash_of_unify run (undisputed.beside whole) clash with clash | clash
  · exact first before name after inside rfl whole clash
  · exact second before name after inside rfl whole clash

theorem not_fails_of_unify (run : unify left right = .ok type) (first : ¬ Fails left other)
    (second : ¬ Fails right other) : ¬ Fails type other := by
  rintro ⟨steps, whole, clash⟩
  rcases clash_of_unify run (undisputed_of_whole whole) clash with clash | clash
  · exact first ⟨steps, whole, clash⟩
  · exact second ⟨steps, whole, clash⟩

/-! ## A run over types -/

theorem foldlM_cons_eq_ok (run : (right :: types).foldlM unify left = .ok type) :
    ∃ next, unify left right = .ok next ∧ types.foldlM unify next = .ok type := by
  rw [List.foldlM_cons] at run
  cases first : unify left right with
  | error mismatch =>
    rw [first] at run
    cases run
  | ok next =>
    rw [first] at run
    exact ⟨next, rfl, run⟩

/-- What holds between two types and all that come behind them holds between their common shape and
those. -/
theorem pairwise_of_step {P : TypeExpr → TypeExpr → Prop}
    (step : ∀ {other}, P left other → P right other → P type other)
    (pairs : (left :: right :: types).Pairwise P) : (type :: types).Pairwise P := by
  rw [List.pairwise_cons, List.pairwise_cons] at pairs
  obtain ⟨first, second, rest⟩ := pairs
  exact .cons (fun other mem => step (first other (List.mem_cons_of_mem _ mem)) (second other mem)) rest

/-- The common form of a part of some types. -/
def formOf (types : List TypeExpr) (steps : List Step) (form : Form) : Form :=
  types.foldl (fun form type => form.join (type.formAt steps)) form

/-- A run over types gives each part the common form of that part, where it is undisputed. -/
theorem formAt_foldlM (run : types.foldlM unify acc = .ok type)
    (undisputed : (acc :: types).Pairwise fun left right => Undisputed left right steps) :
    type.formAt steps = formOf types steps (acc.formAt steps) := by
  induction types generalizing acc with
  | nil =>
    cases run
    rfl
  | cons other types ih =>
    obtain ⟨next, first, rest⟩ := foldlM_cons_eq_ok run
    have both : Undisputed acc other steps :=
      (List.pairwise_cons.mp undisputed).1 other List.mem_cons_self
    have meets := meets_unify acc other
    rw [first] at meets
    rw [ih rest (pairwise_of_step (Undisputed.of_unify first both) undisputed), meets.2 steps both]
    rfl

/-- Types of which no two clash as a whole have a common shape. -/
theorem foldlM_of_not_fails (fits : (acc :: types).Pairwise fun left right => ¬ Fails left right) :
    ∃ type, types.foldlM unify acc = .ok type := by
  induction types generalizing acc with
  | nil => exact ⟨acc, rfl⟩
  | cons other types ih =>
    have meets := meets_unify acc other
    rw [List.foldlM_cons]
    cases first : unify acc other with
    | error mismatch =>
      rw [first] at meets
      exact absurd meets ((List.pairwise_cons.mp fits).1 other List.mem_cons_self)
    | ok next => exact ih (pairwise_of_step (not_fails_of_unify first) fits)

/-- Types that have a common shape clash in no part that stands or falls with them, if no error is
there. -/
theorem not_clash_of_foldlM (run : types.foldlM unify acc = .ok type) (whole : Whole steps)
    (sound : ∀ other ∈ acc :: types, other.formAt steps ≠ .error) :
    (acc :: types).Pairwise fun left right => ¬ Clash left right steps := by
  induction types generalizing acc with
  | nil => exact List.pairwise_singleton _ _
  | cons other types ih =>
    obtain ⟨next, first, rest⟩ := foldlM_cons_eq_ok run
    have meets := meets_unify acc other
    rw [first] at meets
    have apart : ¬ Clash acc other steps := fun clash => meets.1 ⟨steps, whole, clash⟩
    have common : next.formAt steps = (acc.formAt steps).join (other.formAt steps) :=
      meets.2 steps (undisputed_of_whole whole)
    obtain ⟨soundFirst, soundSecond, soundRest⟩ : acc.formAt steps ≠ .error ∧
        other.formAt steps ≠ .error ∧ ∀ other ∈ types, other.formAt steps ≠ .error := by
      simpa using sound
    have soundNext : next.formAt steps ≠ .error := by
      rw [common]
      rcases Form.join_eq_or_eq (acc.formAt steps) (other.formAt steps) with same | same
      · rwa [same]
      · rwa [same]
    obtain ⟨behind, rest⟩ := List.pairwise_cons.mp
      (ih rest (List.forall_mem_cons.mpr ⟨soundNext, soundRest⟩))
    refine .cons (List.forall_mem_cons.mpr ⟨apart, fun later mem clash => ?_⟩)
      (.cons (fun later mem clash => ?_) rest)
    · refine behind later mem ?_
      rw [Clash, common, Form.join_eq_left clash.1 soundSecond]
      exact clash
    · refine behind later mem ?_
      rw [Clash, common, Form.join_eq_right clash.1 soundFirst apart]
      exact clash

theorem distinct_of_foldlM (distinct : ∀ other ∈ acc :: types, other.Distinct)
    (run : types.foldlM unify acc = .ok type) : type.Distinct := by
  induction types generalizing acc with
  | nil =>
    cases run
    exact distinct type List.mem_cons_self
  | cons other types ih =>
    obtain ⟨next, first, rest⟩ := foldlM_cons_eq_ok run
    obtain ⟨here, there, behind⟩ : acc.Distinct ∧ other.Distinct ∧ ∀ type ∈ types, type.Distinct := by
      simpa using distinct
    exact ih (List.forall_mem_cons.mpr ⟨distinct_of_unify acc other here there first, behind⟩) rest

/-! ## All types of a collection -/

/-- Nothing clashes with what is not known. -/
theorem not_clash_unknown (other : TypeExpr) (steps : List Step) : ¬ Clash .unknown other steps := by
  rintro ⟨solid, -, -⟩
  cases steps <;> cases solid

theorem undisputed_unknown (other : TypeExpr) (steps : List Step) :
    Undisputed .unknown other steps :=
  fun _ _ _ _ _ _ => not_clash_unknown other _

theorem not_fails_unknown (other : TypeExpr) : ¬ Fails .unknown other :=
  fun ⟨steps, _, clash⟩ => not_clash_unknown other steps clash

theorem unifyAll_eq_unknown (whole : Whole steps) (sound : ∀ type ∈ types, type.formAt steps ≠ .error)
    (mem : left ∈ types) (mem' : right ∈ types) (clash : Clash left right steps) :
    unifyAll types = .unknown := by
  rw [unifyAll]
  cases run : types.foldlM unify .unknown with
  | error mismatch => rfl
  | ok type =>
    have known : formAt .unknown steps ≠ .error := by cases steps <;> nofun
    have apart := (not_clash_of_foldlM run whole (List.forall_mem_cons.mpr ⟨known, sound⟩)).of_cons
    exact absurd clash (List.Pairwise.forall_of_forall_of_flip
      (fun type _ => not_clash_self type steps) apart (apart.imp fun apart clash => apart clash.symm)
      mem mem')

/-- What no two types clash in is found as if there were only one of them. -/
theorem formAt_unifyAll (fits : types.Pairwise fun left right => ¬ Fails left right)
    (undisputed : types.Pairwise fun left right => Undisputed left right steps) :
    (unifyAll types).formAt steps = formOf types steps (formAt .unknown steps) := by
  obtain ⟨type, run⟩ := foldlM_of_not_fails (.cons (fun other _ => not_fails_unknown other) fits)
  rw [unifyAll, run]
  exact formAt_foldlM run (.cons (fun other _ => undisputed_unknown other steps) undisputed)

theorem distinct_unifyAll (distinct : ∀ type ∈ types, type.Distinct) : (unifyAll types).Distinct := by
  rw [unifyAll]
  cases run : types.foldlM unify .unknown with
  | error mismatch => trivial
  | ok type =>
    have known : unknown.Distinct := trivial
    exact distinct_of_foldlM (List.forall_mem_cons.mpr ⟨known, distinct⟩) run

/-- The common form of a part in which no two types clash is the same in every order. -/
theorem formOf_perm (perm : types.Perm types')
    (apart : ∀ left ∈ types, ∀ right ∈ types, ¬ Clash left right steps) (form : Form) :
    formOf types steps form = formOf types' steps form :=
  perm.foldl_eq' (fun left mem right mem' form => Form.join_right_comm (apart left mem right mem') form)
    form

/-- The order of types does not matter, as far as errors and members that are in dispute go.

* Two types that clash as a whole make the common type unknown, wherever they stand, if no type is an
  error in the place where they clash.
* If no two types clash as a whole, every part that is undisputed has the weightiest form that it has in
  any of the types. So if no two types clash at all, the common type is the same but for the order of
  members. -/
theorem unifyAll_in_any_order (distinct : ∀ type ∈ types, type.Distinct) (perm : types.Perm types') :
    (∀ left ∈ types, ∀ right ∈ types, ∀ steps, Whole steps → Clash left right steps →
      (∀ type ∈ types, type.formAt steps ≠ .error) →
      unifyAll types = .unknown ∧ unifyAll types' = .unknown) ∧
    ((∀ left ∈ types, ∀ right ∈ types, ¬ Fails left right) →
      (∀ steps, (∀ left ∈ types, ∀ right ∈ types, Undisputed left right steps) →
        (unifyAll types).formAt steps = formOf types steps (formAt .unknown steps) ∧
        (unifyAll types').formAt steps = formOf types steps (formAt .unknown steps)) ∧
      ((∀ left ∈ types, ∀ right ∈ types, ∀ steps, ¬ Clash left right steps) →
        (unifyAll types).sorted = (unifyAll types').sorted)) := by
  have pairs {P : TypeExpr → TypeExpr → Prop} (all : ∀ left ∈ types, ∀ right ∈ types, P left right) :
      types.Pairwise P ∧ types'.Pairwise P :=
    ⟨List.pairwise_of_forall_mem_list all, List.pairwise_of_forall_mem_list fun left mem right mem' =>
      all left (perm.mem_iff.mpr mem) right (perm.mem_iff.mpr mem')⟩
  refine ⟨fun left mem right mem' steps whole clash sound => ⟨?_, ?_⟩, fun fits => ?_⟩
  · exact unifyAll_eq_unknown whole sound mem mem' clash
  · exact unifyAll_eq_unknown whole (fun type mem => sound type (perm.mem_iff.mpr mem))
      (perm.mem_iff.mp mem) (perm.mem_iff.mp mem') clash
  · have forms (steps : List Step)
        (undisputed : ∀ left ∈ types, ∀ right ∈ types, Undisputed left right steps) :
        (unifyAll types).formAt steps = formOf types steps (formAt .unknown steps) ∧
        (unifyAll types').formAt steps = formOf types steps (formAt .unknown steps) := by
      refine ⟨formAt_unifyAll (pairs fits).1 (pairs undisputed).1, ?_⟩
      rw [formOf_perm perm fun left mem right mem' =>
        (undisputed left mem right mem').not_clash (fits left mem right mem')]
      exact formAt_unifyAll (pairs fits).2 (pairs undisputed).2
    refine ⟨forms, fun apart => ?_⟩
    refine sorted_eq_of_alike _ _ (distinct_unifyAll distinct)
      (distinct_unifyAll fun type mem => distinct type (perm.mem_iff.mpr mem)) fun steps => ?_
    obtain ⟨first, second⟩ := forms steps fun left mem right mem' _ _ _ _ _ _ =>
      apart left mem right mem' _
    rw [first, second]

/-- The shape of something with an age. -/
def aged (age : TypeExpr) : TypeExpr :=
  .entity [("age", age)]

theorem distinct_aged {age : TypeExpr} (distinct : age.Distinct) : (aged age).Distinct :=
  ⟨List.nodup_singleton _, distinct, trivial⟩

/-- Only the ages of such shapes clash. -/
theorem not_clash_aged {age age' : TypeExpr} (apart : ∀ steps, ¬ Clash age age' steps)
    (steps : List Step) : ¬ Clash (aged age) (aged age') steps := by
  rintro clash
  cases steps with
  | nil => exact clash.2.2 rfl
  | cons step steps =>
    cases step with
    | member name =>
      by_cases same : name = "age"
      · subst same
        exact apart steps ((clash_cons rfl rfl).mp clash)
      · exact not_clash_of_left_none (by simp [aged, child?, memberOf?, Ne.symm same]) clash
    | _ => exact not_clash_of_left_none rfl clash

/-- Ages that are numbers, as far as they are known, make the age a number in every order. Numbers and
texts in one place leave nothing known in every order. -/
theorem unifyAll_in_any_order_of_ages :
    (∀ type ∈ [aged .unknown, aged .number, aged .unknown], type.Distinct) ∧
    (unifyAll [aged .unknown, aged .number, aged .unknown]).sorted =
      (unifyAll [aged .number, aged .unknown, aged .unknown]).sorted ∧
    (∀ type ∈ [array .number, null, array .string], type.Distinct) ∧
    unifyAll [.array .number, .null, .array .string] = .unknown ∧
    unifyAll [.null, .array .number, .array .string] = .unknown := by
  have distinct : ∀ type ∈ [aged .unknown, aged .number, aged .unknown], type.Distinct := by
    simp only [List.forall_mem_cons]
    exact ⟨distinct_aged trivial, distinct_aged trivial, distinct_aged trivial, nofun⟩
  have distinct' : ∀ type ∈ [array .number, null, array .string], type.Distinct := by
    simp only [List.forall_mem_cons]
    exact ⟨trivial, trivial, trivial, nofun⟩
  have apart : ∀ left ∈ [aged .unknown, aged .number, aged .unknown],
      ∀ right ∈ [aged .unknown, aged .number, aged .unknown], ∀ steps, ¬ Clash left right steps := by
    have first (age : TypeExpr) := not_clash_aged (not_clash_unknown age)
    have second (steps : List Step) : ¬ Clash (aged .number) (aged .unknown) steps :=
      fun clash => first .number steps clash.symm
    have third := not_clash_self (aged .number)
    simp only [List.forall_mem_cons]
    exact ⟨⟨first _, first _, first _, nofun⟩, ⟨second, third, second, nofun⟩,
      ⟨first _, first _, first _, nofun⟩, nofun⟩
  have ages := (unifyAll_in_any_order distinct (.swap _ _ _)).2
    fun left mem right mem' ⟨steps, _, clash⟩ => apart left mem right mem' steps clash
  have items := (unifyAll_in_any_order distinct' (.swap _ _ _)).1 (.array .number) (by simp)
    (.array .string) (by simp) [.item] (by simp [Whole]) ⟨rfl, rfl, nofun⟩ (by simp [formAt, child?, form])
  exact ⟨distinct, ages.2 apart, distinct', items⟩

/-- What becomes of a clash depends on what comes behind it. Ages that clash are unknown only until the
next one, and an error before texts and numbers is the end of it, while one behind them is not looked at. -/
theorem unifyAll_depends_on_order :
    ((∀ type ∈ [aged .number, aged .string, aged .bool], type.Distinct) ∧
      [aged .number, aged .string, aged .bool].Perm [aged .bool, aged .number, aged .string] ∧
      unifyAll [aged .number, aged .string, aged .bool] = aged .bool ∧
      unifyAll [aged .bool, aged .number, aged .string] = aged .string ∧
      (aged .bool).sorted ≠ (aged .string).sorted) ∧
    (∀ type ∈ [error, number, string], type.Distinct) ∧
    [error, number, string].Perm [number, string, error] ∧
    unifyAll [error, number, string] = .error ∧
    unifyAll [number, string, error] = .unknown := by
  refine ⟨⟨?_, ?_, rfl, rfl, ?_⟩, ?_, ?_, rfl, rfl⟩
  · simp only [List.forall_mem_cons]
    exact ⟨distinct_aged trivial, distinct_aged trivial, distinct_aged trivial, nofun⟩
  · exact @List.perm_append_comm _ [aged .number, aged .string] _
  · simp [aged, sorted, sortedMembers, sortMembers]
  · simp only [List.forall_mem_cons]
    exact ⟨trivial, trivial, trivial, nofun⟩
  · exact @List.perm_append_comm _ [error] _

end ScriptEngine.TypeExpr
