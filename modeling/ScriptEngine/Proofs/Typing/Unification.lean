import Mathlib.Data.List.Nodup
import ScriptEngine.Typing

/-!
# The common shape of two types

The common shape does not depend on which of two types comes first, but for the order of the members
of entities, which is that of the first one followed by what only the second one has. Members are
found by their names, so this asks for entities whose members have names of their own.

* `TypeExpr.Distinct`: the members of an entity have names of their own, at every depth.
* `TypeExpr.sorted`: a type with the members of entities in the order of their names, at every depth;
  two types that are sorted to the same one are equal up to that order.
* `memberOf?_joined`: what each member of two joined entities is.
* `unify_array`, `unify_of_not_builtAlike` and the others: the common shape by the form of both types.
* `unify_self`, `distinct_of_unify`, `common?_swap`: the common shape of a type with itself, its members,
  and what it is in the other order.
* `unify_either_way`: all of this together.
-/

namespace ScriptEngine.TypeExpr

/-! ## Entities with distinct members -/

mutual

/-- The members of an entity have names of their own, at every depth. -/
def Distinct : TypeExpr → Prop
  | .array item => item.Distinct
  | .tuple items => DistinctEach items
  | .map value => value.Distinct
  | .entity members => (members.map (·.1)).Nodup ∧ DistinctMembers members
  | .function params result => DistinctEach params ∧ result.Distinct
  | .promise value => value.Distinct
  | .number | .string | .bool | .unit | .null | .error | .unknown => True

/-- So it is in each of some types. -/
def DistinctEach : List TypeExpr → Prop
  | [] => True
  | type :: types => type.Distinct ∧ DistinctEach types

/-- So it is in the type of each member. -/
def DistinctMembers : List (String × TypeExpr) → Prop
  | [] => True
  | (_, type) :: members => type.Distinct ∧ DistinctMembers members

end

theorem distinctMembers_iff {members : List (String × TypeExpr)} :
    DistinctMembers members ↔ ∀ member ∈ members, member.2.Distinct := by
  induction members with
  | nil => simp [DistinctMembers]
  | cons member members ih => simp [DistinctMembers, ih]

/-! ## Members in the order of their names -/

/-- Members in the order of their names. -/
def sortMembers (members : List (String × TypeExpr)) : List (String × TypeExpr) :=
  members.mergeSort fun member other => member.1 ≤ other.1

mutual

/-- A type with the members of entities in the order of their names, at every depth. -/
def sorted : TypeExpr → TypeExpr
  | .array item => .array item.sorted
  | .tuple items => .tuple (sortedEach items)
  | .map value => .map value.sorted
  | .entity members => .entity (sortMembers (sortedMembers members))
  | .function params result => .function (sortedEach params) result.sorted
  | .promise value => .promise value.sorted
  | .number => .number
  | .string => .string
  | .bool => .bool
  | .unit => .unit
  | .null => .null
  | .error => .error
  | .unknown => .unknown

/-- Each of some types with members in the order of their names. -/
def sortedEach : List TypeExpr → List TypeExpr
  | [] => []
  | type :: types => type.sorted :: sortedEach types

/-- Members, in whose types members are in the order of their names. -/
def sortedMembers : List (String × TypeExpr) → List (String × TypeExpr)
  | [] => []
  | (name, type) :: members => (name, type.sorted) :: sortedMembers members

end

theorem sortedMembers_eq_map (members : List (String × TypeExpr)) :
    sortedMembers members = members.map fun member => (member.1, member.2.sorted) := by
  induction members with
  | nil => rfl
  | cons member members ih => rw [sortedMembers, ih, List.map_cons]

theorem names_sortedMembers (members : List (String × TypeExpr)) :
    (sortedMembers members).map (·.1) = members.map (·.1) := by
  rw [sortedMembers_eq_map, List.map_map]
  rfl

/-- The order in which members with names of their own are given does not matter. -/
theorem sortMembers_eq_of_perm {members others : List (String × TypeExpr)}
    (distinct : (members.map (·.1)).Nodup) (perm : members.Perm others) :
    sortMembers members = sortMembers others := by
  have inOrder (members : List (String × TypeExpr)) :
      (sortMembers members).Pairwise fun member other => member.1 ≤ other.1 := by
    have sorts : (sortMembers members).Pairwise fun member other =>
        decide (member.1 ≤ other.1) = true := by
      refine List.pairwise_mergeSort (fun first second third le le' => ?_) (fun member other => ?_)
        members
      · simp only [decide_eq_true_eq] at le le' ⊢
        exact String.le_trans le le'
      · rw [Bool.or_eq_true, decide_eq_true_eq, decide_eq_true_eq]
        exact String.le_total member.1 other.1
    simp only [decide_eq_true_eq] at sorts
    exact sorts
  refine List.Perm.eq_of_pairwise (fun member other mem mem' le ge => ?_) (inOrder members)
    (inOrder others) ((List.mergeSort_perm _ _).trans (perm.trans (List.mergeSort_perm _ _).symm))
  exact List.inj_on_of_nodup_map distinct ((List.mergeSort_perm _ _).mem_iff.mp mem)
    (perm.mem_iff.mpr ((List.mergeSort_perm _ _).mem_iff.mp mem')) (String.le_antisymm le ge)

/-! ## Finding members -/

/-- Names of their own find every member. -/
theorem memberOf?_eq_some_iff {members : List (String × TypeExpr)}
    (distinct : (members.map (·.1)).Nodup) {name : String} {type : TypeExpr} :
    memberOf? members name = some type ↔ (name, type) ∈ members := by
  rw [memberOf?, Option.map_eq_some_iff]
  constructor
  · rintro ⟨member, found, rfl⟩
    obtain rfl : member.1 = name := by simpa using List.find?_some found
    exact List.mem_of_find?_eq_some found
  · intro mem
    cases found : members.find? fun member => member.1 == name with
    | none => exact absurd (List.find?_eq_none.mp found _ mem) (by simp)
    | some member =>
      have same : member.1 = name := by simpa using List.find?_some found
      have equal := List.inj_on_of_nodup_map distinct (List.mem_of_find?_eq_some found) mem same
      exact ⟨member, rfl, by rw [equal]⟩

theorem memberOf?_isNone_iff {members : List (String × TypeExpr)} {name : String} :
    (memberOf? members name).isNone ↔ name ∉ members.map (·.1) := by
  rw [memberOf?, Option.isNone_map, Option.isNone_iff_eq_none, List.find?_eq_none, List.mem_map]
  simp only [beq_iff_eq, not_exists, not_and]

/-- Members that a name finds alike on both sides are the same up to their order. -/
theorem perm_of_memberOf?_eq {members others : List (String × TypeExpr)}
    (distinct : (members.map (·.1)).Nodup) (distinct' : (others.map (·.1)).Nodup)
    (same : ∀ name, memberOf? members name = memberOf? others name) : members.Perm others := by
  refine (List.perm_ext_iff_of_nodup (.of_map _ distinct) (.of_map _ distinct')).mpr ?_
  rintro ⟨name, type⟩
  rw [← memberOf?_eq_some_iff distinct, ← memberOf?_eq_some_iff distinct', same]

theorem memberOf?_sortedMembers (members : List (String × TypeExpr)) (name : String) :
    memberOf? (sortedMembers members) name = (memberOf? members name).map sorted := by
  rw [sortedMembers_eq_map, memberOf?, memberOf?, List.find?_map]
  simp [Function.comp_def]

theorem memberOf?_cons (member : String × TypeExpr) (members : List (String × TypeExpr))
    (name : String) : memberOf? (member :: members) name =
      if member.1 == name then some member.2 else memberOf? members name := by
  rw [memberOf?, List.find?_cons, memberOf?]
  split
  · next same => rw [same]; rfl
  · next other => rw [if_neg (by simp [other])]

theorem memberOf?_append (members others : List (String × TypeExpr)) (name : String) :
    memberOf? (members ++ others) name =
      (memberOf? members name).or (memberOf? others name) := by
  rw [memberOf?, memberOf?, memberOf?, List.find?_append]
  cases members.find? fun member => member.1 == name <;> rfl

/-! ## Joined members -/

/-- The type of a member that both of two entities have. -/
def shared (type other : TypeExpr) : TypeExpr :=
  match unify type other with
  | .ok common => common
  | .error _ => .unknown

/-- The members of two entities, those of the first one first. -/
def joined (left right : List (String × TypeExpr)) : List (String × TypeExpr) :=
  joinMembers left right ++ right.filter fun member => (memberOf? left member.1).isNone

theorem unify_entity (left right : List (String × TypeExpr)) :
    unify (.entity left) (.entity right) = .ok (.entity (joined left right)) := by
  rw [unify, joined]

theorem joinMembers_eq_map (left right : List (String × TypeExpr)) :
    joinMembers left right = left.map fun member =>
      (member.1, ((memberOf? right member.1).map (shared member.2)).getD member.2) := by
  induction left with
  | nil => rw [joinMembers, List.map_nil]
  | cons member left ih =>
    rw [joinMembers, ih, List.map_cons]
    cases memberOf? right member.1 <;> rfl

theorem names_joined (left right : List (String × TypeExpr)) :
    (joined left right).map (·.1) =
      left.map (·.1) ++ (right.map (·.1)).filter fun name => name ∉ left.map (·.1) := by
  rw [joined, List.map_append, joinMembers_eq_map, List.map_map, List.filter_map]
  congr 2
  refine List.filter_congr fun member _ => ?_
  rw [Bool.eq_iff_iff, memberOf?_isNone_iff]
  simp

/-- Joined members have names of their own. -/
theorem nodup_joined {left right : List (String × TypeExpr)} (distinct : (left.map (·.1)).Nodup)
    (distinct' : (right.map (·.1)).Nodup) : ((joined left right).map (·.1)).Nodup := by
  rw [names_joined]
  refine List.nodup_append.mpr ⟨distinct, distinct'.filter _, ?_⟩
  rintro name mem _ mem' rfl
  simp only [List.mem_filter, decide_eq_true_eq] at mem'
  exact mem'.2 mem

theorem memberOf?_joinMembers (left right : List (String × TypeExpr)) (name : String) :
    memberOf? (joinMembers left right) name = (memberOf? left name).map fun type =>
      ((memberOf? right name).map (shared type)).getD type := by
  rw [joinMembers_eq_map]
  induction left with
  | nil => rfl
  | cons member left ih =>
    rw [List.map_cons, memberOf?_cons, memberOf?_cons, ih]
    split
    · next same => rw [eq_of_beq same, Option.map_some]
    · rfl

/-- The members that another entity does not have include those of a name that it does not have. -/
theorem memberOf?_filter {left : List (String × TypeExpr)} {name : String}
    (missing : memberOf? left name = none) (right : List (String × TypeExpr)) :
    memberOf? (right.filter fun member => (memberOf? left member.1).isNone) name =
      memberOf? right name := by
  induction right with
  | nil => rfl
  | cons member right ih =>
    rw [List.filter_cons, memberOf?_cons, ← ih]
    cases same : member.1 == name with
    | true => simp [eq_of_beq same, missing, memberOf?_cons]
    | false => split <;> simp [memberOf?_cons, same]

/-- A joined member is that of both entities in its common shape, or that of the only one that has
it. -/
theorem memberOf?_joined (left right : List (String × TypeExpr)) (name : String) :
    memberOf? (joined left right) name =
      match memberOf? left name, memberOf? right name with
      | some type, some other => some (shared type other)
      | some type, none => some type
      | none, other? => other? := by
  rw [joined, memberOf?_append, memberOf?_joinMembers]
  cases missing : memberOf? left name with
  | none =>
    rw [memberOf?_filter missing]
    rfl
  | some type => cases memberOf? right name <;> rfl

/-! ## Types that are built alike -/

theorem unify_array (item other : TypeExpr) :
    unify (.array item) (.array other) = (unify item other).map .array := by
  rw [unify]
  cases unify item other <;> rfl

theorem unify_map (value other : TypeExpr) :
    unify (.map value) (.map other) = (unify value other).map .map := by
  rw [unify]
  cases unify value other <;> rfl

theorem unify_promise (value other : TypeExpr) :
    unify (.promise value) (.promise other) = (unify value other).map .promise := by
  rw [unify]
  cases unify value other <;> rfl

theorem unify_tuple (items others : List TypeExpr) : unify (.tuple items) (.tuple others) =
    if items.length = others.length then (unifyEach items others).map .tuple
    else .error ⟨.tuple items, .tuple others⟩ := by
  rw [unify]
  cases unifyEach items others <;> rfl

/-! ## Types that are not built alike -/

/-- One of two types that are not built alike gives way to the other one. -/
theorem eq_or_eq_of_settle {left right type : TypeExpr} (h : settle left right = .ok type) :
    type = left ∨ type = right := by
  unfold settle at h
  split at h <;> cases h <;> simp

/-- Two types of one form that have types inside them. -/
inductive BuiltAlike : TypeExpr → TypeExpr → Prop
  | array (item other : TypeExpr) : BuiltAlike (.array item) (.array other)
  | tuple (items others : List TypeExpr) : BuiltAlike (.tuple items) (.tuple others)
  | map (value other : TypeExpr) : BuiltAlike (.map value) (.map other)
  | entity (members others : List (String × TypeExpr)) : BuiltAlike (.entity members) (.entity others)
  | function (params others : List TypeExpr) (result other : TypeExpr) :
    BuiltAlike (.function params result) (.function others other)
  | promise (value other : TypeExpr) : BuiltAlike (.promise value) (.promise other)

theorem BuiltAlike.symm {left right : TypeExpr} (h : BuiltAlike left right) :
    BuiltAlike right left := by
  cases h <;> constructor

theorem unify_of_not_builtAlike {left right : TypeExpr} (h : ¬ BuiltAlike left right) :
    unify left right = settle left right := by
  rw [unify]
  · rintro item other rfl rfl
    exact h (.array item other)
  · rintro value other rfl rfl
    exact h (.map value other)
  · rintro value other rfl rfl
    exact h (.promise value other)
  · rintro items others rfl rfl
    exact h (.tuple items others)
  · rintro members others rfl rfl
    exact h (.entity members others)
  · rintro params result others other rfl rfl
    exact h (.function params others result other)

/-- It does not matter which of them comes first. -/
theorem settle_swap (left right : TypeExpr) :
    (settle left right).toOption = (settle right left).toOption := by
  cases left <;> cases right <;> rfl

/-! ## A type with itself -/

mutual

/-- The common shape of a type with itself is that type. -/
theorem unify_self : ∀ type : TypeExpr, type.Distinct → unify type type = .ok type
  | .array item, distinct => by
    rw [unify, unify_self item distinct]
    rfl
  | .tuple items, distinct => by
    rw [unify, if_pos rfl, unifyEach_self items distinct]
    rfl
  | .map value, distinct => by
    rw [unify, unify_self value distinct]
    rfl
  | .entity members, ⟨distinct, inside⟩ => by
    have none : (members.filter fun member => (memberOf? members member.1).isNone) = [] := by
      refine List.filter_eq_nil_iff.mpr fun member mem => ?_
      rw [memberOf?_isNone_iff]
      exact not_not_intro (List.mem_map_of_mem mem)
    rw [unify, none, List.append_nil, joinMembers_self distinct members inside fun _ mem => mem]
  | .function params result, ⟨first, second⟩ => by
    rw [unify, if_pos rfl, unifyEach_self params first,
      unify_self result second]
    rfl
  | .promise value, distinct => by
    rw [unify, unify_self value distinct]
    rfl
  | .number, _ | .string, _ | .bool, _ | .unit, _ | .null, _ | .error, _ | .unknown, _ =>
    (unify_of_not_builtAlike (by nofun)).trans rfl

theorem unifyEach_self : ∀ types : List TypeExpr, DistinctEach types →
    unifyEach types types = .ok types
  | [], _ => by
    rw [unifyEach]
    nofun
  | type :: types, ⟨first, rest⟩ => by
    rw [unifyEach, unify_self type first, unifyEach_self types rest]
    rfl

/-- Members of an entity are joined with the entity. -/
theorem joinMembers_self {all : List (String × TypeExpr)} (distinct : (all.map (·.1)).Nodup) :
    ∀ members : List (String × TypeExpr), DistinctMembers members →
      (∀ member ∈ members, member ∈ all) → joinMembers members all = members
  | [], _, _ => by rw [joinMembers]
  | (name, type) :: members, ⟨first, rest⟩, among => by
    have found : memberOf? all name = some type :=
      (memberOf?_eq_some_iff distinct).mpr (among _ List.mem_cons_self)
    rw [joinMembers, found, joinMembers_self distinct members rest
      fun member mem => among member (List.mem_cons_of_mem _ mem)]
    simp only [unify_self type first]

end

/-! ## The members of a common shape -/

/-- A shape around another one is there if that one is. -/
theorem exists_of_map {α : Type} {x : Except TypeMismatch α} {wrap : α → TypeExpr}
    {type : TypeExpr} (h : x.map wrap = .ok type) : ∃ inner, x = .ok inner ∧ type = wrap inner := by
  cases x <;> cases h
  exact ⟨_, rfl, rfl⟩

theorem exists_of_unify_function {params others : List TypeExpr} {result other type : TypeExpr}
    (h : unify (.function params result) (.function others other) = .ok type) :
    ∃ common last, unifyEach params others = .ok common ∧ unify result other = .ok last ∧
      type = .function common last := by
  rw [unify] at h
  split at h
  · cases first : unifyEach params others <;> rw [first] at h
    · cases h
    · cases second : unify result other <;> rw [second] at h <;> cases h
      exact ⟨_, _, rfl, rfl, rfl⟩
  · cases h

theorem distinct_of_not_builtAlike {left right type : TypeExpr} (apart : ¬ BuiltAlike left right)
    (h : left.Distinct) (h' : right.Distinct) (run : unify left right = .ok type) :
    type.Distinct := by
  rw [unify_of_not_builtAlike apart] at run
  rcases eq_or_eq_of_settle run with rfl | rfl
  · exact h
  · exact h'

/-- Joined members are as distinct as those that they are joined from. -/
theorem distinctMembers_joined {left right : List (String × TypeExpr)} (h : DistinctMembers left)
    (h' : DistinctMembers right)
    (inside : ∀ member ∈ left, ∀ other ∈ right, (shared member.2 other.2).Distinct) :
    DistinctMembers (joined left right) := by
  rw [distinctMembers_iff] at h h' ⊢
  intro member mem
  rw [joined, joinMembers_eq_map] at mem
  rcases List.mem_append.mp mem with first | second
  · obtain ⟨old, among, rfl⟩ := List.mem_map.mp first
    cases found : memberOf? right old.1 with
    | none => exact h old among
    | some type =>
      obtain ⟨other, first, rfl⟩ := Option.map_eq_some_iff.mp found
      exact inside old among other (List.mem_of_find?_eq_some first)
  · exact h' member (List.mem_filter.mp second).1

mutual

/-- The members of entities in a common shape have names of their own. -/
theorem distinct_of_unify : ∀ left right : TypeExpr, left.Distinct → right.Distinct →
    ∀ {type : TypeExpr}, unify left right = .ok type → type.Distinct
  | .array item, right, h, h', type, run => by
    cases right with
    | array other =>
      rw [unify_array] at run
      obtain ⟨common, first, rfl⟩ := exists_of_map run
      have inside : common.Distinct := distinct_of_unify item other h h' first
      exact inside
    | _ => exact distinct_of_not_builtAlike (by nofun) h h' run
  | .tuple items, right, h, h', type, run => by
    cases right with
    | tuple others =>
      rw [unify_tuple] at run
      split at run
      · obtain ⟨common, each, rfl⟩ := exists_of_map run
        exact distinctEach_of_unifyEach items others h h' each
      · cases run
    | _ => exact distinct_of_not_builtAlike (by nofun) h h' run
  | .map value, right, h, h', type, run => by
    cases right with
    | map other =>
      rw [unify_map] at run
      obtain ⟨common, first, rfl⟩ := exists_of_map run
      have inside : common.Distinct := distinct_of_unify value other h h' first
      exact inside
    | _ => exact distinct_of_not_builtAlike (by nofun) h h' run
  | .entity members, right, h, h', type, run => by
    cases right with
    | entity others =>
      rw [unify_entity] at run
      cases run
      refine ⟨nodup_joined h.1 h'.1, ?_⟩
      exact distinctMembers_joined h.2 h'.2
        (distinct_shared members h.2 (distinctMembers_iff.mp h'.2))
    | _ => exact distinct_of_not_builtAlike (by nofun) h h' run
  | .function params result, right, h, h', type, run => by
    cases right with
    | function others other =>
      obtain ⟨common, last, each, second, rfl⟩ := exists_of_unify_function run
      exact ⟨distinctEach_of_unifyEach params others h.1 h'.1 each,
        distinct_of_unify result other h.2 h'.2 second⟩
    | _ => exact distinct_of_not_builtAlike (by nofun) h h' run
  | .promise value, right, h, h', type, run => by
    cases right with
    | promise other =>
      rw [unify_promise] at run
      obtain ⟨common, first, rfl⟩ := exists_of_map run
      have inside : common.Distinct := distinct_of_unify value other h h' first
      exact inside
    | _ => exact distinct_of_not_builtAlike (by nofun) h h' run
  | .number, _, h, h', _, run | .string, _, h, h', _, run | .bool, _, h, h', _, run
  | .unit, _, h, h', _, run | .null, _, h, h', _, run | .error, _, h, h', _, run
  | .unknown, _, h, h', _, run => distinct_of_not_builtAlike (by nofun) h h' run

theorem distinctEach_of_unifyEach : ∀ left right : List TypeExpr, DistinctEach left →
    DistinctEach right → ∀ {types : List TypeExpr}, unifyEach left right = .ok types →
      DistinctEach types
  | [], right, _, _, types, run => by
    cases right <;> cases run <;> trivial
  | type :: _, [], _, _, types, run => by
    cases run
    trivial
  | type :: lefts, other :: rights, h, h', types, run => by
    rw [unifyEach] at run
    cases first : unify type other with
    | error mismatch =>
      rw [first] at run
      cases run
    | ok common =>
      cases rest : unifyEach lefts rights with
      | error mismatch =>
        rw [first, rest] at run
        cases run
      | ok others =>
        rw [first, rest] at run
        cases run
        exact ⟨distinct_of_unify type other h.1 h'.1 first,
          distinctEach_of_unifyEach lefts rights h.2 h'.2 rest⟩

/-- So it is in the types of shared members. -/
theorem distinct_shared {others : List (String × TypeExpr)} :
    ∀ members : List (String × TypeExpr), DistinctMembers members →
      (∀ other ∈ others, other.2.Distinct) →
        ∀ member ∈ members, ∀ other ∈ others, (shared member.2 other.2).Distinct
  | [], _, _ => List.forall_mem_nil _
  | (name, type) :: members, h, h' => by
    intro member mem other mem'
    rcases List.mem_cons.mp mem with rfl | mem
    · rw [shared]
      cases run : unify type other.2 with
      | ok common => exact distinct_of_unify type other.2 h.1 (h' other mem') run
      | error mismatch => trivial
    · exact distinct_shared members h.2 h' member mem other mem'

end

/-! ## Two types in the other order -/

/-- What two types have in common, with the members of entities in the order of their names. -/
def common? (left right : TypeExpr) : Option TypeExpr :=
  (unify left right).toOption.map sorted

/-- So it is for two lists of types. -/
def commonEach? (left right : List TypeExpr) : Option (List TypeExpr) :=
  (unifyEach left right).toOption.map sortedEach

/-- A shape around what two types have in common. -/
theorem sorted_wrapped {α : Type} {sort : α → α} {wrap : α → TypeExpr}
    (through : ∀ inner, (wrap inner).sorted = wrap (sort inner)) (x : Except TypeMismatch α) :
    (x.map wrap).toOption.map sorted = (x.toOption.map sort).map wrap := by
  cases x with
  | error mismatch => rfl
  | ok inner => exact congrArg some (through inner)

section

variable {left right : TypeExpr}

theorem common?_array : common? (.array left) (.array right) = (common? left right).map .array := by
  rw [common?, common?, unify_array]
  exact sorted_wrapped (fun _ => by rw [sorted]) _

theorem common?_map : common? (.map left) (.map right) = (common? left right).map .map := by
  rw [common?, common?, unify_map]
  exact sorted_wrapped (fun _ => by rw [sorted]) _

theorem common?_promise :
    common? (.promise left) (.promise right) = (common? left right).map .promise := by
  rw [common?, common?, unify_promise]
  exact sorted_wrapped (fun _ => by rw [sorted]) _

theorem common?_tuple {left right : List TypeExpr} : common? (.tuple left) (.tuple right) =
    if left.length = right.length then (commonEach? left right).map .tuple else none := by
  rw [common?, commonEach?, unify_tuple]
  split
  · exact sorted_wrapped (fun _ => by rw [sorted]) _
  · rfl

theorem common?_function {params others : List TypeExpr} :
    common? (.function params left) (.function others right) =
      if params.length = others.length then
        (commonEach? params others).bind fun params => (common? left right).map (.function params)
      else none := by
  rw [common?, common?, commonEach?, unify]
  split
  · cases unifyEach params others <;> cases unify left right <;> rfl
  · rfl

theorem common?_swap_of_not_builtAlike (h : ¬ BuiltAlike left right) :
    common? left right = common? right left := by
  rw [common?, common?, unify_of_not_builtAlike h, unify_of_not_builtAlike (mt BuiltAlike.symm h),
    settle_swap]

end

theorem commonEach?_cons {left right : TypeExpr} {lefts rights : List TypeExpr} :
    commonEach? (left :: lefts) (right :: rights) =
      (common? left right).bind fun type => (commonEach? lefts rights).map (type :: ·) := by
  rw [common?, commonEach?, commonEach?, unifyEach]
  cases unify left right <;> cases unifyEach lefts rights <;> rfl

/-- A shared member is what both types have in common, or unknown. -/
theorem sorted_shared (type other : TypeExpr) :
    (shared type other).sorted = (common? type other).getD .unknown := by
  rw [shared, common?]
  cases unify type other <;> rfl

/-- Entities have the same members, up to their order. -/
theorem sorted_joined_swap {left right : List (String × TypeExpr)}
    (distinct : (left.map (·.1)).Nodup) (distinct' : (right.map (·.1)).Nodup)
    (inside : ∀ member ∈ left, ∀ other ∈ right, common? member.2 other.2 = common? other.2 member.2) :
    sorted (.entity (joined left right)) = sorted (.entity (joined right left)) := by
  rw [sorted, sorted]
  congr 1
  refine sortMembers_eq_of_perm ?_ (perm_of_memberOf?_eq ?_ ?_ fun name => ?_)
  · rw [names_sortedMembers]
    exact nodup_joined distinct distinct'
  · rw [names_sortedMembers]
    exact nodup_joined distinct distinct'
  · rw [names_sortedMembers]
    exact nodup_joined distinct' distinct
  · rw [memberOf?_sortedMembers, memberOf?_sortedMembers, memberOf?_joined, memberOf?_joined]
    cases first : memberOf? left name with
    | none => cases memberOf? right name <;> rfl
    | some type =>
      cases second : memberOf? right name with
      | none => rfl
      | some other =>
        have same := inside _ ((memberOf?_eq_some_iff distinct).mp first) _
          ((memberOf?_eq_some_iff distinct').mp second)
        simp only [Option.map_some, sorted_shared, same]

mutual

/-- What two types have in common does not depend on which of them comes first. -/
theorem common?_swap : ∀ left right : TypeExpr, left.Distinct → right.Distinct →
    common? left right = common? right left
  | .array item, right, h, h' => by
    cases right with
    | array other => rw [common?_array, common?_array, common?_swap item other h h']
    | _ => exact common?_swap_of_not_builtAlike nofun
  | .tuple items, right, h, h' => by
    cases right with
    | tuple others =>
      simp only [common?_tuple, commonEach?_swap items others h h', eq_comm (a := items.length)]
    | _ => exact common?_swap_of_not_builtAlike nofun
  | .map value, right, h, h' => by
    cases right with
    | map other => rw [common?_map, common?_map, common?_swap value other h h']
    | _ => exact common?_swap_of_not_builtAlike nofun
  | .entity members, right, h, h' => by
    cases right with
    | entity others =>
      rw [common?, common?, unify_entity, unify_entity]
      exact congrArg some (sorted_joined_swap h.1 h'.1
        (members_swap members h.2 (distinctMembers_iff.mp h'.2)))
    | _ => exact common?_swap_of_not_builtAlike nofun
  | .function params result, right, h, h' => by
    cases right with
    | function others other =>
      simp only [common?_function, commonEach?_swap params others h.1 h'.1,
        common?_swap result other h.2 h'.2, eq_comm (a := params.length)]
    | _ => exact common?_swap_of_not_builtAlike nofun
  | .promise value, right, h, h' => by
    cases right with
    | promise other => rw [common?_promise, common?_promise, common?_swap value other h h']
    | _ => exact common?_swap_of_not_builtAlike nofun
  | .number, _, _, _ | .string, _, _, _ | .bool, _, _, _ | .unit, _, _, _ | .null, _, _, _
  | .error, _, _, _ | .unknown, _, _, _ => common?_swap_of_not_builtAlike nofun

theorem commonEach?_swap : ∀ left right : List TypeExpr, DistinctEach left →
    DistinctEach right → commonEach? left right = commonEach? right left
  | [], right, _, _ => by cases right <;> rfl
  | type :: types, [], _, _ => rfl
  | type :: types, other :: others, h, h' => by
    rw [commonEach?_cons, commonEach?_cons, common?_swap type other h.1 h'.1,
      commonEach?_swap types others h.2 h'.2]

/-- So it is for the types of members. -/
theorem members_swap {others : List (String × TypeExpr)} : ∀ members : List (String × TypeExpr),
    DistinctMembers members → (∀ other ∈ others, other.2.Distinct) →
      ∀ member ∈ members, ∀ other ∈ others, common? member.2 other.2 = common? other.2 member.2
  | [], _, _ => List.forall_mem_nil _
  | (name, type) :: members, h, h' => by
    intro member mem other mem'
    rcases List.mem_cons.mp mem with rfl | mem
    · exact common?_swap type other.2 h.1 (h' other mem')
    · exact members_swap members h.2 h' member mem other mem'

end

/-! ## Either way round -/

/-- Two types have a common shape in one order if they have one in the other order, and the two shapes
are the same up to the order of the members of entities, which have names of their own again. The
common shape of a type with itself is that type. -/
theorem unify_either_way {left right : TypeExpr} (distinct : left.Distinct)
    (distinct' : right.Distinct) :
    (unify left right).isOk = (unify right left).isOk ∧
    (∀ type type', unify left right = .ok type → unify right left = .ok type' →
      type.sorted = type'.sorted ∧ type.Distinct ∧ type'.Distinct) ∧
    unify left left = .ok left := by
  have swap := common?_swap left right distinct distinct'
  rw [common?, common?] at swap
  refine ⟨?_, fun type type' run run' => ⟨?_, ?_, ?_⟩, unify_self left distinct⟩
  · cases run : unify left right with
    | error mismatch =>
      cases run' : unify right left with
      | error mismatch' => rfl
      | ok type' =>
        rw [run, run'] at swap
        cases swap
    | ok type =>
      cases run' : unify right left with
      | error mismatch' =>
        rw [run, run'] at swap
        cases swap
      | ok type' => rfl
  · rw [run, run'] at swap
    exact Option.some.inj swap
  · exact distinct_of_unify left right distinct distinct' run
  · exact distinct_of_unify right left distinct' distinct run'

/-- The shape of a team with a lead of unknown age. -/
def teamShape : TypeExpr :=
  .entity [("lead", .entity [("name", .string), ("age", .unknown)]), ("size", .number)]

/-- The shape of a club with a lead of no name, and a size that is no number. -/
def clubShape : TypeExpr :=
  .entity [("size", .string), ("lead", .entity [("age", .number), ("name", .null)]), ("open", .bool)]

theorem unify_either_way_of_team : teamShape.Distinct ∧ clubShape.Distinct ∧
    ∃ type type', unify teamShape clubShape = .ok type ∧ unify clubShape teamShape = .ok type' ∧
      type.sorted = type'.sorted ∧ type.Distinct ∧ type'.Distinct ∧
      unify teamShape teamShape = .ok teamShape := by
  have team : teamShape.Distinct := by simp [teamShape, Distinct, DistinctMembers]
  have club : clubShape.Distinct := by simp [clubShape, Distinct, DistinctMembers]
  have ⟨_, same, itself⟩ := unify_either_way team club
  have run : unify teamShape clubShape = .ok (.entity (joined _ _)) := unify_entity _ _
  have run' : unify clubShape teamShape = .ok (.entity (joined _ _)) := unify_entity _ _
  have ⟨equal, first, second⟩ := same _ _ run run'
  exact ⟨team, club, _, _, run, run', equal, first, second, itself⟩

end ScriptEngine.TypeExpr
