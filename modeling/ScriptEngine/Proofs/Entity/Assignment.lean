import ScriptEngine.Proofs.Entity.Chain

/-!
# Assignment of members

An assignment goes up the chain of bases to the entity that has the member, so that every entity over
that one sees the new value unless another holder is nearer to it.

* `Arena.target`: the one entity that an assignment writes to.
* `Arena.own?_define`: what entities have themselves when one of them is given a member.
* `Arena.Ordered.get?_set_self`: the entity finds the value assigned.
* `Arena.Ordered.get?_set_of_ne`, `Arena.Ordered.get?_set_of_nearest`: what is found as before.
-/

namespace ScriptEngine.Arena

variable {a : Arena} {id holder : Nat} {name : String} {value : Value}

/-! ## Members of one entity -/

/-- What entities have themselves when one of them is given a member. -/
theorem own?_define (inside : holder < a.size) (other : Nat) (key : String) :
    (a.define holder name value).own? other key =
      if other = holder ∧ key = name then some value else a.own? other key := by
  have there : a.record? holder = some a.records[holder] := Array.getElem?_eq_getElem inside
  rw [own?, own?, record?_define]
  by_cases same : holder = other
  · subst same
    rw [if_pos rfl, there]
    simp only [Option.map_some, Option.bind_some, OrderedMap.get?_insert, true_and]
  · rw [if_neg same, if_neg fun both => same both.1.symm]

/-- Members of other names are not touched. -/
theorem own?_define_of_ne {key : String} (ne : key ≠ name) (other : Nat) :
    (a.define holder name value).own? other key = a.own? other key := by
  rw [own?, own?, record?_define]
  split
  · cases a.record? other with
    | none => rfl
    | some record =>
      simp only [Option.map_some, Option.bind_some, OrderedMap.get?_insert, if_neg ne]
  · rfl

/-- The way up does not depend on members. -/
theorem Path.define {start : Option Nat} {ids : List Nat} (path : a.Path start ids) :
    (a.define holder name value).Path start ids := by
  induction path with
  | ended => exact .ended
  | missing absent =>
    refine .missing ?_
    rw [record?_define, absent]
    split <;> rfl
  | @upward id record ids there _ ih =>
    by_cases same : holder = id
    · have changed : (a.define holder name value).record? id =
          some { record with members := record.members.insert name value } := by
        rw [record?_define, if_pos same, there]
        rfl
      exact .upward changed ih
    · refine .upward ?_ ih
      rw [record?_define, if_neg same, there]

/-- Bases do not depend on members. -/
theorem base?_define : (a.define holder name value).base? id = a.base? id := by
  rw [base?, base?, record?_define]
  split
  · cases a.record? id <;> rfl
  · rfl

theorem Ordered.define (ordered : a.Ordered) : (a.define holder name value).Ordered := by
  intro id base onto
  rw [base?_define] at onto
  exact ordered id base onto

/-! ## The entity written to -/

/-- The entity that an assignment writes to: the nearest one that has the member, or else the entity
itself. -/
def target (a : Arena) (id : Nat) (name : String) : Nat :=
  match a.find? id name with
  | some (holder, _) => holder
  | none => id

theorem set_eq : a.set id name value = a.define (a.target id name) name value := rfl

/-- An assignment writes to the nearest entity that has the member, or else to the entity itself. -/
theorem Ordered.target_cases (ordered : a.Ordered) (id : Nat) (name : String) :
    a.Nearest id name (a.target id name) ∨
      (∀ holder, ¬ a.Nearest id name holder) ∧ a.target id name = id := by
  cases found : a.find? id name with
  | some pair =>
    refine .inl ?_
    rw [target, found]
    exact (ordered.find?_eq_some_iff.mp found).1
  | none =>
    refine .inr ⟨ordered.find?_eq_none_iff.mp found, ?_⟩
    rw [target, found]

theorem Ordered.target_lt_size (ordered : a.Ordered) (inside : id < a.size) (name : String) :
    a.target id name < a.size := by
  rcases ordered.target_cases id name with ⟨before, after, path, -, -⟩ | ⟨-, same⟩
  · exact path.lt_size _ (List.mem_append_right _ List.mem_cons_self)
  · rwa [same]

/-! ## What is found afterwards -/

/-- The entity finds the value assigned. -/
theorem Ordered.get?_set_self (ordered : a.Ordered) (inside : id < a.size) :
    (a.set id name value).get? id name = some value := by
  have written := ordered.target_lt_size inside name
  have own : (a.set id name value).own? (a.target id name) name = some value := by
    rw [set_eq, own?_define written, if_pos ⟨rfl, rfl⟩]
  refine (ordered.define.get?_eq_some_iff (a := a.set id name value)).mpr ⟨_, ?_, own⟩
  have isSome : ((a.set id name value).own? (a.target id name) name).isSome := by
    rw [own]
    rfl
  rcases ordered.target_cases id name with ⟨before, after, path, lack, has⟩ | ⟨-, same⟩
  · refine ⟨before, after, path.define, fun other mem => ?_, isSome⟩
    have apart : other ≠ a.target id name := by
      rintro rfl
      rw [lack _ mem] at has
      cases has
    rw [set_eq, own?_define written, if_neg fun both => apart both.1, lack other mem]
  · obtain ⟨after, way⟩ := (ordered.path_chain id).exists_cons inside
    refine ⟨[], after, ?_, fun _ mem => absurd mem List.not_mem_nil, isSome⟩
    rw [same, List.nil_append, ← way]
    exact (ordered.path_chain id).define

/-- Members of other names are found as before. -/
theorem get?_set_of_ne {key : String} (ne : key ≠ name) (other : Nat) :
    (a.set id name value).get? other key = a.get? other key := by
  simp only [set_eq, get?, find?, chain_define, own?_define_of_ne ne]

/-- Where no holder is on the way up from an entity, none of the entities on it has the member. -/
theorem Ordered.own?_eq_none_of_mem (ordered : a.Ordered)
    (nowhere : ∀ holder, ¬ a.Nearest id name holder) {ids : List Nat} (path : a.Path (some id) ids)
    {other : Nat} (mem : other ∈ ids) : a.own? other name = none := by
  have absent := ordered.find?_eq_none_iff.mpr nowhere
  rw [find?, (ordered.path_chain id).unique path, List.findSome?_eq_none_iff] at absent
  exact Option.map_eq_none_iff.mp (absent other mem)

/-- Where the nearest holder is not the entity written to, the member is found as before. -/
theorem Ordered.get?_set_of_nearest (ordered : a.Ordered) (inside : id < a.size) {other : Nat}
    (nearest : a.Nearest other name holder) (ne : holder ≠ a.target id name) :
    (a.set id name value).get? other name = a.get? other name := by
  have written := ordered.target_lt_size inside name
  obtain ⟨before, after, path, lack, has⟩ := nearest
  obtain ⟨old, own⟩ := Option.isSome_iff_exists.mp has
  have own' : (a.set id name value).own? holder name = some old := by
    rw [set_eq, own?_define written, if_neg fun both => ne both.1, own]
  rw [ordered.get?_eq_some_iff.mpr ⟨holder, ⟨before, after, path, lack, has⟩, own⟩]
  refine (ordered.define.get?_eq_some_iff (a := a.set id name value)).mpr ⟨holder, ?_, own'⟩
  refine ⟨before, after, path.define, fun between mem => ?_, ?_⟩
  · rw [set_eq, own?_define written, if_neg, lack between mem]
    -- An entity written to between the two would lack the member, and so would the holder behind it.
    rintro ⟨rfl, -⟩
    rcases ordered.target_cases id name with ⟨_, _, _, _, isHolder⟩ | ⟨nowhere, same⟩
    · rw [lack _ mem] at isHolder
      cases isHolder
    · obtain ⟨early, late, rfl⟩ := List.append_of_mem mem
      rw [same, List.append_assoc, List.cons_append] at path
      have last := ordered.own?_eq_none_of_mem nowhere path.behind
        (List.mem_cons_of_mem _ (List.mem_append_right late List.mem_cons_self))
      cases last.symm.trans own
  · rw [own']
    rfl

end ScriptEngine.Arena
