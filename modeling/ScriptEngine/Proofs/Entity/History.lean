import Mathlib.Logic.Relation
import ScriptEngine.Proofs.Entity.Assignment

/-!
# What becomes of an arena

An arena begins without entities, and every change adds an entity or changes one. So what holds at
first and stays with every change holds of all arenas there are.

* `Arena.Change`: making an entity, defining or assigning a member, attaching a host object.
* `Arena.base?_apply`: what a change leaves of each base; `Arena.names_apply`: of the names of members.
* `Arena.Reached`: the arenas there are, each with the definitions that were made in it.
* `Arena.Reached.prototype_law`: what the entities of an arena look like, what looking up finds in
  them, and what an assignment does.
-/

namespace ScriptEngine.Arena

/-! ## Changes -/

/-- A change of the entities of an environment. -/
inductive Change
  | alloc (base : Option Nat) (host : Option HostRef)
  | define (id : Nat) (name : String) (value : Value)
  | set (id : Nat) (name : String) (value : Value)
  | attachHost (id : Nat) (host : HostRef)

/-- The arena after a change. -/
def apply (a : Arena) : Change → Arena
  | .alloc base none => (a.alloc base).2
  | .alloc base (some host) =>
    let (id, made) := a.alloc base
    made.attachHost id host
  | .define id name value => a.define id name value
  | .set id name value => a.set id name value
  | .attachHost id host => a.attachHost id host

/-- A change is about entities of the arena only. -/
def Change.Within (a : Arena) : Change → Prop
  | .alloc base _ => ∀ id ∈ base, id < a.size
  | .define id _ _ | .set id _ _ | .attachHost id _ => id < a.size

/-- The entity that a change gives a member, and the name of that. -/
def Change.definition? (a : Arena) : Change → Option (Nat × String)
  | .alloc .. | .attachHost .. => none
  | .define id name _ => some (id, name)
  | .set id name _ => some (a.target id name, name)

variable {a : Arena} {change : Change} {id : Nat}

/-! ### What a change leaves -/

theorem record?_alloc (base : Option Nat) : (a.alloc base).2.record? id =
    if id = a.size then some ⟨.empty, base, none⟩ else a.record? id :=
  Array.getElem?_push

theorem record?_attachHost (holder : Nat) (host : HostRef) : (a.attachHost holder host).record? id =
    if holder = id then (a.record? id).map fun record => { record with host := some host }
    else a.record? id :=
  Array.getElem?_modify

/-- An entity that is made has the base it was made over. -/
theorem base?_alloc (base : Option Nat) :
    (a.alloc base).2.base? id = if id = a.size then base else a.base? id := by
  rw [base?, record?_alloc]
  split <;> rfl

theorem base?_attachHost (holder : Nat) (host : HostRef) :
    (a.attachHost holder host).base? id = a.base? id := by
  rw [base?, base?, record?_attachHost]
  split
  · cases a.record? id <;> rfl
  · rfl

/-- An entity that is made has no members yet. -/
theorem members_alloc (base : Option Nat) : (a.alloc base).2.members id = a.members id := by
  rw [members, members, record?_alloc]
  by_cases new : id = a.size
  · have absent : a.record? id = none := Array.getElem?_eq_none (Nat.le_of_eq new.symm)
    rw [if_pos new, absent]
    rfl
  · rw [if_neg new]

theorem members_attachHost (holder : Nat) (host : HostRef) :
    (a.attachHost holder host).members id = a.members id := by
  rw [members, members, record?_attachHost]
  by_cases same : holder = id
  · rw [if_pos same]
    cases a.record? id <;> rfl
  · rw [if_neg same]

theorem size_le_apply : a.size ≤ (a.apply change).size := by
  rcases change with ⟨base, _ | host⟩ | _ | _ | _
  · exact (size_alloc base).symm ▸ Nat.le_succ _
  · exact ((size_attachHost _ host).trans (size_alloc base)).symm ▸ Nat.le_succ _
  · exact Nat.le_of_eq size_define.symm
  · exact Nat.le_of_eq size_define.symm
  · exact Nat.le_of_eq (size_attachHost _ _).symm

/-- Only an entity that is made gets a base. -/
theorem base?_apply (change : Change) (id : Nat) : (a.apply change).base? id = a.base? id ∨
    id = a.size ∧ ∃ base host, change = .alloc base host ∧ (a.apply change).base? id = base := by
  rcases change with ⟨base, _ | host⟩ | _ | _ | _
  · by_cases new : id = a.size
    · exact .inr ⟨new, base, none, rfl, (base?_alloc base).trans (if_pos new)⟩
    · exact .inl ((base?_alloc base).trans (if_neg new))
  · have same : (a.apply (.alloc base (some host))).base? id = (a.alloc base).2.base? id :=
      base?_attachHost a.size host
    by_cases new : id = a.size
    · exact .inr ⟨new, base, some host, rfl, same.trans ((base?_alloc base).trans (if_pos new))⟩
    · exact .inl (same.trans ((base?_alloc base).trans (if_neg new)))
  · exact .inl base?_define
  · exact .inl base?_define
  · exact .inl (base?_attachHost _ _)

theorem base?_apply_of_lt (inside : id < a.size) : (a.apply change).base? id = a.base? id := by
  rcases a.base?_apply change id with same | ⟨new, -⟩
  · exact same
  · exact absurd new (Nat.ne_of_lt inside)

/-- A change within the arena keeps it ordered. -/
theorem Ordered.apply (ordered : a.Ordered) (within : change.Within a) :
    (a.apply change).Ordered := by
  intro id onto has
  rcases a.base?_apply change id with same | ⟨new, base, host, rfl, made⟩
  · exact ordered id onto (same ▸ has)
  · exact new ▸ within onto (made.symm.trans has)

/-! ### Names -/

/-- The names of the own members of an entity. -/
def names (a : Arena) (id : Nat) : List String := (a.members id).map (·.1)

/-- A definition adds its name at the end, unless that is there already. -/
theorem names_define {holder : Nat} {name : String} {value : Value} (inside : holder < a.size) :
    (a.define holder name value).names id =
      if holder = id ∧ name ∉ a.names id then a.names id ++ [name] else a.names id := by
  by_cases same : holder = id
  · subst same
    have there : a.record? holder = some a.records[holder] := Array.getElem?_eq_getElem inside
    have before : a.names holder = a.records[holder].members.keys := by
      rw [names, members, there]
      rfl
    have after : (a.define holder name value).names holder =
        (a.records[holder].members.insert name value).keys := by
      rw [names, members, record?_define, if_pos rfl, there]
      rfl
    rw [after, before]
    refine (Rows.keys_insert value).trans ?_
    by_cases old : name ∈ a.records[holder].members.keys
    · rw [if_pos old, if_neg fun both => both.2 old]
    · rw [if_neg old, if_pos ⟨rfl, old⟩]
  · rw [if_neg fun both => same both.1, names, names, members_define_of_ne same]

/-- The names of an entity are distinct. -/
theorem nodup_names (a : Arena) (id : Nat) : (a.names id).Nodup := by
  rw [names, members]
  cases a.record? id with
  | none => exact List.nodup_nil
  | some record => exact record.members.nodup_keys

/-! ### The order of names -/

/-- The names that definitions give an entity, each where it was first defined. -/
def firstNames (definitions : List (Nat × String)) (id : Nat) : List String :=
  ((definitions.filter (·.1 == id)).map (·.2)).eraseDups

/-- A text behind others counts unless it is among them. -/
theorem eraseDups_concat (texts : List String) (text : String) :
    (texts ++ [text]).eraseDups =
      if text ∉ texts.eraseDups then texts.eraseDups ++ [text] else texts.eraseDups := by
  rw [List.eraseDups_append]
  by_cases old : text ∈ texts
  · rw [if_neg (not_not_intro (List.mem_eraseDups.mpr old))]
    simp [List.removeAll, old]
  · rw [if_pos (mt List.mem_eraseDups.mp old)]
    simp [List.removeAll, old, List.eraseDups_cons]

theorem firstNames_concat (definitions : List (Nat × String)) (holder : Nat) (name : String) :
    firstNames (definitions ++ [(holder, name)]) id =
      if holder = id ∧ name ∉ firstNames definitions id then firstNames definitions id ++ [name]
      else firstNames definitions id := by
  by_cases same : holder = id
  · subst same
    have last : ((definitions ++ [(holder, name)]).filter (·.1 == holder)).map (·.2) =
        (definitions.filter (·.1 == holder)).map (·.2) ++ [name] := by
      simp
    rw [firstNames, last, eraseDups_concat, ← firstNames]
    simp only [true_and]
  · have last : (definitions ++ [(holder, name)]).filter (·.1 == id) =
        definitions.filter (·.1 == id) := by
      simp [same]
    rw [if_neg fun both => same both.1, firstNames, last, ← firstNames]

/-- A change keeps the names of each entity in the order of their first definition. -/
theorem names_apply {definitions : List (Nat × String)} (ordered : a.Ordered)
    (within : change.Within a) (inOrder : ∀ id, a.names id = firstNames definitions id) (id : Nat) :
    (a.apply change).names id =
      firstNames (definitions ++ (change.definition? a).toList) id := by
  rcases change with ⟨base, _ | host⟩ | ⟨holder, name, value⟩ | ⟨other, name, value⟩ | ⟨holder, host⟩
  · rw [Change.definition?, Option.toList_none, List.append_nil, ← inOrder]
    exact congrArg (List.map _) (members_alloc base)
  · rw [Change.definition?, Option.toList_none, List.append_nil, ← inOrder]
    exact congrArg (List.map _) ((members_attachHost a.size host).trans (members_alloc base))
  · rw [Change.definition?, Option.toList_some, firstNames_concat, ← inOrder]
    exact names_define within
  · rw [Change.definition?, Option.toList_some, firstNames_concat, ← inOrder]
    exact names_define (ordered.target_lt_size within name)
  · rw [Change.definition?, Option.toList_none, List.append_nil, ← inOrder]
    exact congrArg (List.map _) (members_attachHost holder host)

/-! ## Arenas that come about -/

/-- A change within an arena turns it into another one. -/
def Step (a b : Arena) : Prop := ∃ change : Change, change.Within a ∧ b = a.apply change

/-- The arenas that come about from none by changes within them, each with the definitions made so
far, the earliest first. -/
inductive Reached : List (Nat × String) → Arena → Prop
  | empty : Reached [] .empty
  | change {definitions : List (Nat × String)} {a : Arena} (change : Change) :
    Reached definitions a → change.Within a →
    Reached (definitions ++ (change.definition? a).toList) (a.apply change)

variable {definitions : List (Nat × String)}

theorem Reached.ordered (reached : Reached definitions a) : a.Ordered := by
  induction reached with
  | empty => exact fun _ _ none => nomatch none
  | change _ _ within ih => exact ih.apply within

/-- The names of every entity are in the order of their first definition. -/
theorem Reached.names_eq (reached : Reached definitions a) (id : Nat) :
    a.names id = firstNames definitions id := by
  induction reached generalizing id with
  | empty => rfl
  | change _ reached within ih => exact names_apply reached.ordered within ih id

/-- The bases of entities that are there stay, whatever comes. -/
theorem base?_of_steps {b : Arena} (steps : Relation.ReflTransGen Step a b) (inside : id < a.size) :
    id < b.size ∧ b.base? id = a.base? id := by
  induction steps with
  | refl => exact ⟨inside, rfl⟩
  | tail _ step ih =>
    obtain ⟨change, -, rfl⟩ := step
    exact ⟨Nat.lt_of_lt_of_le ih.1 size_le_apply, (base?_apply_of_lt ih.1).trans ih.2⟩

/-- An assignment writes one entity: the nearest one that has the member, or else the entity itself.
-/
theorem Ordered.exists_written (ordered : a.Ordered) (inside : id < a.size) (name : String)
    (value : Value) : ∃ holder record,
      (a.Nearest id name holder ∨ (∀ other, ¬ a.Nearest id name other) ∧ holder = id) ∧
      a.record? holder = some record ∧
      (a.set id name value).record? holder =
        some { record with members := record.members.insert name value } ∧
      (∀ other ≠ holder, (a.set id name value).record? other = a.record? other) ∧
      ∀ other nearest, a.Nearest other name nearest → nearest ≠ holder →
        (a.set id name value).get? other name = a.get? other name := by
  have written := ordered.target_lt_size inside name
  have there : a.record? (a.target id name) = some a.records[a.target id name] :=
    Array.getElem?_eq_getElem written
  refine ⟨a.target id name, _, ordered.target_cases id name, there, ?_, fun other ne => ?_,
    fun other nearest isNearest ne => ordered.get?_set_of_nearest inside isNearest ne⟩
  · rw [set_eq, record?_define, if_pos rfl, there]
    rfl
  · rw [set_eq, record?_define, if_neg ne.symm]

/-- What holds of the entities of every arena. A base stands before the entities over it and is theirs
for good, so that every way up ends and each search on it comes to its answer. The names of an entity
are distinct, in the order of their first definition. A member is found in the nearest entity that
has it. An assignment writes that one, or else the entity itself, and no other one: the entity finds
the new value afterwards, and every member of another name or with another nearest holder is found
as before. -/
theorem Reached.prototype_law (reached : Reached definitions a) :
    (∀ id base, a.base? id = some base → base < id) ∧
    (∀ b, Relation.ReflTransGen Step a b → ∀ id < a.size, b.base? id = a.base? id) ∧
    (∀ id, a.Path (some id) (a.chain id)) ∧
    (∀ id name result,
      a.Search (fun holder => (a.own? holder name).map fun value => (holder, value)) (some id) result ↔
        result = a.find? id name) ∧
    (∀ id result, a.Search (fun holder => (a.record? holder).bind (·.host)) (some id) result ↔
      result = a.host? id) ∧
    (∀ id < a.size, ∀ other result,
      a.Search (fun other => if other = id then some () else none) (some other) result ↔
        result = if a.inChainOf id other then some () else none) ∧
    (∀ id, (a.names id).Nodup ∧ a.names id = firstNames definitions id) ∧
    (∀ id name value, a.get? id name = some value ↔
      ∃ holder, a.Nearest id name holder ∧ a.own? holder name = some value) ∧
    ∀ id < a.size, ∀ name value,
      (a.set id name value).get? id name = some value ∧
      (∀ other key, key ≠ name → (a.set id name value).get? other key = a.get? other key) ∧
      ∃ holder record,
        (a.Nearest id name holder ∨ (∀ other, ¬ a.Nearest id name other) ∧ holder = id) ∧
        a.record? holder = some record ∧
        (a.set id name value).record? holder =
          some { record with members := record.members.insert name value } ∧
        (∀ other ≠ holder, (a.set id name value).record? other = a.record? other) ∧
        ∀ other nearest, a.Nearest other name nearest → nearest ≠ holder →
          (a.set id name value).get? other name = a.get? other name := by
  have ordered := reached.ordered
  exact ⟨ordered, fun b steps id inside => (base?_of_steps steps inside).2, ordered.path_chain,
    ordered.search_find?, ordered.search_host?, fun id inside => ordered.search_inChainOf inside,
    fun id => ⟨a.nodup_names id, reached.names_eq id⟩,
    fun id name value => ordered.get?_eq_some_iff, fun id inside name value =>
      ⟨ordered.get?_set_self inside, fun other key ne => get?_set_of_ne ne other,
        ordered.exists_written inside name value⟩⟩

/-- A prototype with an age, and an entity over it with a name of its own. -/
def inherited : Arena :=
  ⟨#[⟨⟨⟨#[("age", .number 48)]⟩, by decide⟩, none, none⟩,
    ⟨⟨⟨#[("name", .string "son")]⟩, by decide⟩, some 0, none⟩]⟩

theorem reached_inherited : Reached [(0, "age"), (1, "name")] inherited := by
  have prototype := Reached.empty.change (.alloc none none) fun _ none => nomatch none
  have aged := prototype.change (.define 0 "age" (.number 48)) Nat.zero_lt_one
  have heir := aged.change (.alloc (some 0) none) fun _ same =>
    Option.some.inj same ▸ Nat.zero_lt_one
  have named := heir.change (.define 1 "name" (.string "son")) Nat.one_lt_two
  simpa [apply, alloc, define, modify, OrderedMap.insert, Rows.insert, Rows.position?,
    OrderedMap.empty, Rows.empty, empty, Change.definition?, inherited] using named

/-- When the heir is given another age, it finds that, and it is the prototype that holds it. -/
theorem prototype_law_of_inherited :
    Reached [(0, "age"), (1, "name")] inherited ∧
      (inherited.set 1 "age" (.number 50)).get? 1 "age" = some (.number 50) ∧
      (inherited.set 1 "age" (.number 50)).own? 0 "age" = some (.number 50) ∧
      (inherited.set 1 "age" (.number 50)).own? 1 "age" = none ∧
      (inherited.set 1 "age" (.number 50)).get? 1 "name" = inherited.get? 1 "name" := by
  obtain ⟨-, -, -, -, -, -, -, -, assigns⟩ := reached_inherited.prototype_law
  obtain ⟨found, others, -⟩ := assigns 1 Nat.one_lt_two "age" (.number 50)
  have holder : inherited.target 1 "age" = 0 := rfl
  refine ⟨reached_inherited, found, ?_, ?_, others 1 "name" (by decide)⟩
  · rw [set_eq, holder, own?_define Nat.zero_lt_two, if_pos ⟨rfl, rfl⟩]
  · rw [set_eq, holder, own?_define Nat.zero_lt_two, if_neg (by decide)]
    rfl

end ScriptEngine.Arena
