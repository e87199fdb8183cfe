import ScriptEngine.Proofs.OrderedMap
import ScriptEngine.Store.Equality

/-!
# Members with other values

An entity may get another value for a member. Which entities are related does not depend on that, nor
do the members of other entities, nor what a pattern finds that does not get as far as the entity.

* `Store.HasEntity`: an entity that is there; `Store.hasEntity_newEntity`: one that has been made.
* `Store.holder?`: the entity that has a member, itself or one of the bases behind it.
* `Store.related_define`, `Store.members_define`: what stays as it is.
* `Store.Reaches`: taking a value apart by position may get as far as an entity.
* `Store.bindPattern_define`: a pattern does not depend on what it does not reach.
-/

namespace ScriptEngine

namespace Arena

variable {a : Arena} {holder id : Nat} {name : String} {value : Value}

/-- No chain begins with an entity that is not there. -/
theorem chain_eq_nil_of_size_le (beyond : a.size ≤ id) : a.chain id = [] := by
  have missing : a.record? id = none := Array.getElem?_eq_none beyond
  rw [chain]
  cases a.size with
  | zero => rfl
  | succ fuel => rw [chainFrom, missing]

/-- An entity has members only if it is there. -/
theorem lt_size_of_get? (found : a.get? id name = some value) : id < a.size := by
  refine Nat.lt_of_not_le fun beyond => ?_
  rw [get?, find?, chain_eq_nil_of_size_le beyond] at found
  cases found

theorem size_alloc (base : Option Nat) : (a.alloc base).2.size = a.size + 1 := Array.size_push _

theorem size_attachHost (holder : Nat) (host : HostRef) : (a.attachHost holder host).size = a.size :=
  Array.size_modify

theorem size_define : (a.define holder name value).size = a.size :=
  Array.size_modify

theorem record?_define : (a.define holder name value).record? id =
    if holder = id then
      (a.record? id).map fun record => { record with members := record.members.insert name value }
    else a.record? id := by
  show (a.records.modify holder _)[id]? = _
  rw [Array.getElem?_modify]
  rfl

theorem chainFrom_define (fuel : Nat) (start : Option Nat) :
    (a.define holder name value).chainFrom fuel start = a.chainFrom fuel start := by
  induction fuel generalizing start with
  | zero => rfl
  | succ fuel ih =>
    cases start with
    | none => rfl
    | some id =>
      unfold chainFrom
      rw [record?_define]
      by_cases same : holder = id
      · rw [if_pos same]
        cases a.record? id with
        | none => rfl
        | some record => exact congrArg _ (ih record.base)
      · rw [if_neg same]
        cases a.record? id with
        | none => rfl
        | some record => exact congrArg _ (ih record.base)

/-- The chain of bases does not depend on the values of members. -/
theorem chain_define : (a.define holder name value).chain id = a.chain id := by
  rw [chain, chain, size_define, chainFrom_define]

theorem related_define (other : Nat) :
    (a.define holder name value).related id other = a.related id other := by
  simp only [related, inChainOf, chain_define]

/-- The members of other entities stay as they are. -/
theorem members_define_of_ne (apart : holder ≠ id) :
    (a.define holder name value).members id = a.members id := by
  rw [members, members, record?_define, if_neg apart]

/-- A member that is there gets another value in its place. -/
theorem members_define (own : (a.own? id name).isSome) : ∃ position : Nat,
    (a.members id)[position]?.map (·.1) = some name ∧
      (a.define id name value).members id = (a.members id).set position (name, value) := by
  obtain ⟨old, own⟩ := Option.isSome_iff_exists.mp own
  obtain ⟨record, there, has⟩ := Option.bind_eq_some_iff.mp own
  have isKey : name ∈ record.members.entries.map (·.1) := by
    obtain ⟨row, found, -⟩ := Option.map_eq_some_iff.mp has
    have same : row.1 = name := by simpa using Array.find?_some found
    exact List.mem_map.mpr ⟨row, Array.mem_toList_iff.mpr (Array.mem_of_find?_eq_some found), same⟩
  cases found : record.members.position? name with
  | none => exact absurd isKey (Rows.position?_eq_none_iff.mp found)
  | some position =>
    refine ⟨position, ?_, ?_⟩
    · rw [members, there]
      exact Rows.key_of_position? found
    · rw [members, members, record?_define, if_pos rfl, there]
      exact Rows.entries_insert_of_position? value found

end Arena

namespace Store

/-- The entity that has a member of an entity: itself, or one of the bases behind it. -/
def holder? (s : Store) (entity : EntityRef) (name : String) : Option EntityRef :=
  ((s.arena entity.env).find? entity.id name).map fun found => ⟨entity.env, found.1⟩

variable {s : Store} {holder entity : EntityRef} {name : String} {value : Value}

/-- An entity is there. -/
def HasEntity (s : Store) (entity : EntityRef) : Prop := entity.id < (s.arena entity.env).size

theorem hasEntity_of_member? (found : s.member? entity name = some value) : s.HasEntity entity :=
  Arena.lt_size_of_get? found

theorem arena_modifyArena (env other : EnvId) (f : Arena → Arena) :
    (s.modifyArena env f).arena other =
      if env = other ∧ env < s.arenas.size then f (s.arena other) else s.arena other := by
  simp only [arena, modifyArena, Array.getD_eq_getD_getElem?, Array.getElem?_modify]
  by_cases same : env = other
  · subst same
    by_cases there : env < s.arenas.size
    · simp [there]
    · simp [there]
  · simp [same]

/-- A change of entities that leaves all of them there. -/
theorem size_arena_modifyArena {env : EnvId} {f : Arena → Arena}
    (grows : ∀ a : Arena, a.size ≤ (f a).size) (other : EnvId) :
    (s.arena other).size ≤ ((s.modifyArena env f).arena other).size := by
  rw [arena_modifyArena]
  split
  · exact grows _
  · exact Nat.le_refl _

/-- Opening an arena makes no entity. -/
theorem arena_openArena (env other : EnvId) : (s.openArena env).arena other = s.arena other := by
  simp only [arena, openArena, Array.getD_eq_getD_getElem?, Array.getElem?_append,
    Array.getElem?_replicate]
  split
  · rfl
  · next beyond =>
    rw [Array.getElem?_eq_none (Nat.le_of_not_lt beyond)]
    split <;> rfl

/-- An entity that has been made is there. -/
theorem hasEntity_newEntity (env : EnvId) (base : Option Nat) :
    (s.newEntity env base).2.HasEntity (s.newEntity env base).1 := by
  have opened : env < (s.openArena env).arenas.size := by
    show env < (s.arenas ++ Array.replicate (env + 1 - s.arenas.size) Arena.empty).size
    rw [Array.size_append, Array.size_replicate]
    exact Nat.sub_le_iff_le_add'.mp (Nat.le_refl _)
  show (s.arena env).size < (((s.openArena env).modifyArena env _).arena env).size
  rw [arena_modifyArena, if_pos ⟨rfl, opened⟩, arena_openArena, Arena.size_alloc]
  exact Nat.lt_succ_self _

/-- Making an entity leaves the others there. -/
theorem size_arena_newEntity (env : EnvId) (base : Option Nat) (other : EnvId) :
    (s.arena other).size ≤ ((s.newEntity env base).2.arena other).size := by
  have grows (a : Arena) : a.size ≤ (a.alloc base).2.size := a.size_alloc base ▸ Nat.le_succ _
  exact arena_openArena env other ▸ size_arena_modifyArena grows other

/-- That entity has it itself. -/
theorem own_of_holder? (found : s.holder? entity name = some holder) :
    ((s.arena holder.env).own? holder.id name).isSome := by
  obtain ⟨⟨id, value⟩, isFound, rfl⟩ := Option.map_eq_some_iff.mp found
  obtain ⟨other, -, own⟩ := List.exists_of_findSome?_eq_some isFound
  obtain ⟨old, has, same⟩ := Option.map_eq_some_iff.mp own
  obtain ⟨rfl, rfl⟩ := Prod.mk.inj same
  exact Option.isSome_iff_exists.mpr ⟨old, has⟩

theorem arena_define (env : EnvId) : (s.define holder name value).arena env =
    if holder.env = env then (s.arena env).define holder.id name value else s.arena env := by
  show (s.arenas.modify holder.env _).getD env .empty = _
  rw [arena, Array.getD_eq_getD_getElem?, Array.getD_eq_getD_getElem?, Array.getElem?_modify]
  split
  · cases s.arenas[env]? <;> rfl
  · rfl

/-- Whoever is there stays there when members are defined. -/
theorem size_arena_define (env : EnvId) :
    (s.arena env).size ≤ ((s.define holder name value).arena env).size :=
  size_arena_modifyArena (fun _ => Nat.le_of_eq Arena.size_define.symm) env

theorem size_arena_setMember (env : EnvId) :
    (s.arena env).size ≤ ((s.setMember entity name value).arena env).size :=
  size_arena_modifyArena (fun _ => Nat.le_of_eq Arena.size_define.symm) env

/-- Who is related does not depend on the values of members. -/
theorem related_define (a b : EntityRef) :
    (s.define holder name value).related a b = s.related a b := by
  rw [related, related, arena_define]
  split
  · rw [Arena.related_define]
  · rfl

theorem members_define_of_ne (apart : holder ≠ entity) :
    (s.define holder name value).members entity = s.members entity := by
  rw [members, members, arena_define]
  split
  · next same =>
    refine Arena.members_define_of_ne fun sameId => apart ?_
    obtain ⟨env, id⟩ := entity
    obtain ⟨_, _⟩ := holder
    cases same
    cases sameId
    rfl
  · rfl

/-- A member that is there gets another value in its place. -/
theorem members_define (value : Value) (own : ((s.arena holder.env).own? holder.id name).isSome) :
    ∃ position : Nat, (s.members holder)[position]?.map (·.1) = some name ∧
      (s.define holder name value).members holder =
        (s.members holder).set position (name, value) := by
  rw [members, members, arena_define, if_pos rfl]
  exact Arena.members_define own

theorem length_members_define (own : ((s.arena holder.env).own? holder.id name).isSome) :
    ((s.define holder name value).members entity).length = (s.members entity).length := by
  by_cases same : holder = entity
  · subst same
    obtain ⟨position, -, changed⟩ := members_define value own
    rw [changed, List.length_set]
  · rw [members_define_of_ne same]

/-- Where another member stands, nothing changes. -/
theorem getElem?_members_define (own : ((s.arena holder.env).own? holder.id name).isSome)
    {index : Nat} (other : ¬ (holder = entity ∧ (s.members entity)[index]?.map (·.1) = some name)) :
    ((s.define holder name value).members entity)[index]? = (s.members entity)[index]? := by
  by_cases same : holder = entity
  · subst same
    obtain ⟨position, here, changed⟩ := members_define value own
    have apart : position ≠ index := fun same => other ⟨rfl, same ▸ here⟩
    rw [changed, List.getElem?_set_ne apart]
  · rw [members_define_of_ne same]

/-- Taking a value apart by position, and its items in turn, may get as far as an entity. -/
inductive Reaches (s : Store) (holder : EntityRef) : Value → Prop
  | here : Reaches s holder (.entity holder)
  | inside {value item : Value} {items : List Value} : s.positional? value = some items →
      item ∈ items → Reaches s holder item → Reaches s holder value

/-- The items of a value that does not reach an entity do not depend on its members. -/
theorem positional?_define {object : Value} (apart : ¬ s.Reaches holder object) :
    (s.define holder name value).positional? object = s.positional? object := by
  cases object with
  | entity entity =>
    have other : holder ≠ entity := fun same => apart (same ▸ .here)
    simp only [positional?, members_define_of_ne other]
  | _ => rfl

/-- Whether a literal is equal to a value does not depend on the store. -/
theorem equals_literal (s s' : Store) (literal : Literal) (object : Value) :
    s.equals (.ofLiteral literal) object = s'.equals (.ofLiteral literal) object := by
  cases literal <;> cases object <;> simp only [equals, Value.ofLiteral, sameFrom]

mutual

/-- A pattern does not depend on the members of an entity that taking a value apart does not reach. -/
theorem bindPattern_define (p : Pattern) {object : Value} (apart : ¬ s.Reaches holder object) :
    (s.define holder name value).bindPattern p object = s.bindPattern p object := by
  match p with
  | .wildcard | .rest | .bind _ => rfl
  | .literal literal => rw [bindPattern, bindPattern, equals_literal]
  | .tuple items =>
    rw [bindPattern, bindPattern, positional?_define apart]
    cases parts : s.positional? object with
    | none => rfl
    | some elements =>
      exact bindSequence_define items fun item mem reaches => apart (.inside parts mem reaches)
  | .array items =>
    cases object with
    | array _ | tuple _ =>
      rw [bindPattern, bindPattern, positional?_define apart]
      split
      · next elements parts =>
        exact bindSequence_define items fun item mem reaches => apart (.inside parts mem reaches)
      · rfl
    | _ => rfl

theorem bindSequence_define (items : List Pattern) {elements : List Value}
    (apart : ∀ element ∈ elements, ¬ s.Reaches holder element) :
    (s.define holder name value).bindSequence items elements = s.bindSequence items elements := by
  match items, elements with
  | [], [] | [], _ :: _ => rfl
  | item :: items, elements =>
    unfold bindSequence
    split
    · rfl
    · rfl
    · next same =>
      cases same
      rw [bindEach_define items fun element mem => apart element (List.mem_of_mem_drop mem)]
    · rfl
    · next same =>
      cases same
      rw [bindPattern_define item (apart _ List.mem_cons_self),
        bindSequence_define items fun element mem => apart element (List.mem_cons_of_mem _ mem)]

theorem bindEach_define (items : List Pattern) {elements : List Value}
    (apart : ∀ element ∈ elements, ¬ s.Reaches holder element) :
    (s.define holder name value).bindEach items elements = s.bindEach items elements := by
  match items, elements with
  | [], [] | [], _ :: _ | _ :: _, [] => rfl
  | item :: items, element :: elements =>
    rw [bindEach, bindEach, bindPattern_define item (apart _ List.mem_cons_self),
      bindEach_define items fun element mem => apart element (List.mem_cons_of_mem _ mem)]

end

end Store

end ScriptEngine
