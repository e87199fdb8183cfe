import Mathlib.Data.Nat.Init
import ScriptEngine.Proofs.Store.Entities

/-!
# The way up a chain of bases

Where every base stands before the entities over it, the way up from an entity comes to an end, and
what is looked up on it is found or missed in finitely many steps.

* `Arena.Path`: the entities on the way up.
* `Arena.Search`: a loop that goes up and asks each entity, with nothing to bound its rounds.
* `Arena.Ordered.path_chain`: in an ordered arena `Arena.chain` is the whole way up.
* `Arena.Nearest`: the entity that a member is found in.
* `Arena.Ordered.find?_eq_some_iff`: looking up finds the nearest one.
-/

namespace ScriptEngine.Arena

variable {a : Arena} {start : Option Nat} {ids : List Nat} {id holder : Nat} {name : String}

/-! ## Paths -/

/-- The entities on the way up the chain of bases, to where there is no base any more or no such
entity. -/
inductive Path (a : Arena) : Option Nat → List Nat → Prop
  | ended : Path a none []
  | missing {id : Nat} : a.record? id = none → Path a (some id) []
  | upward {id : Nat} {record : EntityRecord} {ids : List Nat} :
    a.record? id = some record → Path a record.base ids → Path a (some id) (id :: ids)

/-- There is one way up only. -/
theorem Path.unique {others : List Nat} (path : a.Path start ids) (other : a.Path start others) :
    ids = others := by
  induction path generalizing others with
  | ended => cases other; rfl
  | missing absent =>
    cases other with
    | missing => rfl
    | upward there => cases absent.symm.trans there
  | upward there _ ih =>
    cases other with
    | missing absent => cases absent.symm.trans there
    | upward there' rest =>
      obtain rfl := Option.some.inj (there.symm.trans there')
      rw [ih rest]

/-- Fuel for each entity on the way is enough to follow it. -/
theorem Path.chainFrom_eq (path : a.Path start ids) {fuel : Nat} (enough : ids.length ≤ fuel) :
    a.chainFrom fuel start = ids := by
  induction path generalizing fuel with
  | ended => cases fuel <;> rfl
  | missing absent =>
    cases fuel with
    | zero => rfl
    | succ fuel => rw [chainFrom, absent]
  | upward there _ ih =>
    cases fuel with
    | zero => cases enough
    | succ fuel =>
      rw [chainFrom, there]
      exact congrArg _ (ih (Nat.le_of_succ_le_succ enough))

/-- Every entity on the way is there. -/
theorem Path.lt_size (path : a.Path start ids) : ∀ other ∈ ids, other < a.size := by
  induction path with
  | ended | missing => exact fun _ mem => absurd mem List.not_mem_nil
  | upward there _ ih =>
    intro other mem
    cases mem with
    | head => exact (Array.getElem?_eq_some_iff.mp there).1
    | tail _ mem => exact ih other mem

/-- The way up from an entity begins with it. -/
theorem Path.exists_cons (path : a.Path (some id) ids) (inside : id < a.size) :
    ∃ after, ids = id :: after := by
  cases path with
  | missing absent =>
    have outside : a.size ≤ id := Array.getElem?_eq_none_iff.mp absent
    omega
  | upward => exact ⟨_, rfl⟩

/-- From an entity on the way on, it is the way up from that entity. -/
theorem Path.behind {before after : List Nat} (path : a.Path start (before ++ holder :: after)) :
    a.Path (some holder) (holder :: after) := by
  induction before generalizing start with
  | nil =>
    cases path with
    | upward there rest => exact .upward there rest
  | cons first before ih =>
    cases path with
    | upward _ rest => exact ih rest

/-! ## Searches -/

/-- A search on the way up: each entity is asked, and the first answer is that of the search. -/
inductive Search {β : Type} (a : Arena) (answer? : Nat → Option β) : Option Nat → Option β → Prop
  | ended : Search a answer? none none
  | found {id : Nat} {answer : β} : answer? id = some answer →
    Search a answer? (some id) (some answer)
  | missing {id : Nat} : answer? id = none → a.record? id = none → Search a answer? (some id) none
  | upward {id : Nat} {record : EntityRecord} {result : Option β} : answer? id = none →
    a.record? id = some record → Search a answer? record.base result →
    Search a answer? (some id) result

/-- Where the way up is known, a search comes to an end, with the first answer on it. -/
theorem Path.search_iff {β : Type} {answer? : Nat → Option β} {result : Option β}
    (path : a.Path start ids) (silent : ∀ id, a.record? id = none → answer? id = none) :
    a.Search answer? start result ↔ result = ids.findSome? answer? := by
  constructor
  · intro search
    induction search generalizing ids with
    | ended => cases path; rfl
    | found answered =>
      cases path with
      | missing absent => cases (silent _ absent).symm.trans answered
      | upward => rw [List.findSome?_cons_of_isSome (by rw [answered]; rfl), answered]
    | missing _ absent =>
      cases path with
      | missing => rfl
      | upward there => cases absent.symm.trans there
    | upward quiet there _ ih =>
      cases path with
      | missing absent => cases absent.symm.trans there
      | upward there' rest =>
        obtain rfl := Option.some.inj (there.symm.trans there')
        rw [List.findSome?_cons, quiet]
        exact ih rest
  · rintro rfl
    induction path with
    | ended => exact .ended
    | missing absent => exact .missing (silent _ absent) absent
    | @upward id record ids there _ ih =>
      rw [List.findSome?_cons]
      cases answered : answer? id with
      | some answer => exact .found answered
      | none => exact .upward answered there ih

/-! ## Ordered arenas -/

/-- Every base stands before the entities over it. -/
def Ordered (a : Arena) : Prop := ∀ id base, a.base? id = some base → base < id

/-- So the way up comes to an end. -/
theorem Ordered.exists_path (ordered : a.Ordered) (id : Nat) :
    ∃ ids, a.Path (some id) ids ∧ ids.length ≤ id + 1 := by
  induction id using Nat.strongRecOn with
  | _ id ih =>
    cases there : a.record? id with
    | none => exact ⟨[], .missing there, Nat.zero_le _⟩
    | some record =>
      cases onto : record.base with
      | none => exact ⟨[id], .upward there (onto ▸ .ended), Nat.succ_le_succ (Nat.zero_le id)⟩
      | some base =>
        have before : base < id := ordered id base (by rw [base?, there]; exact onto)
        obtain ⟨ids, path, short⟩ := ih base before
        refine ⟨id :: ids, .upward there (onto ▸ path), ?_⟩
        rw [List.length_cons]
        omega

/-- The chain of bases is the whole way up: the fuel never cuts it short. -/
theorem Ordered.path_chain (ordered : a.Ordered) (id : Nat) : a.Path (some id) (a.chain id) := by
  obtain ⟨ids, path, short⟩ := ordered.exists_path id
  have enough : ids.length ≤ a.size := by
    cases path with
    | missing => exact Nat.zero_le _
    | upward there rest =>
      have inside : id < a.size := (Array.getElem?_eq_some_iff.mp there).1
      omega
  rwa [chain, path.chainFrom_eq enough]

/-- Looking up a member is a search for an entity that has it. -/
theorem Ordered.search_find? (ordered : a.Ordered) (id : Nat) (name : String)
    (result : Option (Nat × Value)) :
    a.Search (fun holder => (a.own? holder name).map fun value => (holder, value)) (some id) result ↔
      result = a.find? id name :=
  (ordered.path_chain id).search_iff fun holder absent => by rw [own?, absent]; rfl

/-- Looking up a host object is a search for an entity that has one. -/
theorem Ordered.search_host? (ordered : a.Ordered) (id : Nat) (result : Option HostRef) :
    a.Search (fun holder => (a.record? holder).bind (·.host)) (some id) result ↔
      result = a.host? id :=
  (ordered.path_chain id).search_iff fun holder absent => by rw [absent]; rfl

/-- An entity of the arena is in the chain of another one if it is on the way up from it. -/
theorem Ordered.inChainOf_iff (ordered : a.Ordered) (inside : id < a.size) (other : Nat) :
    a.inChainOf id other = true ↔ id ∈ a.chain other := by
  rw [inChainOf, Bool.or_eq_true, beq_iff_eq, List.contains_iff_mem]
  refine ⟨?_, .inr⟩
  rintro (rfl | mem)
  · obtain ⟨after, way⟩ := (ordered.path_chain id).exists_cons inside
    rw [way]
    exact List.mem_cons_self
  · exact mem

/-- A search for one entity finds it where it is. -/
theorem findSome?_ite (id : Nat) (ids : List Nat) :
    (ids.findSome? fun other => if other = id then some () else none) =
      if id ∈ ids then some () else none := by
  induction ids with
  | nil => rfl
  | cons other ids ih =>
    rw [List.findSome?_cons, ih]
    by_cases same : other = id
    · simp [same]
    · simp [same, Ne.symm same]

/-- Whether an entity is in the chain of another one is a search for it. -/
theorem Ordered.search_inChainOf (ordered : a.Ordered) (inside : id < a.size) (other : Nat)
    (result : Option Unit) :
    a.Search (fun other => if other = id then some () else none) (some other) result ↔
      result = if a.inChainOf id other then some () else none := by
  have silent : ∀ other, a.record? other = none → (if other = id then some () else none) = none := by
    intro other absent
    have outside : a.size ≤ other := Array.getElem?_eq_none_iff.mp absent
    exact if_neg (by omega)
  rw [(ordered.path_chain other).search_iff silent, findSome?_ite]
  simp only [ordered.inChainOf_iff inside]

/-! ## The nearest holder -/

/-- The nearest entity on the way up that has a member: those before it lack it. -/
def Nearest (a : Arena) (id : Nat) (name : String) (holder : Nat) : Prop :=
  ∃ before after, a.Path (some id) (before ++ holder :: after) ∧
    (∀ other ∈ before, a.own? other name = none) ∧ (a.own? holder name).isSome

/-- Looking up a member finds it in the nearest entity that has it. -/
theorem Ordered.find?_eq_some_iff (ordered : a.Ordered) {value : Value} :
    a.find? id name = some (holder, value) ↔
      a.Nearest id name holder ∧ a.own? holder name = some value := by
  rw [find?, List.findSome?_eq_some_iff]
  constructor
  · rintro ⟨before, found, after, way, has, lack⟩
    obtain ⟨_, own, same⟩ := Option.map_eq_some_iff.mp has
    obtain ⟨rfl, rfl⟩ := Prod.mk.inj same
    refine ⟨⟨before, after, way ▸ ordered.path_chain id, fun other mem => ?_, ?_⟩, own⟩
    · exact Option.map_eq_none_iff.mp (lack other mem)
    · rw [own]
      rfl
  · rintro ⟨⟨before, after, path, lack, -⟩, own⟩
    refine ⟨before, holder, after, (ordered.path_chain id).unique path, ?_, fun other mem => ?_⟩
    · rw [own]
      rfl
    · rw [lack other mem]
      rfl

/-- The value of a member is that in the nearest entity that has it. -/
theorem Ordered.get?_eq_some_iff (ordered : a.Ordered) {value : Value} :
    a.get? id name = some value ↔
      ∃ holder, a.Nearest id name holder ∧ a.own? holder name = some value := by
  rw [get?, Option.map_eq_some_iff]
  constructor
  · rintro ⟨⟨holder, _⟩, found, rfl⟩
    exact ⟨holder, ordered.find?_eq_some_iff.mp found⟩
  · rintro ⟨holder, nearest⟩
    exact ⟨(holder, value), ordered.find?_eq_some_iff.mpr nearest, rfl⟩

/-- What is found nowhere has no nearest holder. -/
theorem Ordered.find?_eq_none_iff (ordered : a.Ordered) :
    a.find? id name = none ↔ ∀ holder, ¬ a.Nearest id name holder := by
  constructor
  · intro none holder nearest
    obtain ⟨value, own⟩ := Option.isSome_iff_exists.mp nearest.choose_spec.choose_spec.2.2
    cases none.symm.trans (ordered.find?_eq_some_iff.mpr ⟨nearest, own⟩)
  · intro nowhere
    cases found : a.find? id name with
    | none => rfl
    | some pair => exact absurd (ordered.find?_eq_some_iff.mp found).1 (nowhere pair.1)

end ScriptEngine.Arena
