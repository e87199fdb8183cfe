import ScriptEngine.Proofs.Scope.Names

/-!
# The declarations of a table

What a table says of a scope is the scope around it, what it belongs to, and what each name stands
for in it. All that is looked up can be told from these.

* `ScopeTable.held?`, `ScopeTable.kind?`: the declaration of a name in a scope, and what a scope
  belongs to.
* `ScopeTable.Within`: a scope is another one or stands inside it.
* `ScopeTable.Rooted`: every scope but the root stands in an earlier one.
* `ScopeTable.SameShape`: tables with the same scopes, whatever these declare.
* `ScopeTable.within_of_search`, `ScopeTable.within_found_of_search`, `ScopeTable.eq_none_of_search`:
  what is found is the nearest outwards, and what is not found is nowhere outwards.
* `ScopeTable.Alike`: tables with the same declarations.
* `ScopeTable.lookup_or_root`: where a name is looked up in two tables of one shape.
* `ScopeTable.Appends`: a table that has been appended to.
-/

namespace ScriptEngine

/-- A declaration takes the place of one of the same name. -/
theorem Scope.get?_insert (s : Scope) (entry : SymbolEntry) (name : String) :
    (s.insert entry).get? name = if entry.name = name then some entry else s.get? name := by
  unfold insert
  split
  · next there =>
    obtain ⟨old, found⟩ := Option.isSome_iff_exists.mp there
    simp only [get?, List.find?_map]
    by_cases same : entry.name = name
    · subst same
      rw [if_pos rfl]
      have kept : (fun old => old.name == entry.name) ∘
          (fun old => if old.name == entry.name then entry else old) =
            fun old : SymbolEntry => old.name == entry.name := by
        funext old
        by_cases h : old.name = entry.name <;> simp [h]
      rw [get?] at found
      rw [kept, found, Option.map_some, if_pos (List.find?_some found)]
    · rw [if_neg same]
      have kept : (fun old => old.name == name) ∘
          (fun old => if old.name == entry.name then entry else old) =
            fun old : SymbolEntry => old.name == name := by
        funext old
        by_cases h : old.name = entry.name <;> simp [h]
      rw [kept]
      cases other : s.entries.find? fun old => old.name == name with
      | none => rfl
      | some old =>
        have named : old.name = name := by simpa using List.find?_some other
        rw [Option.map_some, if_neg]
        simpa [named] using fun h => same h.symm
  · next new =>
    simp only [get?, List.find?_append, List.find?_singleton]
    by_cases same : entry.name = name
    · subst same
      have none : s.get? entry.name = none := by simpa using new
      rw [get?] at none
      simp [none]
    · simp [same]

namespace ScopeTable

variable {t t' : ScopeTable} {id other : ScopeId} {entry : SymbolEntry} {name : String}

/-- The declaration of a name in a scope. -/
def held? (t : ScopeTable) (id : ScopeId) (name : String) : Option SymbolEntry :=
  (t.scope? id).bind (·.get? name)

/-- What a scope belongs to. -/
def kind? (t : ScopeTable) (id : ScopeId) : Option ScopeKind := (t.scope? id).map (·.kind)

/-- A scope is another one or stands inside it. -/
inductive Within (t : ScopeTable) : ScopeId → ScopeId → Prop
  | refl (id : ScopeId) : Within t id id
  | step {id parent outer : ScopeId} :
    t.parent? id = some parent → Within t parent outer → Within t id outer

/-- Every scope but the root stands in an earlier one. -/
structure Rooted (t : ScopeTable) : Prop where
  earlier : ∀ {id parent : ScopeId}, t.parent? id = some parent → parent < id
  inside : ∀ {id : ScopeId}, id < t.size → id ≠ root → ∃ parent, t.parent? id = some parent

/-- Tables with the same scopes, whatever these declare. -/
structure SameShape (t t' : ScopeTable) : Prop where
  size : t'.size = t.size
  parent? : ∀ id, t'.parent? id = t.parent? id
  kind? : ∀ id, t'.kind? id = t.kind? id

theorem SameShape.refl (t : ScopeTable) : t.SameShape t := ⟨rfl, fun _ => rfl, fun _ => rfl⟩

theorem SameShape.symm (h : t.SameShape t') : t'.SameShape t :=
  ⟨h.size.symm, fun id => (h.parent? id).symm, fun id => (h.kind? id).symm⟩

theorem SameShape.trans {t'' : ScopeTable} (h : t.SameShape t') (h' : t'.SameShape t'') :
    t.SameShape t'' :=
  ⟨h'.size.trans h.size, fun id => (h'.parent? id).trans (h.parent? id),
    fun id => (h'.kind? id).trans (h.kind? id)⟩

theorem Within.trans {inner outer : ScopeId} (h : t.Within inner id) (h' : t.Within id outer) :
    t.Within inner outer := by
  induction h with
  | refl => exact h'
  | step outward _ ih => exact .step outward (ih h')

/-- The same scopes stand inside one another in tables of one shape. -/
theorem SameShape.rooted (h : t.SameShape t') (rooted : t.Rooted) : t'.Rooted where
  earlier found := rooted.earlier ((h.parent? _).symm.trans found)
  inside there apart := by
    obtain ⟨parent, found⟩ := rooted.inside (Nat.lt_of_lt_of_eq there h.size) apart
    exact ⟨parent, (h.parent? _).trans found⟩

theorem scope?_eq_none_iff : t.scope? id = none ↔ t.size ≤ id := by simp [scope?, size]

theorem lt_size_of_held? (h : t.held? id name = some entry) : id < t.size := by
  obtain ⟨scope, there, -⟩ := Option.bind_eq_some_iff.mp h
  exact (Array.getElem?_eq_some_iff.mp there).1

/-- A declaration bears the name that it is found by. -/
theorem name_of_held? (h : t.held? id name = some entry) : entry.name = name := by
  obtain ⟨scope, -, got⟩ := Option.bind_eq_some_iff.mp h
  simpa using List.find?_some got

/-! ### Changes -/

/-- A scope that is changed in its declarations alone keeps its place. -/
theorem sameShape_modify {f : Scope → Scope} (parent : ∀ s, (f s).parent = s.parent)
    (kind : ∀ s, (f s).kind = s.kind) : t.SameShape (t.modify id f) where
  size := size_modify f
  parent? other := by
    rw [ScopeTable.parent?, scope?_modify, ScopeTable.parent?]
    split
    · cases t.scope? other <;> simp [parent]
    · rfl
  kind? other := by
    rw [ScopeTable.kind?, scope?_modify, ScopeTable.kind?]
    split
    · cases t.scope? other <;> simp [kind]
    · rfl

theorem sameShape_define : t.SameShape (t.define id entry) :=
  sameShape_modify (fun s => by unfold Scope.insert; split <;> rfl)
    fun s => by unfold Scope.insert; split <;> rfl

/-- A definition is what its name stands for in its scope. -/
theorem held?_define : (t.define id entry).held? other name =
    if id = other ∧ entry.name = name ∧ id < t.size then some entry else t.held? other name := by
  rw [held?, define, scope?_modify]
  by_cases same : id = other
  · subst same
    rw [if_pos rfl]
    by_cases there : id < t.size
    · have found : t.scope? id = some t.scopes[id] := Array.getElem?_eq_getElem there
      rw [held?, found, Option.map_some, Option.bind_some, Option.bind_some, Scope.get?_insert]
      simp [there]
    · rw [held?, scope?_eq_none_iff.mpr (Nat.le_of_not_lt there)]
      simp [there]
  · rw [if_neg same, if_neg fun all => same all.1, held?]

/-- A declaration is of a name that its scope did not hold. -/
theorem declare_eq_ok (h : t.declare id entry = .ok t') :
    t.held? id entry.name = none ∧ t' = t.define id entry := by
  unfold declare at h
  split at h
  · cases h
  · next none => exact ⟨none, (Except.ok.inj h).symm⟩

/-- A name that its scope does not hold can be declared. -/
theorem declare_of_none (h : t.held? id entry.name = none) :
    t.declare id entry = .ok (t.define id entry) := by
  unfold declare
  rw [held?] at h
  rw [h]
  rfl

theorem parent?_push {parent : ScopeId} {kind : ScopeKind} :
    (t.push parent kind).2.parent? id = if id = t.size then some parent else t.parent? id := by
  simp only [parent?, scope?, push, Array.getElem?_push, size]
  split
  · next same => simp [same]
  · next apart => simp [apart]

theorem kind?_push {parent : ScopeId} {kind : ScopeKind} :
    (t.push parent kind).2.kind? id = if id = t.size then some kind else t.kind? id := by
  simp only [kind?, scope?, push, Array.getElem?_push, size]
  split
  · next same => simp [same]
  · next apart => simp [apart]

theorem SameShape.push (h : t.SameShape t') (parent : ScopeId) (kind : ScopeKind) :
    (t.push parent kind).2.SameShape (t'.push parent kind).2 where
  size := by rw [size_push, size_push, h.size]
  parent? id := by rw [parent?_push, parent?_push, h.size, h.parent?]
  kind? id := by rw [kind?_push, kind?_push, h.size, h.kind?]

/-- A new scope holds nothing. -/
theorem held?_push {parent : ScopeId} {kind : ScopeKind} :
    (t.push parent kind).2.held? id name = t.held? id name := by
  simp only [held?, scope?, push, Array.getElem?_push]
  split
  · next same => simp [same, Scope.get?]
  · rfl

/-- A scope inside one that is there leaves the table rooted. -/
theorem Rooted.push {parent : ScopeId} {kind : ScopeKind} (h : t.Rooted) (there : parent < t.size) :
    (t.push parent kind).2.Rooted where
  earlier found := by
    rw [parent?_push] at found
    split at found
    · next same => exact same ▸ Option.some.inj found ▸ there
    · exact h.earlier found
  inside := by
    intro id inside apart
    rw [parent?_push]
    split
    · exact ⟨parent, rfl⟩
    · next old =>
      rw [size_push] at inside
      exact h.inside (Nat.lt_of_le_of_ne (Nat.le_of_lt_succ inside) old) apart

/-! ### What is found outwards -/

/-- What a search finds stands in a scope outwards. -/
theorem within_of_search {α : Type} {f : Scope → Option α} {fuel : Nat} {found : ScopeId} {a : α}
    (h : t.search f fuel id = some (found, a)) :
    t.Within id found ∧ (t.scope? found).bind f = some a := by
  induction fuel generalizing id with
  | zero => cases h
  | succ fuel ih =>
    rw [search] at h
    obtain ⟨scope, there, h⟩ := Option.bind_eq_some_iff.mp h
    cases answer : f scope with
    | some b =>
      rw [answer] at h
      obtain ⟨rfl, rfl⟩ := Prod.mk.inj (Option.some.inj h)
      exact ⟨.refl _, by rw [there, Option.bind_some, answer]⟩
    | none =>
      rw [answer] at h
      obtain ⟨parent, outward, h⟩ := Option.bind_eq_some_iff.mp h
      obtain ⟨within, holds⟩ := ih h
      exact ⟨.step (by rw [parent?, there, Option.bind_some, outward]) within, holds⟩

/-- A search that finds nothing has asked all scopes outwards. -/
theorem eq_none_of_search {α : Type} {f : Scope → Option α} {fuel : Nat} {outer : ScopeId}
    (rooted : t.Rooted) (enough : id < fuel) (h : t.search f fuel id = none)
    (within : t.Within id outer) : (t.scope? outer).bind f = none := by
  induction within generalizing fuel with
  | refl id =>
    obtain ⟨fuel, rfl⟩ := Nat.exists_eq_add_one_of_ne_zero (Nat.ne_zero_of_lt enough)
    cases there : t.scope? id with
    | none => rfl
    | some scope =>
      rw [search, there] at h
      cases answer : f scope with
      | none => rw [Option.bind_some, answer]
      | some b => simp [answer] at h
  | @step id parent outer outward _ ih =>
    have lower := rooted.earlier outward
    obtain ⟨fuel, rfl⟩ := Nat.exists_eq_add_one_of_ne_zero (Nat.ne_zero_of_lt enough)
    obtain ⟨scope, there, around⟩ := Option.bind_eq_some_iff.mp outward
    rw [search, there] at h
    refine ih (Nat.lt_of_lt_of_le lower (Nat.le_of_lt_succ enough)) ?_
    cases answer : f scope with
    | none => simpa [answer, around] using h
    | some b => simp [answer] at h

/-- What is found stands inside whatever else could be found outwards. -/
theorem within_found_of_search {α : Type} {f : Scope → Option α} {fuel : Nat}
    {found outer : ScopeId} {a : α} (rooted : t.Rooted) (enough : id < fuel)
    (h : t.search f fuel id = some (found, a)) (within : t.Within id outer)
    (other : ((t.scope? outer).bind f).isSome) : t.Within found outer := by
  induction within generalizing fuel with
  | refl id =>
    obtain ⟨fuel, rfl⟩ := Nat.exists_eq_add_one_of_ne_zero (Nat.ne_zero_of_lt enough)
    obtain ⟨b, answer⟩ := Option.isSome_iff_exists.mp other
    obtain ⟨scope, there, answer⟩ := Option.bind_eq_some_iff.mp answer
    simp only [search, there, Option.bind_eq_bind, Option.bind_some, answer] at h
    cases h
    exact .refl _
  | @step id parent outer outward within ih =>
    have lower := rooted.earlier outward
    obtain ⟨fuel, rfl⟩ := Nat.exists_eq_add_one_of_ne_zero (Nat.ne_zero_of_lt enough)
    obtain ⟨scope, there, around⟩ := Option.bind_eq_some_iff.mp outward
    rw [search, there] at h
    cases answer : f scope with
    | some b =>
      simp only [Option.bind_eq_bind, Option.bind_some, answer] at h
      cases h
      exact .step outward within
    | none =>
      refine ih (Nat.lt_of_lt_of_le lower (Nat.le_of_lt_succ enough)) ?_ other
      simpa [answer, around] using h

/-- Every scope stands in the root. -/
theorem Rooted.within_root (h : t.Rooted) (there : id < t.size) : t.Within id root := by
  induction id using Nat.strongRecOn with
  | _ id ih =>
    by_cases same : id = root
    · exact same ▸ .refl _
    · obtain ⟨parent, outward⟩ := h.inside there same
      have lower := h.earlier outward
      exact .step outward (ih parent lower (Nat.lt_trans lower there))

/-- Outwards of a scope stand scopes only. -/
theorem Rooted.lt_size_of_within (h : t.Rooted) {outer : ScopeId} (there : id < t.size)
    (within : t.Within id outer) : outer < t.size := by
  induction within with
  | refl => exact there
  | step outward _ ih => exact ih (Nat.lt_trans (h.earlier outward) there)

/-- What a name means stands in a scope outwards. -/
theorem lookup_eq_some {found : ScopeId} (h : t.lookup id name = some (found, entry)) :
    t.Within id found ∧ t.held? found name = some entry :=
  within_of_search h

/-- It stands inside whatever other scope holds the name outwards. -/
theorem within_of_lookup {found outer : ScopeId} (rooted : t.Rooted) (there : id < t.size)
    (h : t.lookup id name = some (found, entry)) (within : t.Within id outer)
    (holds : (t.held? outer name).isSome) : t.Within found outer :=
  within_found_of_search rooted there h within holds

/-- A name without a meaning is declared nowhere outwards. -/
theorem held?_of_lookup_eq_none {outer : ScopeId} (rooted : t.Rooted) (there : id < t.size)
    (h : t.lookup id name = none) (within : t.Within id outer) : t.held? outer name = none :=
  eq_none_of_search rooted there h within

/-- The nearest scope of a kind stands outwards, if there is one. -/
theorem exists_enclosing {kind : ScopeKind} {outer : ScopeId} (rooted : t.Rooted)
    (there : id < t.size) (within : t.Within id outer) (ofKind : t.kind? outer = some kind) :
    ∃ found, t.enclosing id kind = some found ∧ t.Within id found ∧
      t.kind? found = some kind := by
  rw [enclosing]
  cases search : t.search (fun scope => if scope.kind = kind then some () else none) t.size id with
  | none =>
    have none := eq_none_of_search rooted there search within
    obtain ⟨scope, found, rfl⟩ := Option.map_eq_some_iff.mp ofKind
    simp [found] at none
  | some result =>
    obtain ⟨found, _⟩ := result
    obtain ⟨outwards, holds⟩ := within_of_search search
    obtain ⟨scope, found', holds⟩ := Option.bind_eq_some_iff.mp holds
    refine ⟨found, rfl, outwards, ?_⟩
    rw [kind?, found', Option.map_some]
    split at holds
    · next same => rw [same]
    · cases holds

/-- In tables of one shape that hold a name in the same scopes but the root, the name is found in one
scope of both, or looked for in the root. -/
theorem lookup_or_root (shape : t.SameShape t') (rooted : t.Rooted) (there : id < t.size)
    (agree : ∀ id, id ≠ root → (t.held? id name).isSome = (t'.held? id name).isSome) :
    (∃ found entry entry', found ≠ root ∧ t.held? found name = some entry ∧
      t'.held? found name = some entry' ∧ t.lookup id name = some (found, entry) ∧
        t'.lookup id name = some (found, entry')) ∨
      t.lookup id name = (t.held? root name).map (root, ·) ∧
        t'.lookup id name = (t'.held? root name).map (root, ·) := by
  simp only [lookup, shape.size]
  generalize fueled : t.size = fuel
  have enough : id < fuel := fueled ▸ there
  clear fueled
  induction fuel generalizing id with
  | zero => exact absurd enough (Nat.not_lt_zero _)
  | succ fuel ih =>
    obtain ⟨scope, found⟩ : ∃ scope, t.scope? id = some scope :=
      ⟨_, Array.getElem?_eq_getElem there⟩
    obtain ⟨scope', found'⟩ : ∃ scope, t'.scope? id = some scope :=
      ⟨_, Array.getElem?_eq_getElem (Nat.lt_of_lt_of_eq there shape.size.symm)⟩
    have held : t.held? id name = scope.get? name := by rw [held?, found, Option.bind_some]
    have held' : t'.held? id name = scope'.get? name := by rw [held?, found', Option.bind_some]
    have around : scope'.parent = scope.parent := by
      simpa [parent?, found, found'] using shape.parent? id
    rw [search, search, found, found']
    by_cases same : id = root
    · subst same
      have top : scope.parent = none := by
        cases outward : scope.parent with
        | none => rfl
        | some parent =>
          have above : t.parent? root = some parent := by
            rw [parent?, found, Option.bind_some, outward]
          exact absurd (rooted.earlier above) (Nat.not_lt_zero _)
      rw [held, held']
      refine .inr ⟨?_, ?_⟩
      · cases got : scope.get? name <;> simp [top, got]
      · cases got : scope'.get? name <;> simp [around, top, got]
    · have agrees := agree id same
      rw [held, held'] at agrees
      cases got : scope.get? name with
      | some entry =>
        rw [got, Option.isSome_some] at agrees
        obtain ⟨entry', got'⟩ := Option.isSome_iff_exists.mp agrees.symm
        exact .inl ⟨id, entry, entry', same, held.trans got, held'.trans got', by simp [got],
          by simp [got']⟩
      | none =>
        rw [got, Option.isSome_none] at agrees
        have got' : scope'.get? name = none := by simpa using agrees.symm
        obtain ⟨parent, outward⟩ := rooted.inside there same
        have lower := rooted.earlier outward
        have inParent : scope.parent = some parent := by
          rwa [parent?, found, Option.bind_some] at outward
        simpa [got, got', inParent, around] using
          ih (Nat.lt_trans lower there) (Nat.lt_of_lt_of_le lower (Nat.le_of_lt_succ enough))

/-- The nearest scope of a kind does not depend on what is declared. -/
theorem SameShape.enclosing (shape : t.SameShape t') (id : ScopeId) (kind : ScopeKind) :
    t'.enclosing id kind = t.enclosing id kind := by
  simp only [ScopeTable.enclosing, shape.size]
  congr 1
  generalize t.size = fuel
  induction fuel generalizing id with
  | zero => rfl
  | succ fuel ih =>
    have sameKind := shape.kind? id
    have sameParent := shape.parent? id
    rw [search, search]
    rw [ScopeTable.kind?, ScopeTable.kind?] at sameKind
    rw [ScopeTable.parent?, ScopeTable.parent?] at sameParent
    cases found : t.scope? id with
    | none =>
      rw [found] at sameKind
      rw [Option.map_eq_none_iff.mp sameKind]
      rfl
    | some scope =>
      rw [found] at sameKind sameParent
      obtain ⟨scope', found', kind'⟩ := Option.map_eq_some_iff.mp sameKind
      rw [found'] at sameParent ⊢
      have parent' : scope'.parent = scope.parent := sameParent
      simp [kind', parent', ih]

/-! ### Changes of types -/

/-- A name without a meaning has no type that changes. -/
theorem retype_of_none {f : TypeExpr → TypeExpr} (h : t.lookup id name = none) :
    t.retype id name f = t := by
  rw [retype, h]

/-- A change of a type changes nothing but the type of what the name means. -/
theorem held?_retype {f : TypeExpr → TypeExpr} {found : ScopeId} {asked : String}
    (h : t.lookup id name = some (found, entry)) :
    (t.retype id name f).held? other asked =
      if found = other ∧ name = asked then some { entry with type := f entry.type }
      else t.held? other asked := by
  obtain ⟨-, holds⟩ := lookup_eq_some h
  rw [retype, h, held?_define, name_of_held? holds]
  simp [lt_size_of_held? holds]

theorem sameShape_retype {f : TypeExpr → TypeExpr} : t.SameShape (t.retype id name f) := by
  unfold retype
  split
  · exact sameShape_define
  · exact .refl t

/-! ### The same declarations -/

/-- Tables of one shape whose scopes hold the same declarations, in whatever order. -/
structure Alike (t t' : ScopeTable) : Prop where
  shape : t.SameShape t'
  held? : ∀ id name, t'.held? id name = t.held? id name

namespace Alike

theorem trans {t'' : ScopeTable} (h : t.Alike t') (h' : t'.Alike t'') : t.Alike t'' :=
  ⟨h.shape.trans h'.shape, fun id name => (h'.held? id name).trans (h.held? id name)⟩

theorem lookup (h : t.Alike t') (rooted : t.Rooted) (there : id < t.size) (name : String) :
    t'.lookup id name = t.lookup id name := by
  rcases lookup_or_root h.shape rooted there fun id _ => congrArg Option.isSome (h.held? id name).symm with
    ⟨found, entry, entry', -, held, held', meaning, meaning'⟩ | ⟨meaning, meaning'⟩
  · obtain rfl := Option.some.inj ((held.symm.trans (h.held? found name).symm).trans held')
    rw [meaning, meaning']
  · rw [meaning, meaning', h.held?]

theorem define (h : t.Alike t') (id : ScopeId) (entry : SymbolEntry) :
    (t.define id entry).Alike (t'.define id entry) where
  shape := (sameShape_define.symm.trans h.shape).trans sameShape_define
  held? other name := by rw [held?_define, held?_define, h.shape.size, h.held?]

theorem retype (h : t.Alike t') (rooted : t.Rooted) (there : id < t.size) (name : String)
    (f : TypeExpr → TypeExpr) : (t.retype id name f).Alike (t'.retype id name f) := by
  have same := h.lookup rooted there name
  unfold ScopeTable.retype
  rw [same]
  split
  · exact h.define _ _
  · exact h

theorem push (h : t.Alike t') (parent : ScopeId) (kind : ScopeKind) :
    (t.push parent kind).2.Alike (t'.push parent kind).2 where
  shape := h.shape.push parent kind
  held? id name := by rw [held?_push, held?_push, h.held?]

end Alike

/-! ### Growth -/

/-- A table that has been appended to: every scope has stayed what it was and where it was, and a
declaration has kept all but its type. -/
structure Appends (t t' : ScopeTable) : Prop where
  size : t.size ≤ t'.size
  parent? : ∀ id, id < t.size → t'.parent? id = t.parent? id
  kind? : ∀ id, id < t.size → t'.kind? id = t.kind? id
  held? : ∀ id name entry, t.held? id name = some entry →
    ∃ type, t'.held? id name = some { entry with type }

namespace Appends

theorem refl (t : ScopeTable) : t.Appends t :=
  ⟨Nat.le_refl _, fun _ _ => rfl, fun _ _ => rfl, fun _ _ entry held => ⟨entry.type, held⟩⟩

theorem trans {t'' : ScopeTable} (h : t.Appends t') (h' : t'.Appends t'') : t.Appends t'' where
  size := Nat.le_trans h.size h'.size
  parent? id there :=
    (h'.parent? id (Nat.lt_of_lt_of_le there h.size)).trans (h.parent? id there)
  kind? id there := (h'.kind? id (Nat.lt_of_lt_of_le there h.size)).trans (h.kind? id there)
  held? id name entry held := by
    obtain ⟨_, held'⟩ := h.held? id name entry held
    obtain ⟨type, held''⟩ := h'.held? id name _ held'
    exact ⟨type, held''⟩

theorem of_sameShape (shape : t.SameShape t') (entries : ∀ id name entry,
    t.held? id name = some entry → ∃ type, t'.held? id name = some { entry with type }) :
    t.Appends t' :=
  ⟨Nat.le_of_eq shape.size.symm, fun id _ => shape.parent? id, fun id _ => shape.kind? id, entries⟩

/-- A name that a scope does not hold is added to it. -/
theorem define (fresh : t.held? id entry.name = none) : t.Appends (t.define id entry) := by
  refine .of_sameShape sameShape_define fun other name old held => ⟨old.type, ?_⟩
  rw [held?_define, if_neg, held]
  rintro ⟨rfl, rfl, -⟩
  rw [held] at fresh
  cases fresh

theorem push {parent : ScopeId} {kind : ScopeKind} : t.Appends (t.push parent kind).2 where
  size := by
    rw [size_push]
    exact Nat.le_succ _
  parent? id there := by rw [parent?_push, if_neg (Nat.ne_of_lt there)]
  kind? id there := by rw [kind?_push, if_neg (Nat.ne_of_lt there)]
  held? id name entry held := ⟨entry.type, by rw [held?_push, held]⟩

theorem retype {f : TypeExpr → TypeExpr} : t.Appends (t.retype id name f) := by
  refine .of_sameShape sameShape_retype fun other asked old held => ?_
  cases meaning : t.lookup id name with
  | none => exact ⟨old.type, by rw [retype_of_none meaning, held]⟩
  | some found =>
    obtain ⟨found, entry⟩ := found
    rw [held?_retype meaning]
    split
    · next same =>
      obtain ⟨rfl, rfl⟩ := same
      have holds := (lookup_eq_some meaning).2
      obtain rfl : old = entry := Option.some.inj (held.symm.trans holds)
      exact ⟨_, rfl⟩
    · exact ⟨old.type, held⟩

end Appends

end ScopeTable

end ScriptEngine
