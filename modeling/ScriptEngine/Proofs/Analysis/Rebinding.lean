import ScriptEngine.Analysis.Basic
import ScriptEngine.Proofs.Scope.Entries

/-!
# Tables among other bindings

Two tables of one module, analysed among different names of the host, have the same scopes. A name
that only one host binds is known in the root of that table, and unknown or missing in the root of
the other one; whatever else is known in the one is known in the other.

* `Rebinding`: the names that are bound in two analyses.
* `Rebinding.Tables`: what the tables of the two have in common.
* `Rebinding.Tables.lookup`: what a name means in the two.
-/

namespace ScriptEngine

/-- Whether a declared name stands for something, rather than being left to a run. -/
def SymbolEntry.isKnown (entry : SymbolEntry) : Bool := entry.kind != .unknown

theorem SymbolEntry.isKnown_iff {entry : SymbolEntry} :
    entry.isKnown = true ↔ entry.kind ≠ .unknown := bne_iff_ne

namespace ScopeTable

/-- Whether a name that a scope declares is known. -/
def knows? (t : ScopeTable) (id : ScopeId) (name : String) : Option Bool :=
  (t.held? id name).map (·.isKnown)

variable {t : ScopeTable} {id other : ScopeId} {entry : SymbolEntry} {name : String}

theorem knows?_define : (t.define id entry).knows? other name =
    if id = other ∧ entry.name = name ∧ id < t.size then some entry.isKnown
    else t.knows? other name := by
  rw [knows?, held?_define, knows?]
  split <;> rfl

theorem knows?_push {parent : ScopeId} {kind : ScopeKind} :
    (t.push parent kind).2.knows? id name = t.knows? id name := by
  rw [knows?, held?_push, knows?]

/-- What a name stands for does not depend on its type. -/
theorem knows?_retype {f : TypeExpr → TypeExpr} {asked : String} :
    (t.retype id name f).knows? other asked = t.knows? other asked := by
  cases meaning : t.lookup id name with
  | none => rw [retype_of_none meaning]
  | some found =>
    rw [knows?, held?_retype meaning, knows?]
    split
    · next same =>
      obtain ⟨rfl, rfl⟩ := same
      rw [(lookup_eq_some meaning).2]
      rfl
    · rfl

end ScopeTable

/-- The names that the host binds in two analyses. -/
structure Rebinding where
  before : List String
  after : List String

namespace Rebinding

/-- A name that stands for something before the first statement, if these names are bound. -/
def Bound (bindings : List String) (name : String) : Prop :=
  name ∈ bindings ∨ name ∈ builtinNames

instance (bindings : List String) (name : String) : Decidable (Bound bindings name) :=
  inferInstanceAs (Decidable (name ∈ bindings ∨ name ∈ builtinNames))

/-- A name that the first host alone binds, and that is no builtin. -/
def Drops (r : Rebinding) (name : String) : Prop := Bound r.before name ∧ ¬ Bound r.after name

/-- A name that the second host alone binds, and that is no builtin. -/
def Gains (r : Rebinding) (name : String) : Prop := ¬ Bound r.before name ∧ Bound r.after name

/-- The same names are bound. -/
def Exact (r : Rebinding) : Prop := ∀ name, name ∈ r.before ↔ name ∈ r.after

/-- The two analyses the other way round. -/
def flip (r : Rebinding) : Rebinding := ⟨r.after, r.before⟩

variable {r : Rebinding} {name : String}

theorem Exact.bound_iff (exact : r.Exact) : Bound r.before name ↔ Bound r.after name :=
  or_congr_left (exact name)

theorem Exact.not_drops (exact : r.Exact) : ¬ r.Drops name :=
  fun drops => drops.2 (exact.bound_iff.mp drops.1)

theorem Exact.not_gains (exact : r.Exact) : ¬ r.Gains name :=
  fun gains => gains.1 (exact.bound_iff.mpr gains.2)

theorem Exact.flip (exact : r.Exact) : r.flip.Exact := fun name => (exact name).symm

theorem drops_flip : r.flip.Drops name ↔ r.Gains name := and_comm

theorem gains_flip : r.flip.Gains name ↔ r.Drops name := and_comm

/-- What the tables of two analyses have in common. -/
structure Tables (r : Rebinding) (t u : ScopeTable) : Prop where
  shape : t.SameShape u
  rooted : t.Rooted
  knows : ∀ id name, (id = ScopeTable.root → ¬ r.Drops name ∧ ¬ r.Gains name) →
    u.knows? id name = t.knows? id name
  before : ∀ name, t.knows? ScopeTable.root name = some true ↔ Bound r.before name
  after : ∀ name, u.knows? ScopeTable.root name = some true ↔ Bound r.after name

namespace Tables

variable {t u : ScopeTable}

theorem flip (h : r.Tables t u) : r.flip.Tables u t where
  shape := h.shape.symm
  rooted := h.shape.rooted h.rooted
  knows id name kept := (h.knows id name fun atRoot =>
    ⟨mt gains_flip.mpr (kept atRoot).2, mt drops_flip.mpr (kept atRoot).1⟩).symm
  before := h.after
  after := h.before

/-- In a scope inside the root the same names are declared. -/
theorem isSome_eq (h : r.Tables t u) (id : ScopeId) (inner : id ≠ ScopeTable.root) (name : String) :
    (t.held? id name).isSome = (u.held? id name).isSome := by
  have same := h.knows id name fun atRoot => absurd atRoot inner
  rw [ScopeTable.knows?, ScopeTable.knows?] at same
  rw [← Option.isSome_map (f := (·.isKnown)), ← same, Option.isSome_map]

/-- A name that is not bound means nothing in the root, or something that is left to a run. -/
theorem lookup_of_not_bound (h : r.Tables t u) {id : ScopeId} (bound : ¬ Bound r.before name)
    (meaning : t.lookup id name = (t.held? ScopeTable.root name).map (ScopeTable.root, ·)) :
    t.lookup id name = none ∨
      ∃ entry, t.lookup id name = some (ScopeTable.root, entry) ∧ entry.isKnown = false := by
  have unknown := mt (h.before name).mp bound
  cases held : t.held? ScopeTable.root name with
  | none =>
    rw [held] at meaning
    exact .inl meaning
  | some entry =>
    rw [held] at meaning
    rw [ScopeTable.knows?, held] at unknown
    exact .inr ⟨entry, meaning, by simpa using unknown⟩

/-- A name that is bound means something in the root. -/
theorem lookup_of_bound (h : r.Tables t u) {id : ScopeId} (bound : Bound r.before name)
    (meaning : t.lookup id name = (t.held? ScopeTable.root name).map (ScopeTable.root, ·)) :
    ∃ entry, t.lookup id name = some (ScopeTable.root, entry) ∧ entry.isKnown = true := by
  obtain ⟨entry, held, isKnown⟩ := Option.map_eq_some_iff.mp ((h.before name).mpr bound)
  rw [held] at meaning
  exact ⟨entry, meaning, isKnown⟩

/-- A name means declarations of the same scope in both tables, nothing in both, or something in the
one that it is bound in. -/
theorem lookup (h : r.Tables t u) {id : ScopeId} (there : id < t.size) (name : String) :
    (∃ found entry entry', t.lookup id name = some (found, entry) ∧
      u.lookup id name = some (found, entry') ∧ entry'.isKnown = entry.isKnown) ∨
    (t.lookup id name = none ∧ u.lookup id name = none) ∨
    (r.Drops name ∧ (∃ entry, t.lookup id name = some (ScopeTable.root, entry) ∧
      entry.isKnown = true) ∧ (u.lookup id name = none ∨
        ∃ entry', u.lookup id name = some (ScopeTable.root, entry') ∧ entry'.isKnown = false)) ∨
    r.Gains name ∧ (t.lookup id name = none ∨
      ∃ entry, t.lookup id name = some (ScopeTable.root, entry) ∧ entry.isKnown = false) ∧
        ∃ entry', u.lookup id name = some (ScopeTable.root, entry') ∧ entry'.isKnown = true := by
  rcases ScopeTable.lookup_or_root h.shape h.rooted there fun id inner => h.isSome_eq id inner name with
    ⟨found, entry, entry', inner, held, held', meaning, meaning'⟩ | ⟨meaning, meaning'⟩
  · have same := h.knows found name fun atRoot => absurd atRoot inner
    rw [ScopeTable.knows?, ScopeTable.knows?, held, held'] at same
    exact .inl ⟨found, entry, entry', meaning, meaning', Option.some.inj same⟩
  · by_cases drops : r.Drops name
    · exact .inr (.inr (.inl ⟨drops, h.lookup_of_bound drops.1 meaning,
        h.flip.lookup_of_not_bound drops.2 meaning'⟩))
    by_cases gains : r.Gains name
    · exact .inr (.inr (.inr ⟨gains, h.lookup_of_not_bound gains.1 meaning,
        h.flip.lookup_of_bound gains.2 meaning'⟩))
    have same := h.knows ScopeTable.root name fun _ => ⟨drops, gains⟩
    rw [ScopeTable.knows?, ScopeTable.knows?] at same
    cases held : t.held? ScopeTable.root name with
    | none =>
      rw [held] at same meaning
      rw [Option.map_eq_none_iff.mp same] at meaning'
      exact .inr (.inl ⟨meaning, meaning'⟩)
    | some entry =>
      rw [held] at same meaning
      obtain ⟨entry', held', isKnown⟩ := Option.map_eq_some_iff.mp same
      rw [held'] at meaning'
      exact .inl ⟨_, entry, entry', meaning, meaning', isKnown⟩

theorem push (h : r.Tables t u) {parent : ScopeId} {kind : ScopeKind} (there : parent < t.size) :
    r.Tables (t.push parent kind).2 (u.push parent kind).2 where
  shape := h.shape.push parent kind
  rooted := h.rooted.push there
  knows id name kept := by
    rw [ScopeTable.knows?_push, ScopeTable.knows?_push]
    exact h.knows id name kept
  before name := by
    rw [ScopeTable.knows?_push]
    exact h.before name
  after name := by
    rw [ScopeTable.knows?_push]
    exact h.after name

/-- The type of a name may change in the first table alone. -/
theorem retype_left (h : r.Tables t u) (id : ScopeId) (name : String) (f : TypeExpr → TypeExpr) :
    r.Tables (t.retype id name f) u where
  shape := ScopeTable.sameShape_retype.symm.trans h.shape
  rooted := ScopeTable.sameShape_retype.rooted h.rooted
  knows other asked kept := by
    rw [ScopeTable.knows?_retype]
    exact h.knows other asked kept
  before asked := by
    rw [ScopeTable.knows?_retype]
    exact h.before asked
  after := h.after

/-- Or in the second one alone. -/
theorem retype_right (h : r.Tables t u) (id : ScopeId) (name : String) (f : TypeExpr → TypeExpr) :
    r.Tables t (u.retype id name f) := (h.flip.retype_left id name f).flip

/-- Types do not matter. -/
theorem retype (h : r.Tables t u) (id : ScopeId) (name : String) (f f' : TypeExpr → TypeExpr) :
    r.Tables (t.retype id name f) (u.retype id name f') :=
  (h.retype_left id name f).retype_right id name f'

/-- A name is declared in a scope inside the root of both tables. -/
theorem define (h : r.Tables t u) {id : ScopeId} {entry entry' : SymbolEntry}
    (named : entry'.name = entry.name) (known : entry'.isKnown = entry.isKnown)
    (inner : id ≠ ScopeTable.root) : r.Tables (t.define id entry) (u.define id entry') where
  shape := (ScopeTable.sameShape_define.symm.trans h.shape).trans ScopeTable.sameShape_define
  rooted := ScopeTable.sameShape_define.rooted h.rooted
  knows other name kept := by
    rw [ScopeTable.knows?_define, ScopeTable.knows?_define, named, known, h.shape.size,
      h.knows other name kept]
  before name := by
    rw [ScopeTable.knows?_define, if_neg fun same => inner same.1]
    exact h.before name
  after name := by
    rw [ScopeTable.knows?_define, if_neg fun same => inner same.1]
    exact h.after name

/-- A name that is not bound stays so when it is left to a run. -/
theorem knows?_supplied {entry : SymbolEntry} (unknown : entry.isKnown = false)
    (fresh : ¬ Bound r.before entry.name)
    (known : ∀ name, t.knows? ScopeTable.root name = some true ↔ Bound r.before name)
    (name : String) :
    (t.define ScopeTable.root entry).knows? ScopeTable.root name = some true ↔
      Bound r.before name := by
  rw [ScopeTable.knows?_define, unknown]
  split
  · next same => simpa using same.2.1 ▸ fresh
  · exact known name

/-- A name that only the second host binds is left to a run in the first table. -/
theorem supply_left (h : r.Tables t u) {entry : SymbolEntry} (unknown : entry.isKnown = false)
    (gains : r.Gains entry.name) : r.Tables (t.define ScopeTable.root entry) u where
  shape := ScopeTable.sameShape_define.symm.trans h.shape
  rooted := ScopeTable.sameShape_define.rooted h.rooted
  knows other name kept := by
    rw [ScopeTable.knows?_define, if_neg]
    · exact h.knows other name kept
    · rintro ⟨rfl, rfl, -⟩
      exact (kept rfl).2 gains
  before := knows?_supplied unknown gains.1 h.before
  after := h.after

/-- A name that only the first host binds is left to a run in the second table. -/
theorem supply_right (h : r.Tables t u) {entry : SymbolEntry} (unknown : entry.isKnown = false)
    (drops : r.Drops entry.name) : r.Tables t (u.define ScopeTable.root entry) :=
  (h.flip.supply_left unknown (gains_flip.mpr drops)).flip

/-- A name that is bound in neither is left to a run in both. -/
theorem supply (h : r.Tables t u) {entry : SymbolEntry} (unknown : entry.isKnown = false)
    (before : ¬ Bound r.before entry.name) (after : ¬ Bound r.after entry.name) :
    r.Tables (t.define ScopeTable.root entry) (u.define ScopeTable.root entry) where
  shape := (ScopeTable.sameShape_define.symm.trans h.shape).trans ScopeTable.sameShape_define
  rooted := ScopeTable.sameShape_define.rooted h.rooted
  knows other name kept := by
    rw [ScopeTable.knows?_define, ScopeTable.knows?_define, h.shape.size, h.knows other name kept]
  before := knows?_supplied unknown before h.before
  after := knows?_supplied (r := r.flip) unknown after h.after

end Tables

end Rebinding

end ScriptEngine
