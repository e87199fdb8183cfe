import ScriptEngine.Proofs.Analysis.Overwriting
import ScriptEngine.Proofs.Analysis.Rebinding

/-!
# An analysis among other bindings

A module is analysed a second time, among other names of the host. The second analysis follows the
first one step by step, until a name that is no longer bound is written to outside of any entity.
There it fails, since no run may supply such a name. A name that is bound anew makes no step fail: the
first analysis wrote to it inside of entities only. If the same names are bound the two find the same.

* `Rebinding.Beside`: what two analyses of a module have in common at one moment.
* `Rebinding.Follows`: a step of the second analysis follows the same step of the first one.
* `following`: the judgement that steps follow one another.
-/

namespace ScriptEngine

namespace Analyzing

/-- Two analyses know the same, whatever the order of declarations. -/
structure State.Same (s t : State) : Prop where
  table : s.table.Alike t.table
  types : t.types = s.types
  meanings : t.meanings = s.meanings
  warnings : t.warnings = s.warnings
  spaces : t.spaces = s.spaces
  boundaries : t.boundaries = s.boundaries

/-- What the walk of an analysis depends on, and the names that were overwritten. -/
def State.core (s : State) : ScopeTable × ScopeId × Nat × Nat × List String :=
  (s.table, s.current, s.entityDepth, s.loopDepth, s.overwritten)

end Analyzing

open Analyzing

namespace Rebinding

variable {r : Rebinding} {α β : Type} {x x' : Analyzer α} {f f' : α → Analyzer β}
  {setting : Setting} {s s' t t' : State} {ps qs : List Part}

/-- What two analyses of a module among different bindings have in common at one moment. -/
structure Beside (r : Rebinding) (s t : State) : Prop where
  tables : r.Tables s.table t.table
  there : s.current < s.table.size
  inner : s.current ≠ ScopeTable.root
  current : t.current = s.current
  entityDepth : t.entityDepth = s.entityDepth
  loopDepth : t.loopDepth = s.loopDepth
  spared : ∀ name ∈ s.overwritten, Bound r.after name
  same : r.Exact → s.Same t

/-- Changes that the walk does not depend on. -/
theorem Beside.of_core (h : r.Beside s t) (first : s'.core = s.core) (second : t'.core = t.core)
    (same : r.Exact → s'.Same t') : r.Beside s' t' := by
  simp only [State.core, Prod.mk.injEq] at first second
  obtain ⟨table, current, entityDepth, loopDepth, overwritten⟩ := first
  obtain ⟨table', current', entityDepth', loopDepth', -⟩ := second
  refine ⟨?_, ?_, ?_, ?_, ?_, ?_, ?_, same⟩
  · rw [table, table']
    exact h.tables
  · rw [table, current]
    exact h.there
  · rw [current]
    exact h.inner
  · rw [current, current', h.current]
  · rw [entityDepth, entityDepth', h.entityDepth]
  · rw [loopDepth, loopDepth', h.loopDepth]
  · rw [overwritten]
    exact h.spared

/-- A name that is no longer bound is among those that were overwritten, and written to by a part. -/
structure Breaks (r : Rebinding) (ps : List Part) (overwritten : List String) (name : String) :
    Prop where
  drops : r.Drops name
  isOverwritten : name ∈ overwritten
  writes : ∃ p ∈ ps, p.Writes name

/-- What becomes of the second analysis where the first one goes on: it goes on beside it, or fails at
a name that is no longer bound. -/
def Outcome (r : Rebinding) (ps : List Part) (setting : Setting) (s : State) (a : α) (s' : State)
    (second : Except SemanticError (α × State)) : Prop :=
  (∃ b t', second = .ok (b, t') ∧ r.Beside s' t' ∧ s.table.size ≤ s'.table.size ∧
    (r.Exact → a = b)) ∨
  ∃ name position, second = .error ⟨.undeclaredAssignment name, setting.module, position⟩ ∧
    r.Breaks ps s'.overwritten name

/-- A step of the second analysis follows the same step of the first one. -/
def Follows (r : Rebinding) (x x' : Analyzer α) (ps : List Part) : Prop :=
  ∀ setting s t a s', (setting.strict = true → r.Exact) → r.Beside s t →
    x setting s = .ok (a, s') → r.Outcome ps setting s a s' (x' setting t)

theorem Follows.mono (h : r.Follows x x' ps)
    (sub : ∀ p ∈ ps, ∀ name, p.Writes name → ∃ q ∈ qs, q.Writes name) : r.Follows x x' qs := by
  intro setting s t a s' strict beside run
  rcases h setting s t a s' strict beside run with goes | ⟨name, position, failed, breaks⟩
  · exact .inl goes
  · obtain ⟨p, mem, writes⟩ := breaks.writes
    exact .inr ⟨name, position, failed, breaks.drops, breaks.isOverwritten, sub p mem name writes⟩

/-- Steps one after another; the second one may only follow a step that writes if it forgets nothing. -/
theorem follows_bind (h : r.Follows x x' ps)
    (onward : ∀ p ∈ ps, ∀ name, p.Writes name → ∀ a, Onward (f a))
    (h' : ∀ a a', (r.Exact → a = a') → r.Follows (f a) (f' a') qs) :
    r.Follows (x >>= f) (x' >>= f') (ps ++ qs) := by
  intro setting s t b s'' strict beside run
  obtain ⟨a, s', first, second⟩ := bind_eq_ok run
  rcases h setting s t a s' strict beside first with
    ⟨a', t', goes, beside', grown, same⟩ | ⟨name, position, failed, drops, overwritten, p, mem, writes⟩
  · rw [bind_of_ok goes]
    rcases h' a a' same setting s' t' b s'' strict beside' second with
      ⟨b', t'', goes, beside'', grown', same'⟩ |
        ⟨name, position, failed, drops, overwritten, p, mem, writes⟩
    · exact .inl ⟨b', t'', goes, beside'', Nat.le_trans grown grown', same'⟩
    · exact .inr ⟨name, position, failed, drops, overwritten, p, List.mem_append_right _ mem, writes⟩
  · rw [bind_of_error failed]
    have kept := onward p mem name writes a setting s' b s'' second
    exact .inr ⟨name, position, rfl, drops, kept overwritten, p, List.mem_append_left _ mem, writes⟩

/-- A step that writes to nothing, before others. -/
theorem follows_then (h : r.Follows x x' [])
    (h' : ∀ a a', (r.Exact → a = a') → r.Follows (f a) (f' a') ps) :
    r.Follows (x >>= f) (x' >>= f') ps :=
  follows_bind h (fun _ mem => absurd mem List.not_mem_nil) h'

theorem follows_get {f f' : State → Analyzer α}
    (h : ∀ s t, r.Beside s t → r.Follows (f s) (f' t) ps) :
    r.Follows (get >>= f) (get >>= f') ps :=
  fun setting s t a s' strict beside run => h s t beside setting s t a s' strict beside run

theorem follows_read {f f' : Setting → Analyzer α}
    (h : ∀ setting, (setting.strict = true → r.Exact) → r.Follows (f setting) (f' setting) ps) :
    r.Follows (read >>= f) (read >>= f') ps :=
  fun setting s t a s' strict beside run => h setting strict setting s t a s' strict beside run

theorem follows_read_left {f : Setting → Analyzer α}
    (h : ∀ setting, (setting.strict = true → r.Exact) → r.Follows (f setting) x' ps) :
    r.Follows (read >>= f) x' ps :=
  fun setting s t a s' strict beside run => h setting strict setting s t a s' strict beside run

theorem follows_read_right {f : Setting → Analyzer α}
    (h : ∀ setting, (setting.strict = true → r.Exact) → r.Follows x (f setting) ps) :
    r.Follows x (read >>= f) ps :=
  fun setting s t a s' strict beside run => h setting strict setting s t a s' strict beside run

/-- Nothing follows a failure. -/
theorem follows_fail (fault : SemanticFault) (position : Position) :
    r.Follows (fail fault position) x' ps := by
  intro setting s t a s' strict beside run
  cases run

/-- A name that is no longer bound makes the second analysis fail. -/
theorem follows_breaks {name : String} (drops : r.Drops name) (writes : ∃ p ∈ ps, p.Writes name)
    (overwritten : ∀ setting s a s', x setting s = .ok (a, s') → name ∈ s'.overwritten)
    (position : Position) : r.Follows x (fail (.undeclaredAssignment name) position) ps :=
  fun setting s _ a s' _ _ run =>
    .inr ⟨name, position, rfl, drops, overwritten setting s a s' run, writes⟩

theorem follows_ite {c c' : Prop} [Decidable c] [Decidable c'] {y y' : Analyzer α} (same : c ↔ c')
    (h : c → r.Follows x x' ps) (h' : ¬ c → r.Follows y y' ps) :
    r.Follows (if c then x else y) (if c' then x' else y') ps := by
  by_cases holds : c
  · rw [if_pos holds, if_pos (same.mp holds)]
    exact h holds
  · rw [if_neg holds, if_neg fun holds' => holds (same.mpr holds')]
    exact h' holds

/-- A step of the first analysis alone. -/
theorem follows_left {y : Analyzer β} {f : β → Analyzer α}
    (h : ∀ setting s t b s', r.Beside s t → y setting s = .ok (b, s') →
      r.Beside s' t ∧ s.table.size ≤ s'.table.size)
    (h' : ∀ b, r.Follows (f b) x' ps) : r.Follows (y >>= f) x' ps := by
  intro setting s t a s'' strict beside run
  obtain ⟨b, s', first, second⟩ := bind_eq_ok run
  obtain ⟨beside', grown⟩ := h setting s t b s' beside first
  rcases h' b setting s' t a s'' strict beside' second with
    ⟨b', t', goes, beside'', grown', same⟩ | breaks
  · exact .inl ⟨b', t', goes, beside'', Nat.le_trans grown grown', same⟩
  · exact .inr breaks

/-- A step of the second analysis alone. -/
theorem follows_right {y : Analyzer β} {f : β → Analyzer α}
    (h : ∀ setting s t, r.Beside s t → ∃ b t', y setting t = .ok (b, t') ∧ r.Beside s t')
    (h' : ∀ b, r.Follows x (f b) ps) : r.Follows x (y >>= f) ps := by
  intro setting s t a s' strict beside run
  obtain ⟨b, t', first, beside'⟩ := h setting s t beside
  rw [bind_of_ok first]
  exact h' b setting s t' a s' strict beside' run

theorem follows_pure {a a' : α} (same : r.Exact → a = a') : r.Follows (pure a) (pure a') ps := by
  intro setting s t b s' strict beside run
  cases run
  exact .inl ⟨a', t, rfl, beside, Nat.le_refl _, same⟩

/-- A change of what the walk does not depend on. -/
theorem follows_modify {g g' : State → State} (core : ∀ s, (g s).core = s.core)
    (core' : ∀ s, (g' s).core = s.core)
    (same : ∀ s t, r.Exact → r.Beside s t → s.Same t → (g s).Same (g' t)) :
    r.Follows (modify g) (modify g') ps := by
  intro setting s t a s' strict beside run
  cases run
  have table : (g s).table = s.table := congrArg Prod.fst (core s)
  exact .inl ⟨(), g' t, rfl, beside.of_core (core s) (core' t)
    (fun exact => same s t exact beside (beside.same exact)),
    Nat.le_of_eq (by rw [table]), fun _ => rfl⟩

theorem follows_recordType {type type' : TypeExpr} (id : Nat) (equal : r.Exact → type = type') :
    r.Follows (recordType id type) (recordType id type') ps :=
  follows_modify (fun _ => rfl) (fun _ => rfl) fun _ _ exact _ same =>
    ⟨same.table, by simp only [same.types, equal exact], same.meanings, same.warnings, same.spaces,
      same.boundaries⟩

theorem follows_recordMeaning {ref ref' : SymbolRef} (id : Nat) (equal : r.Exact → ref = ref') :
    r.Follows (recordMeaning id ref) (recordMeaning id ref') ps :=
  follows_modify (fun _ => rfl) (fun _ => rfl) fun _ _ exact _ same =>
    ⟨same.table, same.types, by simp only [same.meanings, equal exact], same.warnings, same.spaces,
      same.boundaries⟩

theorem follows_meet (id : Nat) (name : String) : r.Follows (meet id name) (meet id name) ps :=
  follows_modify (fun _ => rfl) (fun _ => rfl) fun _ _ _ _ same =>
    ⟨same.table, same.types, same.meanings, same.warnings, same.spaces, same.boundaries⟩

theorem follows_warn (warning : Warning) (position : Position) :
    r.Follows (warn warning position) (warn warning position) ps :=
  follows_modify (fun _ => rfl) (fun _ => rfl) fun _ _ _ _ same =>
    ⟨same.table, same.types, same.meanings, by simp only [same.warnings], same.spaces,
      same.boundaries⟩

theorem follows_nameSpace (name : String) : r.Follows (nameSpace name) (nameSpace name) ps :=
  follows_modify (fun _ => rfl) (fun _ => rfl) fun _ _ _ beside same =>
    ⟨same.table, same.types, same.meanings, same.warnings, by
      simp only [same.spaces, beside.current], same.boundaries⟩

theorem follows_complete {type type' : TypeExpr} (equal : r.Exact → type = type') :
    r.Follows (complete type) (complete type') ps := by
  refine follows_modify (fun s => ?_) (fun s => ?_) fun s t exact _ same => ?_
  · split <;> rfl
  · split <;> rfl
  · rw [same.boundaries, ← equal exact]
    split
    · exact same
    · exact ⟨same.table, same.types, same.meanings, same.warnings, same.spaces, rfl⟩

/-- A change of the tables. -/
theorem Beside.of_tables (h : r.Beside s t) {table table' : ScopeTable}
    (tables : r.Tables table table') (grown : s.table.size ≤ table.size)
    (same : r.Exact → table.Alike table') (trace : List Encounter)
    {trace' : List Encounter} (kept : trace'.filterMap Encounter.overwritten? = s.overwritten) :
    r.Beside { s with table, trace := trace' } { t with table := table', trace } :=
  ⟨tables, Nat.lt_of_lt_of_le h.there grown, h.inner, h.current, h.entityDepth, h.loopDepth,
    fun name mem => h.spared name (kept ▸ mem), fun exact =>
    have known := h.same exact
    ⟨same exact, known.types, known.meanings, known.warnings, known.spaces, known.boundaries⟩⟩

/-- Whatever the types. -/
theorem follows_retype (name : String) {g g' : TypeExpr → TypeExpr} (equal : r.Exact → g = g') :
    r.Follows (retype name g) (retype name g') ps := by
  intro setting s t a s' strict beside run
  cases run
  have grown : s.table.size ≤ (s.table.retype s.current name g).size :=
    Nat.le_of_eq ScopeTable.size_retype.symm
  refine .inl ⟨(), _, rfl, beside.of_tables ?_ grown (fun exact => ?_) _ rfl, grown, fun _ => rfl⟩
  · rw [beside.current]
    exact beside.tables.retype s.current name g g'
  · rw [beside.current, ← equal exact]
    exact (beside.same exact).table.retype beside.tables.rooted beside.there name g

/-- A known name is declared in the current scope, which is not the root. -/
theorem follows_declare (name : String) {kind kind' : SymbolKind} (assignable : Bool)
    {type type' : TypeExpr} (position : Position) (known : kind ≠ .unknown)
    (known' : kind' ≠ .unknown) (equal : r.Exact → kind = kind' ∧ type = type') :
    r.Follows (declare name kind assignable type position)
      (declare name kind' assignable type' position) ps := by
  intro setting s t a s' strict beside run
  obtain ⟨_, _, first, run⟩ := bind_eq_ok run
  cases first
  cases declared : s.table.declare s.current ⟨name, kind, assignable, type, position⟩ with
  | error old =>
    rw [declared] at run
    cases run
  | ok table =>
    rw [declared] at run
    cases run
    obtain ⟨fresh, rfl⟩ := ScopeTable.declare_eq_ok declared
    have fresh' : t.table.held? s.current name = none := by
      have agree := beside.tables.isSome_eq s.current beside.inner name
      rw [fresh] at agree
      simpa using agree.symm
    have declared' : t.table.declare s.current ⟨name, kind', assignable, type', position⟩ = .ok _ :=
      ScopeTable.declare_of_none fresh'
    have grown : s.table.size ≤
        (s.table.define s.current ⟨name, kind, assignable, type, position⟩).size :=
      Nat.le_of_eq ScopeTable.sameShape_define.size.symm
    refine .inl ⟨(), { t with
      table := t.table.define s.current ⟨name, kind', assignable, type', position⟩
      trace := .declared t.current name :: t.trace }, ?_,
      beside.of_tables ?_ grown (fun exact => ?_) _ rfl, grown, fun _ => rfl⟩
    · rw [Analyzing.declare, bind_of_ok (a := t) rfl, beside.current, declared']
      rfl
    · exact beside.tables.define rfl ((SymbolEntry.isKnown_iff.mpr known').trans
        (SymbolEntry.isKnown_iff.mpr known).symm) beside.inner
    · obtain ⟨rfl, rfl⟩ := equal exact
      exact (beside.same exact).table.define _ _

/-! ### Names -/

/-- A name that neither host binds is left to a run in both analyses. -/
theorem follows_supply {name : String} (before : ¬ Bound r.before name)
    (after : ¬ Bound r.after name) (position : Position) :
    r.Follows (supply name position) (supply name position) ps := by
  intro setting s t a s' strict beside run
  cases run
  have grown : s.table.size ≤
      (s.table.define ScopeTable.root ⟨name, .unknown, true, .unknown, position⟩).size :=
    Nat.le_of_eq ScopeTable.sameShape_define.size.symm
  exact .inl ⟨(), _, rfl, beside.of_tables (beside.tables.supply rfl before after) grown
    (fun exact => (beside.same exact).table.define _ _) _ rfl, grown, fun _ => rfl⟩

/-- A dropped name is left to a run in the second analysis. -/
theorem beside_supply {name : String} (drops : r.Drops name) (position : Position)
    (setting : Setting) (s t : State) (beside : r.Beside s t) :
    ∃ b t', supply name position setting t = .ok (b, t') ∧ r.Beside s t' :=
  ⟨(), _, rfl, beside.of_tables (beside.tables.supply_right rfl drops) (Nat.le_refl _)
    (fun exact => absurd drops exact.not_drops) _ rfl⟩

/-- A name that is bound anew was left to a run in the first analysis. -/
theorem supply_beside {name : String} (gains : r.Gains name) (position : Position)
    (setting : Setting) (s t : State) (b : Unit) (s' : State) (beside : r.Beside s t)
    (run : supply name position setting s = .ok (b, s')) :
    r.Beside s' t ∧ s.table.size ≤ s'.table.size := by
  cases run
  have grown : s.table.size ≤
      (s.table.define ScopeTable.root ⟨name, .unknown, true, .unknown, position⟩).size :=
    Nat.le_of_eq ScopeTable.sameShape_define.size.symm
  exact ⟨beside.of_tables (beside.tables.supply_left rfl gains) grown
    (fun exact => absurd gains exact.not_gains) t.trace rfl, grown⟩

/-- Where the findings of the two differ, what the walk does not depend on may change. -/
theorem Beside.of_apart (h : r.Beside s t) (apart : ¬ r.Exact) (first : s'.core = s.core)
    (second : t'.core = t.core) : r.Beside s' t' :=
  h.of_core first second fun exact => absurd exact apart

theorem Beside.retype_left (h : r.Beside s t) (apart : ¬ r.Exact) (asked : String)
    (f : TypeExpr → TypeExpr) :
    r.Beside { s with table := s.table.retype s.current asked f } t ∧
      s.table.size ≤ (s.table.retype s.current asked f).size := by
  have grown : s.table.size ≤ (s.table.retype s.current asked f).size :=
    Nat.le_of_eq ScopeTable.size_retype.symm
  exact ⟨h.of_tables (h.tables.retype_left _ _ _) grown
    (fun exact => absurd exact apart) t.trace rfl, grown⟩

theorem Beside.retype_right (h : r.Beside s t) (apart : ¬ r.Exact) (asked : String)
    (f : TypeExpr → TypeExpr) :
    r.Beside s { t with table := t.table.retype t.current asked f } :=
  h.of_tables (h.tables.retype_right _ _ _) (Nat.le_refl _) (fun exact => absurd exact apart)
    t.trace rfl

/-- What a name means in the two analyses. -/
theorem Beside.lookup (h : r.Beside s t) (name : String) :
    (∃ found entry entry', s.table.lookup s.current name = some (found, entry) ∧
      t.table.lookup t.current name = some (found, entry') ∧ entry'.isKnown = entry.isKnown ∧
        (r.Exact → entry = entry') ∧
          (found = ScopeTable.root → entry.isKnown = true → Bound r.after name)) ∨
    (s.table.lookup s.current name = none ∧ t.table.lookup t.current name = none ∧
      ¬ Bound r.before name ∧ ¬ Bound r.after name) ∨
    (r.Drops name ∧ (∃ entry, s.table.lookup s.current name = some (ScopeTable.root, entry) ∧
      entry.isKnown = true) ∧ (t.table.lookup t.current name = none ∨
        ∃ entry', t.table.lookup t.current name = some (ScopeTable.root, entry') ∧
          entry'.isKnown = false)) ∨
    r.Gains name ∧ (s.table.lookup s.current name = none ∨
      ∃ entry, s.table.lookup s.current name = some (ScopeTable.root, entry) ∧
        entry.isKnown = false) ∧
      ∃ entry', t.table.lookup t.current name = some (ScopeTable.root, entry') ∧
        entry'.isKnown = true := by
  rw [h.current]
  rcases h.tables.lookup h.there name with
    ⟨found, entry, entry', meaning, meaning', known⟩ | ⟨meaning, meaning'⟩ | others
  · refine .inl ⟨found, entry, entry', meaning, meaning', known, fun exact => ?_, ?_⟩
    · have same := (h.same exact).table.lookup h.tables.rooted h.there name
      rw [meaning, meaning'] at same
      exact (Prod.mk.inj (Option.some.inj same)).2.symm
    · rintro rfl isKnown
      refine (h.tables.after name).mp ?_
      rw [ScopeTable.knows?, (ScopeTable.lookup_eq_some meaning').2]
      exact congrArg some (known.trans isKnown)
  · have unbound {u : ScopeTable} (rooted : u.Rooted) (there : s.current < u.size)
        (missing : u.lookup s.current name = none) : u.knows? ScopeTable.root name ≠ some true := by
      rw [ScopeTable.knows?,
        ScopeTable.held?_of_lookup_eq_none rooted there missing (rooted.within_root there)]
      simp
    refine .inr (.inl ⟨meaning, meaning', ?_, ?_⟩)
    · exact fun bound => unbound h.tables.rooted h.there meaning ((h.tables.before name).mpr bound)
    · have rooted' := h.tables.shape.rooted h.tables.rooted
      have there' : s.current < t.table.size := h.tables.shape.size.symm ▸ h.there
      exact fun bound => unbound rooted' there' meaning' ((h.tables.after name).mpr bound)
  · exact .inr (.inr others)

/-- A name is read. -/
theorem follows_readName (id : Nat) (position : Position) (name : String) :
    r.Follows (readName id position name) (readName id position name) ps := by
  refine follows_get fun s t beside => follows_then (follows_meet id name) fun _ _ _ => ?_
  rcases beside.lookup name with
    ⟨found, entry, entry', meaning, meaning', -, equal, -⟩ | ⟨meaning, meaning', before, after⟩ |
      ⟨drops, ⟨entry, meaning, -⟩, unknown⟩ | ⟨gains, unknown, entry', meaning', -⟩
  · rw [meaning, meaning']
    exact follows_then (follows_recordMeaning id fun exact => by rw [equal exact]) fun _ _ _ =>
      follows_pure fun exact => by rw [equal exact]
  · rw [meaning, meaning']
    refine follows_ite (by rw [beside.entityDepth]) (fun _ => ?_) fun _ => ?_
    · refine follows_then (follows_recordMeaning id fun _ => ?_) fun _ _ _ =>
        follows_pure fun _ => rfl
      rw [beside.current, beside.tables.shape.enclosing]
    · refine follows_read fun setting _ => follows_ite .rfl
        (fun _ => follows_then (follows_fail _ _) fun _ _ _ => ?_) fun _ => ?_
      all_goals
        exact follows_then (follows_warn _ _) fun _ _ _ => follows_then
          (follows_supply before after position) fun _ _ _ => follows_then
            (follows_recordMeaning id fun _ => rfl) fun _ _ _ => follows_pure fun _ => rfl
  · -- The first analysis has a meaning, the second one has none or a name that is left to a run.
    have apart : ¬ r.Exact := fun exact => exact.not_drops drops
    rw [meaning]
    rcases unknown with meaning' | ⟨entry', meaning', -⟩
    · rw [meaning']
      by_cases inside : 0 < t.entityDepth
      · rw [if_pos inside]
        exact follows_then (follows_recordMeaning id fun exact => absurd exact apart) fun _ _ _ =>
          follows_pure fun exact => absurd exact apart
      · rw [if_neg inside]
        refine follows_read_right fun setting strict => ?_
        rw [if_neg fun isStrict => apart (strict isStrict)]
        refine follows_right (fun _ _ _ beside => ⟨_, _, rfl, beside.of_apart apart rfl rfl⟩)
          fun _ => follows_right (beside_supply drops position) fun _ => ?_
        exact follows_then (follows_recordMeaning id fun exact => absurd exact apart) fun _ _ _ =>
          follows_pure fun exact => absurd exact apart
    · rw [meaning']
      exact follows_then (follows_recordMeaning id fun exact => absurd exact apart) fun _ _ _ =>
        follows_pure fun exact => absurd exact apart
  · -- The second analysis has a meaning, the first one had none or left the name to a run.
    have apart : ¬ r.Exact := fun exact => exact.not_gains gains
    have found : r.Follows (do
        recordMeaning id ⟨ScopeTable.root, .unknown⟩
        return .unknown) (do
        recordMeaning id ⟨ScopeTable.root, entry'.kind⟩
        return entry'.type) ps :=
      follows_then (follows_recordMeaning id fun exact => absurd exact apart) fun _ _ _ =>
        follows_pure fun exact => absurd exact apart
    rw [meaning']
    rcases unknown with meaning | ⟨entry, meaning, -⟩
    · rw [meaning]
      by_cases inside : 0 < s.entityDepth
      · rw [if_pos inside]
        exact follows_then (follows_recordMeaning id fun exact => absurd exact apart) fun _ _ _ =>
          follows_pure fun exact => absurd exact apart
      · rw [if_neg inside]
        refine follows_read_left fun setting strict => ?_
        rw [if_neg fun isStrict => apart (strict isStrict)]
        exact follows_left (fun _ _ _ _ _ beside run => by
            cases run
            exact ⟨beside.of_apart apart rfl rfl, Nat.le_refl _⟩) fun _ =>
          follows_left (supply_beside gains position) fun _ => found
    · rw [meaning]
      exact follows_then (follows_recordMeaning id fun exact => absurd exact apart) fun _ _ _ =>
        follows_pure fun exact => absurd exact apart

/-- A name that is still bound is overwritten, or any name in an entity. -/
theorem follows_meetWrite (name : String) {scope : ScopeId} {inside : Bool}
    (kept : scope = ScopeTable.root → inside = false → Bound r.after name) :
    r.Follows (meetWrite name scope inside) (meetWrite name scope inside) ps := by
  intro setting s t a s' strict beside run
  cases run
  have same := beside.same
  refine .inl ⟨(), _, rfl, ⟨beside.tables, beside.there, beside.inner, beside.current,
    beside.entityDepth, beside.loopDepth, fun other mem => ?_, fun exact => ⟨(same exact).table,
      (same exact).types, (same exact).meanings, (same exact).warnings, (same exact).spaces,
      (same exact).boundaries⟩⟩, Nat.le_refl _, fun _ => rfl⟩
  obtain ⟨encounter, met, isOther⟩ := List.mem_filterMap.mp mem
  rcases List.mem_cons.mp met with rfl | met
  · obtain ⟨⟨atRoot, outside⟩, rfl⟩ : (scope = ScopeTable.root ∧ inside = false) ∧ name = other := by
      simpa [Encounter.overwritten?] using isOther
    exact kept atRoot outside
  · exact beside.spared other (List.mem_filterMap.mpr ⟨encounter, met, isOther⟩)

/-- A name that is dropped is written in an entity, or it cannot be written. -/
theorem follows_write_of_drops {name : String} (drops : r.Drops name)
    (writes : ∃ p ∈ ps, p.Writes name) (id : Nat) (position : Position) (kind : SymbolKind)
    (type : TypeExpr) (depth : Nat) :
    r.Follows
      (do
        recordMeaning id ⟨ScopeTable.root, kind⟩
        retype name (writtenType type)
        recordType id type
        meetWrite name ScopeTable.root (0 < depth))
      (if 0 < depth then recordType id .unknown
        else fail (.undeclaredAssignment name) position) ps := by
  have apart : ¬ r.Exact := fun exact => exact.not_drops drops
  by_cases inside : 0 < depth
  · rw [if_pos inside, decide_eq_true inside]
    refine follows_left (fun _ _ _ _ _ beside run => ?_) fun _ =>
      follows_left (fun _ _ _ _ _ beside run => ?_) fun _ =>
        follows_left (fun _ _ _ _ _ beside run => ?_) fun _ =>
          follows_modify (fun _ => rfl) (fun _ => rfl) fun _ _ exact => absurd exact apart
    · cases run
      exact ⟨beside.of_apart apart rfl rfl, Nat.le_refl _⟩
    · cases run
      exact beside.retype_left apart name _
    · cases run
      exact ⟨beside.of_apart apart rfl rfl, Nat.le_refl _⟩
  · rw [if_neg inside, decide_eq_false inside]
    refine follows_breaks drops writes (fun _ _ _ _ run => ?_) position
    cases run
    exact List.mem_cons_self

/-- A name that is bound anew was written in an entity. -/
theorem follows_write_of_gains {name : String} (gains : r.Gains name) (id : Nat)
    (position : Position) (kind : SymbolKind) (type : TypeExpr) (depth : Nat) :
    r.Follows
      (if 0 < depth then recordType id .unknown
        else fail (.undeclaredAssignment name) position)
      (do
        recordMeaning id ⟨ScopeTable.root, kind⟩
        retype name (writtenType type)
        recordType id type
        meetWrite name ScopeTable.root (0 < depth)) ps := by
  have apart : ¬ r.Exact := fun exact => exact.not_gains gains
  by_cases inside : 0 < depth
  · rw [if_pos inside, decide_eq_true inside]
    refine follows_right (fun _ _ _ beside => ⟨_, _, rfl, beside.of_apart apart rfl rfl⟩) fun _ =>
      follows_right (fun _ _ _ beside => ⟨_, _, rfl, beside.retype_right apart name _⟩) fun _ =>
        follows_right (fun _ _ _ beside => ⟨_, _, rfl, beside.of_apart apart rfl rfl⟩) fun _ =>
          follows_modify (fun _ => rfl) (fun _ => rfl) fun _ _ exact => absurd exact apart
  · rw [if_neg inside]
    exact follows_fail _ _

/-- A name is written. -/
theorem follows_writeName (id : Nat) (position : Position) {name : String} {type type' : TypeExpr}
    (writes : ∃ p ∈ ps, p.Writes name) (equal : r.Exact → type = type') :
    r.Follows (writeName id position name type) (writeName id position name type') ps := by
  refine follows_get fun s t beside => follows_then (follows_meet id name) fun _ _ _ => ?_
  have entityOnly : r.Follows
      (if 0 < s.entityDepth then recordType id .unknown
        else fail (.undeclaredAssignment name) position)
      (if 0 < t.entityDepth then recordType id .unknown
        else fail (.undeclaredAssignment name) position) ps :=
    follows_ite (by rw [beside.entityDepth]) (fun _ => follows_recordType id fun _ => rfl)
      fun _ => follows_fail _ _
  rcases beside.lookup name with
    ⟨found, entry, entry', meaning, meaning', known, same, kept⟩ | ⟨meaning, meaning', -⟩ |
      ⟨drops, ⟨entry, meaning, known⟩, unknown⟩ | ⟨gains, unknown, entry', meaning', known⟩
  · rw [meaning, meaning']
    have sameKnown : (entry.kind != .unknown) = true ↔ (entry'.kind != .unknown) = true :=
      iff_of_eq (congrArg (· = true) known.symm)
    refine follows_ite sameKnown (fun isKnown => ?_) fun _ => entityOnly
    refine follows_then (follows_recordMeaning id fun exact => by rw [same exact]) fun _ _ _ =>
      follows_then (follows_retype name fun exact => by rw [equal exact]) fun _ _ _ =>
        follows_then (follows_recordType id equal) fun _ _ _ => ?_
    rw [beside.entityDepth]
    exact follows_meetWrite name fun atRoot _ => kept atRoot isKnown
  · rw [meaning, meaning']
    exact entityOnly
  · have dropped := follows_write_of_drops drops writes id position entry.kind type s.entityDepth
    have known' : (entry.kind != .unknown) = true := known
    rw [meaning, beside.entityDepth]
    rcases unknown with meaning' | ⟨entry', meaning', isUnknown⟩
    · rw [meaning']
      simp only [known', if_true]
      exact dropped
    · have isUnknown' : (entry'.kind != .unknown) = false := isUnknown
      rw [meaning']
      simp only [known', isUnknown', Bool.false_eq_true, if_true, if_false]
      exact dropped
  · have gained : r.Follows _ _ ps :=
      follows_write_of_gains gains id position entry'.kind type' s.entityDepth
    have known' : (entry'.kind != .unknown) = true := known
    rw [meaning', beside.entityDepth]
    rcases unknown with meaning | ⟨entry, meaning, isUnknown⟩
    · rw [meaning]
      simp only [known', if_true]
      exact gained
    · have isUnknown' : (entry.kind != .unknown) = false := isUnknown
      rw [meaning]
      simp only [known', isUnknown', Bool.false_eq_true, if_true, if_false]
      exact gained

/-- A name of a pattern that is dropped can be written in an entity only. -/
theorem follows_check_of_drops {name : String} (drops : r.Drops name)
    (writes : ∃ p ∈ ps, p.Writes name) (position : Position) (depth : Nat) :
    r.Follows (meetWrite name ScopeTable.root (0 < depth))
      (if depth == 0 then fail (.undeclaredAssignment name) position else pure ()) ps := by
  by_cases outside : depth = 0
  · simp only [outside, beq_self_eq_true, if_true]
    refine follows_breaks drops writes (fun _ _ _ _ run => ?_) position
    cases run
    exact List.mem_cons_self
  · rw [decide_eq_true (Nat.pos_of_ne_zero outside), if_neg (by simpa using outside)]
    show r.Follows _ (modify id) ps
    exact follows_modify (fun _ => rfl) (fun _ => rfl) fun _ _ exact =>
      absurd drops exact.not_drops

/-- A name of a pattern that is bound anew was written in an entity. -/
theorem follows_check_of_gains {name : String} (gains : r.Gains name) (position : Position)
    (depth : Nat) :
    r.Follows (if depth == 0 then fail (.undeclaredAssignment name) position else pure ())
      (meetWrite name ScopeTable.root (0 < depth)) ps := by
  by_cases outside : depth = 0
  · rw [if_pos (by simpa using outside)]
    exact follows_fail _ _
  · rw [decide_eq_true (Nat.pos_of_ne_zero outside), if_neg (by simpa using outside)]
    show r.Follows (modify id) _ ps
    exact follows_modify (fun _ => rfl) (fun _ => rfl) fun _ _ exact =>
      absurd gains exact.not_gains

/-- A name of a pattern is written. -/
theorem follows_checkName (position : Position) {name : String}
    (writes : ∃ p ∈ ps, p.Writes name) :
    r.Follows (checkName position name) (checkName position name) ps := by
  refine follows_get fun s t beside => ?_
  have entityOnly : r.Follows
      (if s.entityDepth == 0 then fail (.undeclaredAssignment name) position else pure ())
      (if t.entityDepth == 0 then fail (.undeclaredAssignment name) position else pure ()) ps := by
    rw [beside.entityDepth]
    exact follows_ite .rfl (fun _ => follows_fail _ _) fun _ => follows_pure fun _ => rfl
  rcases beside.lookup name with
    ⟨found, entry, entry', meaning, meaning', known, -, kept⟩ | ⟨meaning, meaning', -⟩ |
      ⟨drops, ⟨entry, meaning, known⟩, unknown⟩ | ⟨gains, unknown, entry', meaning', known⟩
  · rw [meaning, meaning']
    have sameKnown : (entry.kind != .unknown) = true ↔ (entry'.kind != .unknown) = true :=
      iff_of_eq (congrArg (· = true) known.symm)
    refine follows_ite sameKnown (fun isKnown => ?_) fun _ => entityOnly
    rw [beside.entityDepth]
    exact follows_meetWrite name fun atRoot _ => kept atRoot isKnown
  · rw [meaning, meaning']
    exact entityOnly
  · have dropped := follows_check_of_drops drops writes position s.entityDepth
    have known' : (entry.kind != .unknown) = true := known
    rw [meaning, beside.entityDepth]
    rcases unknown with meaning' | ⟨entry', meaning', isUnknown⟩
    · rw [meaning']
      simp only [known', if_true]
      exact dropped
    · have isUnknown' : (entry'.kind != .unknown) = false := isUnknown
      rw [meaning']
      simp only [known', isUnknown', Bool.false_eq_true, if_true, if_false]
      exact dropped
  · have gained : r.Follows _ _ ps := follows_check_of_gains gains position s.entityDepth
    have known' : (entry'.kind != .unknown) = true := known
    rw [meaning', beside.entityDepth]
    rcases unknown with meaning | ⟨entry, meaning, isUnknown⟩
    · rw [meaning]
      simp only [known', if_true]
      exact gained
    · have isUnknown' : (entry.kind != .unknown) = false := isUnknown
      rw [meaning]
      simp only [known', isUnknown', Bool.false_eq_true, if_true, if_false]
      exact gained

theorem follows_checkPatternNames (p : Pattern) (position : Position) :
    r.Follows (checkPatternNames p position) (checkPatternNames p position) [.pattern p] := by
  have visited (names : List String) (sub : ∀ name ∈ names, name ∈ p.bindings) :
      r.Follows (names.forM (checkName position)) (names.forM (checkName position))
        [.pattern p] := by
    induction names with
    | nil => exact follows_pure fun _ => rfl
    | cons name names ih =>
      have writes : ∃ part ∈ [Part.pattern p], part.Writes name :=
        ⟨_, List.mem_singleton_self _, sub name List.mem_cons_self⟩
      have rest := ih fun other mem => sub other (List.mem_cons_of_mem _ mem)
      refine (follows_bind (follows_checkName position writes)
        (fun _ _ _ _ _ => onward_forM (onward_checkName position) names) fun _ _ _ => rest).mono ?_
      intro part mem other isWritten
      exact ⟨part, by simpa using mem, isWritten⟩
  exact visited p.bindings fun _ mem => mem

/-- The type of a name inside a namespace. -/
theorem follows_scopedType (space : Expr) (name : String) :
    r.Follows (scopedType space name) (scopedType space name) ps := by
  refine follows_get fun s t beside => ?_
  split
  · next spaceName _ =>
    refine follows_pure fun exact => ?_
    have same := beside.same exact
    have inSpace (s : State) : (do (← s.table.scope? (← s.spaces.lookup spaceName)).get? name) =
        (s.spaces.lookup spaceName).bind fun id => s.table.held? id name := rfl
    rw [inSpace, inSpace, same.spaces, funext fun id => same.table.held? id name]
  · exact follows_pure fun _ => rfl

/-! ### Surroundings -/

/-- A change that keeps the two analyses beside each other. -/
theorem follows_change {g g' : State → State}
    (h : ∀ s t, r.Beside s t → r.Beside (g s) (g' t) ∧ (g s).table = s.table) :
    r.Follows (modify g) (modify g') ps := by
  intro setting s t a s' strict beside run
  cases run
  obtain ⟨beside', table⟩ := h s t beside
  exact .inl ⟨(), g' t, rfl, beside', Nat.le_of_eq (by rw [table]), fun _ => rfl⟩

/-- Steps before others that write to nothing and forget nothing. -/
theorem follows_finish (h : r.Follows x x' ps) (onward : ∀ a, Onward (f a))
    (h' : ∀ a a', (r.Exact → a = a') → r.Follows (f a) (f' a') []) :
    r.Follows (x >>= f) (x' >>= f') ps :=
  List.append_nil ps ▸ follows_bind h (fun _ _ _ _ => onward) h'

/-- A change of how many entities and loops are open. -/
theorem Beside.of_depths (h : r.Beside s t) {entities entities' loops loops' : Nat}
    (entityDepth : entities' = entities) (loopDepth : loops' = loops) :
    r.Beside { s with entityDepth := entities, loopDepth := loops }
      { t with entityDepth := entities', loopDepth := loops' } :=
  ⟨h.tables, h.there, h.inner, h.current, entityDepth, loopDepth, h.spared, fun exact =>
    have same := h.same exact
    ⟨same.table, same.types, same.meanings, same.warnings, same.spaces, same.boundaries⟩⟩

theorem follows_inScope (kind : ScopeKind) (h : r.Follows x x' ps) :
    r.Follows (inScope kind x) (inScope kind x') ps := by
  intro setting s t a s' strict beside run
  obtain ⟨s₂, work, rfl⟩ := inScope_eq_ok run
  let s₁ : State := { s with table := (s.table.push s.current kind).2, current := s.table.size }
  let t₁ : State := { t with table := (t.table.push t.current kind).2, current := t.table.size }
  have grown : s.table.size ≤ s₁.table.size := by
    rw [ScopeTable.size_push]
    exact Nat.le_succ _
  have entered : r.Beside s₁ t₁ := by
    refine ⟨?_, ?_, Nat.ne_of_gt (Nat.zero_lt_of_lt beside.there), beside.tables.shape.size,
      beside.entityDepth, beside.loopDepth, beside.spared, fun exact => ?_⟩
    · show r.Tables (s.table.push s.current kind).2 (t.table.push t.current kind).2
      rw [beside.current]
      exact beside.tables.push beside.there
    · show s.table.size < (s.table.push s.current kind).2.size
      rw [ScopeTable.size_push]
      exact Nat.lt_succ_self _
    · obtain ⟨table, types, meanings, warnings, spaces, boundaries⟩ := beside.same exact
      refine ⟨?_, types, meanings, warnings, spaces, boundaries⟩
      show (s.table.push s.current kind).2.Alike (t.table.push t.current kind).2
      rw [beside.current]
      exact table.push _ _
  have second : inScope kind x' setting t = (do
      let result ← x'
      modify ({ · with current := t.current })
      return result : Analyzer _) setting t₁ := rfl
  rw [second]
  rcases h setting s₁ t₁ a s₂ strict entered work with
    ⟨b, t₂, goes, beside', grown', same⟩ | ⟨name, position, failed, breaks⟩
  · rw [bind_of_ok goes]
    have grown'' : s.table.size ≤ s₂.table.size := Nat.le_trans grown grown'
    refine .inl ⟨b, { t₂ with current := t.current }, rfl,
      ⟨beside'.tables, Nat.lt_of_lt_of_le beside.there grown'', beside.inner, beside.current,
        beside'.entityDepth, beside'.loopDepth, beside'.spared, fun exact => ?_⟩, grown'', same⟩
    obtain ⟨table, types, meanings, warnings, spaces, boundaries⟩ := beside'.same exact
    exact ⟨table, types, meanings, warnings, spaces, boundaries⟩
  · rw [bind_of_error failed]
    exact .inr ⟨name, position, rfl, breaks.drops, breaks.isOverwritten, breaks.writes⟩

theorem follows_inEntity (h : r.Follows x x' ps) :
    r.Follows (inEntity x) (inEntity x') ps :=
  follows_then (follows_change fun _ _ beside =>
      ⟨beside.of_depths (congrArg (· + 1) beside.entityDepth) beside.loopDepth, rfl⟩) fun _ _ _ =>
    follows_finish (follows_inScope .entity h) (onward_leave fun _ => rfl) fun _ _ same =>
      follows_then (follows_change fun _ _ beside =>
        ⟨beside.of_depths (congrArg (· - 1) beside.entityDepth) beside.loopDepth, rfl⟩)
      fun _ _ _ => follows_pure same

theorem follows_inLoop (h : r.Follows x x' ps) : r.Follows (inLoop x) (inLoop x') ps :=
  follows_then (follows_change fun _ _ beside =>
      ⟨beside.of_depths beside.entityDepth (congrArg (· + 1) beside.loopDepth), rfl⟩) fun _ _ _ =>
    follows_finish h (onward_leave fun _ => rfl) fun _ _ same => follows_then
      (follows_change fun _ _ beside =>
        ⟨beside.of_depths beside.entityDepth (congrArg (· - 1) beside.loopDepth), rfl⟩)
      fun _ _ _ => follows_pure same

theorem follows_outsideLoops (h : r.Follows x x' ps) :
    r.Follows (outsideLoops x) (outsideLoops x') ps :=
  follows_get fun _ _ outer => follows_then
      (follows_change fun _ _ beside => ⟨beside.of_depths beside.entityDepth rfl, rfl⟩)
    fun _ _ _ => follows_finish h (onward_leave fun _ => rfl) fun _ _ same => follows_then
      (follows_change fun _ _ beside => ⟨beside.of_depths beside.entityDepth outer.loopDepth, rfl⟩)
      fun _ _ _ => follows_pure same

theorem follows_inBoundary (h : r.Follows x x' ps) :
    r.Follows (inBoundary x) (inBoundary x') ps := by
  refine follows_then (follows_modify (fun _ => rfl) (fun _ => rfl) fun _ _ _ _ same =>
      ⟨same.table, same.types, same.meanings, same.warnings, same.spaces,
        by simp only [same.boundaries]⟩) fun _ _ _ =>
    follows_finish h onward_leaveBoundary
      fun a a' equal => follows_get fun s t beside => follows_then
        (follows_modify (fun _ => rfl) (fun _ => rfl) fun _ _ _ _ same =>
          ⟨same.table, same.types, same.meanings, same.warnings, same.spaces,
            by simp only [same.boundaries]⟩) fun _ _ _ => follows_pure fun exact => ?_
  rw [equal exact, (beside.same exact).boundaries]

/-! ### Single steps of the walk -/

theorem follows_infer_name {e : Expr} {name : String} (named : e.kind = .name name) :
    r.Follows (infer e) (infer e) ps := by
  obtain ⟨id, position, kind⟩ := e
  obtain rfl : kind = .name name := named
  unfold infer inferKind
  exact follows_then (follows_readName id position name) fun _ _ equal =>
    follows_then (follows_recordType id equal) fun _ _ _ => follows_pure equal

/-- Steps that only add warnings. -/
theorem follows_of_remarks (h : ∃ a remarks, Remarks x a remarks)
    (h' : ∃ a remarks, Remarks x' a remarks) (equal : r.Exact → x = x') : r.Follows x x' ps := by
  obtain ⟨a, remarks, said⟩ := h
  obtain ⟨a', remarks', said'⟩ := h'
  intro setting s t b s' strict beside run
  cases (said.run setting s).symm.trans run
  refine .inl ⟨a', _, said'.run setting t, beside.of_core rfl rfl fun exact => ?_, Nat.le_refl _,
    fun exact => ?_⟩
  · obtain rfl := equal exact
    have twice := Except.ok.inj ((said.run setting t).symm.trans (said'.run setting t))
    have remarked : t.warnings ++ remarks = t.warnings ++ remarks' := congrArg (·.2.warnings) twice
    have same := beside.same exact
    exact ⟨same.table, same.types, same.meanings, by rw [← remarked, same.warnings], same.spaces,
      same.boundaries⟩
  · obtain rfl := equal exact
    exact (Prod.mk.inj (Except.ok.inj ((said.run setting t).symm.trans (said'.run setting t)))).1

/-- Steps that only let through. -/
theorem follows_of_checks {x : Analyzer Unit} (checks : Checks x) : r.Follows x x ps := by
  intro setting s t a s' _ beside run
  obtain ⟨rfl, passes⟩ := checks setting s s' run
  exact .inl ⟨(), t, passes setting t beside.current beside.entityDepth beside.loopDepth, beside,
    Nat.le_refl _, fun _ => rfl⟩

end Rebinding

/-! ### The judgement -/

/-- The judgement that steps of an analysis among other bindings follow one another, and forget
nothing. -/
def following (r : Rebinding) : Judgement where
  alike := r.Exact
  holds x x' ps := Onward x ∧ r.Follows x x' ps
  inside x x' ps := Onward x ∧ r.Follows x x' ps

open Rebinding in
theorem following_bind {r : Rebinding} {α β : Type} {x x' : Analyzer α} {f f' : α → Analyzer β}
    {ps qs : List Part} (h : Onward x ∧ r.Follows x x' ps)
    (h' : ∀ a a', (r.Exact → a = a') → Onward (f a) ∧ r.Follows (f a) (f' a') qs) :
    Onward (x >>= f) ∧ r.Follows (x >>= f) (x' >>= f') (ps ++ qs) :=
  have onward (a : α) : Onward (f a) := (h' a a fun _ => rfl).1
  ⟨onward_bind h.1 onward,
    follows_bind h.2 (fun _ _ _ _ => onward) fun a a' equal => (h' a a' equal).2⟩

open Rebinding in
theorem following_lawful (r : Rebinding) : (following r).Lawful where
  ret same := ⟨onward_pure _, follows_pure same⟩
  bind h h' := following_bind h h'
  parts same h := ⟨h.1, h.2.mono fun p mem _ writes => ⟨p, (same p).mp mem, writes⟩⟩
  again written h := ⟨h.1, h.2.mono fun p mem name writes => by
    rcases List.mem_cons.mp mem with rfl | mem
    · exact writes.elim
    · exact ⟨p, mem, writes⟩⟩
  remark h h' equal := ⟨onward_of_remarks h, follows_of_remarks h h' equal⟩
  check checks := ⟨onward_of_checks checks, follows_of_checks checks⟩
  scopedType space name := ⟨onward_scopedType space name, follows_scopedType space name⟩
  nameSpace name := ⟨onward_modify fun _ => rfl, follows_nameSpace name⟩
  complete equal := ⟨onward_complete _, follows_complete equal⟩
  retype name _ _ equal := ⟨onward_modify fun _ => rfl, follows_retype name equal⟩
  declare name _ _ assignable _ _ position known known' _ _ equal :=
    ⟨onward_declare name _ assignable _ position,
      follows_declare name assignable position known known' equal⟩
  keep _ _ _ _ _ _ equal := ⟨onward_recordType _ _, follows_recordType _ equal⟩
  name named := ⟨onward_infer_name named, follows_infer_name named⟩
  write named equal := ⟨onward_writeName _ _ _ _,
    follows_writeName _ _ ⟨_, List.mem_singleton_self _, named⟩ equal⟩
  pattern p position := ⟨onward_checkPatternNames p position, follows_checkPatternNames p position⟩
  inScope kind _ _ _ _ h := ⟨onward_inScope kind h.1, follows_inScope kind h.2⟩
  enter h := h
  insideBind h h' := following_bind h h'
  member name _ _ position equal := ⟨onward_declare name _ _ _ position,
    follows_declare name true position (by decide) (by decide) fun exact => ⟨rfl, equal exact⟩⟩
  inEntity h := ⟨onward_inEntity h.1, follows_inEntity h.2⟩
  inLoop h := ⟨onward_inLoop h.1, follows_inLoop h.2⟩
  outsideLoops h := ⟨onward_outsideLoops h.1, follows_outsideLoops h.2⟩
  inBoundary h := ⟨onward_inBoundary h.1, follows_inBoundary h.2⟩

end ScriptEngine
