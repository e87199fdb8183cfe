import ScriptEngine.Proofs.Analysis.Balance
import ScriptEngine.Proofs.Analysis.Start
import ScriptEngine.Proofs.Analysis.Walk

/-!
# An analysis finds something for every expression

The scopes of a table are only added to: no scope loses a name, and no name becomes of another kind.
So what was found about a name when it was met is still there at the end.

* `ScopeTable.Extends`: a table that has been added to.
* `Accounts`: why a name has a meaning.
* `State.Sound`: the invariant of an analysis: what is declared and what names mean goes back to what
  was come across.
* `State.Covers`: some steps have kept the types and the meanings of some parts of a tree.
* `covering`: the judgement that steps cover the parts that they walk over.
-/

namespace ScriptEngine

/-- A table that has been added to: no scope has moved, no name is lost or of another kind. -/
structure ScopeTable.Extends (t t' : ScopeTable) : Prop where
  size : t.size ≤ t'.size
  parent? : ∀ id, id < t.size → t'.parent? id = t.parent? id
  kind? : ∀ id, id < t.size → t'.kind? id = t.kind? id
  held? : ∀ id name entry, t.held? id name = some entry →
    ∃ entry', t'.held? id name = some entry' ∧ entry'.kind = entry.kind

namespace ScopeTable.Extends

variable {t t' t'' : ScopeTable}

/-- What is appended to keeps the kinds of all names. -/
theorem of_appends (h : t.Appends t') : t.Extends t' where
  size := h.size
  parent? := h.parent?
  kind? := h.kind?
  held? id name entry held := by
    obtain ⟨_, held'⟩ := h.held? id name entry held
    exact ⟨_, held', rfl⟩

theorem refl (t : ScopeTable) : t.Extends t := .of_appends (.refl t)

theorem trans (h : t.Extends t') (h' : t'.Extends t'') : t.Extends t'' where
  size := Nat.le_trans h.size h'.size
  parent? id there :=
    (h'.parent? id (Nat.lt_of_lt_of_le there h.size)).trans (h.parent? id there)
  kind? id there := (h'.kind? id (Nat.lt_of_lt_of_le there h.size)).trans (h.kind? id there)
  held? id name entry held := by
    obtain ⟨entry', held', same⟩ := h.held? id name entry held
    obtain ⟨entry'', held'', same'⟩ := h'.held? id name entry' held'
    exact ⟨entry'', held'', same'.trans same⟩

/-- The scopes around a scope stay what they are. -/
theorem within_iff (h : t.Extends t') (rooted : t.Rooted) {id outer : ScopeId}
    (there : id < t.size) : t'.Within id outer ↔ t.Within id outer := by
  constructor
  · intro within
    induction within with
    | refl => exact .refl _
    | step outward _ ih =>
      rw [h.parent? _ there] at outward
      exact .step outward (ih (Nat.lt_trans (rooted.earlier outward) there))
  · intro within
    induction within with
    | refl => exact .refl _
    | step outward _ ih =>
      exact .step ((h.parent? _ there).trans outward)
        (ih (Nat.lt_trans (rooted.earlier outward) there))

/-- A name that a scope does not hold is added to it. -/
theorem define {id : ScopeId} {entry : SymbolEntry} (fresh : t.held? id entry.name = none) :
    t.Extends (t.define id entry) :=
  .of_appends (.define fresh)

theorem push {parent : ScopeId} {kind : ScopeKind} : t.Extends (t.push parent kind).2 :=
  .of_appends .push

/-- The type of a name may change, its kind does not. -/
theorem retype {id : ScopeId} {name : String} {f : TypeExpr → TypeExpr} :
    t.Extends (t.retype id name f) :=
  .of_appends .retype

end ScopeTable.Extends

/-- A name was met in a scope, and its meaning is in that scope or outwards: it is a declaration of the
name there, or a member of an entity because the name was not declared outwards by then. -/
def Accounts (t : ScopeTable) (trace : List Encounter) (id : Nat) (name : String)
    (ref : SymbolRef) : Prop :=
  ∃ scope earlier, .met id name scope :: earlier <:+ trace ∧ scope < t.size ∧
    t.Within scope ref.scope ∧
      ((∃ entry, t.held? ref.scope name = some entry ∧ entry.kind = ref.kind) ∨
        ref.kind = .member ∧ t.kind? ref.scope = some .entity ∧
          ∀ outer, t.Within scope outer → .declared outer name ∉ earlier)

/-- A meaning that is accounted for stays so. -/
theorem Accounts.extend {t t' : ScopeTable} {trace trace' : List Encounter} {id : Nat}
    {name : String} {ref : SymbolRef} (h : Accounts t trace id name ref) (rooted : t.Rooted)
    (table : t.Extends t') (onward : trace <:+ trace') : Accounts t' trace' id name ref := by
  obtain ⟨scope, earlier, met, there, within, meaning⟩ := h
  refine ⟨scope, earlier, met.trans onward, Nat.lt_of_lt_of_le there table.size,
    (table.within_iff rooted there).mpr within, ?_⟩
  rcases meaning with ⟨entry, held, same⟩ | ⟨member, entity, unknown⟩
  · obtain ⟨entry', held', same'⟩ := table.held? _ _ _ held
    exact .inl ⟨entry', held', same'.trans same⟩
  · refine .inr ⟨member, ?_, fun outer outwards =>
      unknown outer ((table.within_iff rooted there).mp outwards)⟩
    have inside : ref.scope < t.size := by
      obtain ⟨_, found, -⟩ := Option.map_eq_some_iff.mp entity
      exact (Array.getElem?_eq_some_iff.mp found).1
    rw [table.kind? _ inside, entity]

namespace Analyzing

namespace State

/-- The invariant of an analysis: the current scope is there, inside an entity wherever the number of
entities says so, and what is declared and what names mean goes back to what was come across. -/
structure Sound (s : State) : Prop where
  rooted : s.table.Rooted
  there : s.current < s.table.size
  entity : 0 < s.entityDepth →
    ∃ outer, s.table.Within s.current outer ∧ s.table.kind? outer = some .entity
  declared : ∀ id name, (s.table.held? id name).isSome ↔ .declared id name ∈ s.trace
  meanings : ∀ id ref, s.meanings[id]? = some ref →
    ∃ name, Accounts s.table s.trace id name ref

/-- Nothing that was known is lost. -/
structure Grows (s s' : State) : Prop where
  table : s.table.Extends s'.table
  trace : s.trace <:+ s'.trace
  types : ∀ id, id ∈ s.types → id ∈ s'.types
  meanings : ∀ id, id ∈ s.meanings → id ∈ s'.meanings

/-- Some steps have lost nothing, and have met no other names than some. -/
structure Meets (names : Nat → String → Prop) (s s' : State) : Prop where
  sound : s'.Sound
  grows : s.Grows s'
  current : s'.current = s.current
  entityDepth : s'.entityDepth = s.entityDepth
  met : ∀ id name scope, .met id name scope ∈ s'.trace →
    .met id name scope ∈ s.trace ∨ names id name

/-- A part of a tree is a name with this number. -/
def Names (ps : List Part) (id : Nat) (name : String) : Prop :=
  ∃ p ∈ ps, ∃ e, p.expr? = some e ∧ e.id = id ∧ e.kind = .name name

/-- Some steps have kept the types and the meanings of some parts of a tree, and have met no other
names than theirs. -/
structure Covers (ps : List Part) (s s' : State) : Prop extends Meets (Names ps) s s' where
  types : ∀ p ∈ ps, ∀ e, p.expr? = some e → e.id ∈ s'.types
  meanings : ∀ e name, .value e ∈ ps → e.kind = .name name → e.id ∈ s'.meanings

variable {s s' s'' : State} {ps qs : List Part} {names : Nat → String → Prop}

theorem Grows.trans (h : s.Grows s') (h' : s'.Grows s'') : s.Grows s'' :=
  ⟨h.table.trans h'.table, h.trace.trans h'.trace, fun id known => h'.types id (h.types id known),
    fun id known => h'.meanings id (h.meanings id known)⟩

/-- Where no trace is left, no name is met. -/
theorem Meets.of_trace (sound : s'.Sound) (grows : s.Grows s') (current : s'.current = s.current)
    (entityDepth : s'.entityDepth = s.entityDepth) (trace : s'.trace = s.trace) :
    Meets names s s' :=
  ⟨sound, grows, current, entityDepth, fun _ _ _ mem => .inl (trace ▸ mem)⟩

/-- What names and types are found by. -/
def known (s : State) : ScopeTable × ScopeId × Nat × List Encounter ×
    Std.HashMap Nat SymbolRef × Std.HashMap Nat TypeExpr :=
  (s.table, s.current, s.entityDepth, s.trace, s.meanings, s.types)

/-- Whatever else may have changed. -/
theorem Meets.of_known (sound : s.Sound) (same : s'.known = s.known) : Meets names s s' := by
  obtain ⟨table, current, types, meanings, warnings, spaces, entityDepth, loopDepth, boundaries,
    trace⟩ := s
  obtain ⟨_, _, _, _, _, _, _, _, _, _⟩ := s'
  simp only [known, Prod.mk.injEq] at same
  obtain ⟨rfl, rfl, rfl, rfl, rfl, rfl⟩ := same
  exact .of_trace ⟨sound.rooted, sound.there, sound.entity, sound.declared, sound.meanings⟩
    ⟨.refl _, List.suffix_rfl, fun _ h => h, fun _ h => h⟩ rfl rfl rfl

theorem Meets.trans (h : Meets names s s') (h' : Meets names s' s'') : Meets names s s'' where
  sound := h'.sound
  grows := h.grows.trans h'.grows
  current := h'.current.trans h.current
  entityDepth := h'.entityDepth.trans h.entityDepth
  met id name scope mem := (h'.met id name scope mem).elim (h.met id name scope) .inr

theorem Meets.mono {names' : Nat → String → Prop} (h : Meets names s s')
    (le : ∀ id name, names id name → names' id name) : Meets names' s s' :=
  ⟨h.sound, h.grows, h.current, h.entityDepth,
    fun id name scope mem => (h.met id name scope mem).imp_right (le id name)⟩

/-- Steps that walk over no parts. -/
theorem Meets.covers (h : Meets (Names []) s s') : Covers [] s s' :=
  ⟨h, fun _ mem => absurd mem List.not_mem_nil, fun _ _ mem => absurd mem List.not_mem_nil⟩

theorem Covers.trans (h : Covers ps s s') (h' : Covers qs s' s'') : Covers (ps ++ qs) s s'' where
  toMeets := (h.toMeets.mono fun _ _ ⟨p, mem, same⟩ => ⟨p, List.mem_append_left _ mem, same⟩).trans
    (h'.toMeets.mono fun _ _ ⟨p, mem, same⟩ => ⟨p, List.mem_append_right _ mem, same⟩)
  types p mem e same := by
    rcases List.mem_append.mp mem with mem | mem
    · exact h'.grows.types _ (h.types p mem e same)
    · exact h'.types p mem e same
  meanings e name mem same := by
    rcases List.mem_append.mp mem with mem | mem
    · exact h'.grows.meanings _ (h.meanings e name mem same)
    · exact h'.meanings e name mem same

/-! ### Single changes -/

/-- The table may be added to if that is come across. -/
theorem Sound.extend (h : s.Sound) {table : ScopeTable} {trace : List Encounter}
    (extends' : s.table.Extends table) (rooted : table.Rooted) (onward : s.trace <:+ trace)
    (declared : ∀ id name, (table.held? id name).isSome ↔ .declared id name ∈ trace) :
    Sound { s with table, trace } where
  rooted := rooted
  there := Nat.lt_of_lt_of_le h.there extends'.size
  entity inside := by
    obtain ⟨outer, within, kind⟩ := h.entity inside
    refine ⟨outer, (extends'.within_iff h.rooted h.there).mpr within, ?_⟩
    have there : outer < s.table.size := by
      obtain ⟨_, found, -⟩ := Option.map_eq_some_iff.mp kind
      exact (Array.getElem?_eq_some_iff.mp found).1
    exact (extends'.kind? outer there).trans kind
  declared := declared
  meanings id ref recorded := by
    obtain ⟨name, accounts⟩ := h.meanings id ref recorded
    exact ⟨name, accounts.extend h.rooted extends' onward⟩

/-- A name is met in the current scope. -/
theorem Sound.meet (h : s.Sound) {id : Nat} {name : String} (here : names id name) :
    Meets names s { s with trace := .met id name s.current :: s.trace } where
  sound := h.extend (.refl _) h.rooted (List.suffix_cons _ _) fun _ _ => by simp [h.declared]
  grows := ⟨.refl _, List.suffix_cons _ _, fun _ h => h, fun _ h => h⟩
  current := rfl
  entityDepth := rfl
  met other asked scope mem := by
    rcases List.mem_cons.mp mem with same | mem
    · obtain ⟨rfl, rfl, -⟩ := Encounter.met.inj same
      exact .inr here
    · exact .inl mem

/-- A name is written, wherever that is. -/
theorem Sound.meetWrite (h : s.Sound) (name : String) (scope : ScopeId) (inside : Bool) :
    Meets names s { s with trace := .written name scope inside :: s.trace } where
  sound := h.extend (.refl _) h.rooted (List.suffix_cons _ _) fun _ _ => by simp [h.declared]
  grows := ⟨.refl _, List.suffix_cons _ _, fun _ h => h, fun _ h => h⟩
  current := rfl
  entityDepth := rfl
  met _ _ _ mem := .inl (by simpa using mem)

/-- A meaning that is accounted for may be recorded. -/
theorem Sound.mean (h : s.Sound) {id : Nat} {name : String} {ref : SymbolRef}
    (accounts : Accounts s.table s.trace id name ref) :
    Meets names s { s with meanings := s.meanings.insert id ref } := by
  refine .of_trace ⟨h.rooted, h.there, h.entity, h.declared, fun asked found recorded => ?_⟩
    ⟨.refl _, List.suffix_rfl, fun _ h => h, fun asked known => by simp [known]⟩ rfl rfl rfl
  rw [Std.HashMap.getElem?_insert] at recorded
  split at recorded
  · next same =>
    obtain rfl := Option.some.inj recorded
    exact ⟨name, beq_iff_eq.mp same ▸ accounts⟩
  · exact h.meanings asked found recorded

/-- A type may be recorded. -/
theorem Sound.type (h : s.Sound) (id : Nat) (type : TypeExpr) :
    Meets names s { s with types := s.types.insert id type } :=
  .of_trace ⟨h.rooted, h.there, h.entity, h.declared, h.meanings⟩
    ⟨.refl _, List.suffix_rfl, fun asked known => by simp [known], fun _ h => h⟩ rfl rfl rfl

/-- A name that a scope does not hold is declared in it. -/
theorem Sound.define (h : s.Sound) (id : ScopeId) (entry : SymbolEntry) (there : id < s.table.size)
    (fresh : s.table.held? id entry.name = none) :
    Meets names s { s with
      table := s.table.define id entry
      trace := .declared id entry.name :: s.trace } := by
  have sound : Sound { s with
      table := s.table.define id entry
      trace := .declared id entry.name :: s.trace } := by
    refine h.extend (.define fresh) (ScopeTable.sameShape_define.rooted h.rooted)
      (List.suffix_cons _ _) fun other name => ?_
    rw [ScopeTable.held?_define, List.mem_cons, ← h.declared, Encounter.declared.injEq]
    by_cases same : id = other ∧ entry.name = name
    · obtain ⟨rfl, rfl⟩ := same
      simp [there]
    · have apart : ¬ (other = id ∧ name = entry.name) := fun h => same ⟨h.1.symm, h.2.symm⟩
      rw [if_neg fun all => same ⟨all.1, all.2.1⟩]
      simp [apart]
  refine ⟨sound, ⟨.define fresh, List.suffix_cons _ _, fun _ h => h, fun _ h => h⟩, rfl, rfl,
    fun _ _ _ mem => .inl ?_⟩
  simpa using mem

/-- A type of a declaration may change. -/
theorem Sound.retype (h : s.Sound) (name : String) (f : TypeExpr → TypeExpr) :
    Meets names s { s with table := s.table.retype s.current name f } := by
  have kept (id : ScopeId) (asked : String) :
      ((s.table.retype s.current name f).held? id asked).isSome =
        (s.table.held? id asked).isSome := by
    cases meaning : s.table.lookup s.current name with
    | none => rw [ScopeTable.retype_of_none meaning]
    | some found =>
      rw [ScopeTable.held?_retype meaning]
      split
      · next same =>
        obtain ⟨rfl, rfl⟩ := same
        rw [(ScopeTable.lookup_eq_some meaning).2]
        rfl
      · rfl
  refine .of_trace (h.extend .retype (ScopeTable.sameShape_retype.rooted h.rooted)
    List.suffix_rfl fun id asked => ?_) ⟨.retype, List.suffix_rfl, fun _ h => h, fun _ h => h⟩
    rfl rfl rfl
  rw [kept]
  exact h.declared id asked

end State

open State

/-- Every successful run of a step covers some parts. -/
def Covered {α : Type} (x : Analyzer α) (ps : List Part) : Prop :=
  ∀ setting s a s', x setting s = .ok (a, s') → s.Sound → Covers ps s s'

/-- A change of what neither names nor types are found by. -/
theorem covered_modify {g : State → State} (same : ∀ s, (g s).known = s.known) :
    Covered (modify g) [] := by
  intro setting s a s' run sound
  cases run
  exact (Meets.of_known sound (same s)).covers

theorem covered_get : Covered get [] := by
  intro setting s a s' run sound
  cases run
  exact (Meets.of_known sound rfl).covers

theorem covered_meetWrite (name : String) (scope : ScopeId) (inside : Bool) :
    Covered (meetWrite name scope inside) [] := by
  intro setting s a s' run sound
  cases run
  exact (sound.meetWrite name scope inside).covers

theorem covered_pure {α : Type} (a : α) : Covered (pure a) [] := by
  intro setting s a s' run sound
  cases run
  exact (Meets.of_known sound rfl).covers

theorem covered_fail {α : Type} (fault : SemanticFault) (position : Position) {ps : List Part} :
    Covered (fail fault position : Analyzer α) ps := by
  intro setting s a s' run
  cases run

theorem covered_ite {α : Type} {c : Prop} [Decidable c] {x y : Analyzer α} {ps : List Part}
    (h : Covered x ps) (h' : Covered y ps) : Covered (if c then x else y) ps := by
  split
  · exact h
  · exact h'

theorem covered_bind {α β : Type} {x : Analyzer α} {f : α → Analyzer β} {ps qs : List Part}
    (h : Covered x ps) (h' : ∀ a, Covered (f a) qs) : Covered (x >>= f) (ps ++ qs) := by
  intro setting s b s'' run sound
  obtain ⟨a, s', first, second⟩ := bind_eq_ok run
  have covers := h setting s a s' first sound
  exact covers.trans (h' a setting s' b s'' second covers.sound)

theorem covered_forM {ι : Type} {f : ι → Analyzer Unit} (h : ∀ i, Covered (f i) [])
    (items : List ι) : Covered (items.forM f) [] := by
  induction items with
  | nil => exact covered_pure ()
  | cons item items ih => exact covered_bind (h item) fun _ => ih

theorem covered_declare (name : String) (kind : SymbolKind) (assignable : Bool) (type : TypeExpr)
    (position : Position) : Covered (declare name kind assignable type position) [] := by
  intro setting s a s' run sound
  obtain ⟨_, _, first, run⟩ := bind_eq_ok run
  cases first
  cases declared : s.table.declare s.current ⟨name, kind, assignable, type, position⟩ with
  | ok table =>
    rw [declared] at run
    cases run
    obtain ⟨fresh, rfl⟩ := ScopeTable.declare_eq_ok declared
    exact (sound.define _ _ sound.there fresh).covers
  | error old =>
    rw [declared] at run
    cases run

theorem covered_retype (name : String) (f : TypeExpr → TypeExpr) : Covered (retype name f) [] := by
  intro setting s a s' run sound
  cases run
  exact (sound.retype name f).covers

/-- The type of a part is kept. -/
theorem covered_recordType {part : Part} {e : Expr} (same : part.expr? = some e)
    (plain : ∀ name, e.kind ≠ .name name) (type : TypeExpr) :
    Covered (recordType e.id type) [part] := by
  intro setting s a s' run sound
  cases run
  refine ⟨sound.type e.id type, fun p mem other same' => ?_, fun other name mem named => ?_⟩
  · obtain rfl := List.mem_singleton.mp mem
    obtain rfl := Option.some.inj (same.symm.trans same')
    exact Std.HashMap.mem_insert_self
  · obtain rfl := List.mem_singleton.mp mem
    obtain rfl := Option.some.inj same
    exact absurd named (plain name)

/-! ### Names -/

/-- A name that is met in the current scope has the meaning that is found outwards. -/
theorem accounts_of_lookup {s : State} (sound : s.Sound) {id : Nat} {name : String}
    {scope : ScopeId} {entry : SymbolEntry}
    (meaning : s.table.lookup s.current name = some (scope, entry)) :
    Accounts s.table (.met id name s.current :: s.trace) id name ⟨scope, entry.kind⟩ := by
  obtain ⟨within, held⟩ := ScopeTable.lookup_eq_some meaning
  exact ⟨s.current, s.trace, List.suffix_rfl, sound.there, within, .inl ⟨entry, held, rfl⟩⟩

/-- A name that is found nowhere inside an entity is taken for a member. -/
theorem accounts_of_member {s : State} (sound : s.Sound) {id : Nat} {name : String}
    (inside : 0 < s.entityDepth) (unknown : s.table.lookup s.current name = none) :
    Accounts s.table (.met id name s.current :: s.trace) id name
      ⟨(s.table.enclosing s.current .entity).getD s.current, .member⟩ := by
  obtain ⟨outer, outwards, ofEntity⟩ := sound.entity inside
  obtain ⟨scope, found, within, kind⟩ :=
    ScopeTable.exists_enclosing sound.rooted sound.there outwards ofEntity
  rw [found, Option.getD_some]
  refine ⟨s.current, s.trace, List.suffix_rfl, sound.there, within, .inr ⟨rfl, kind, ?_⟩⟩
  intro outer outwards declared
  have held := (sound.declared outer name).mpr declared
  rw [ScopeTable.held?_of_lookup_eq_none sound.rooted sound.there unknown outwards] at held
  cases held

/-- A name that is found nowhere is left to a run from the root on. -/
theorem accounts_of_supply {s : State} (sound : s.Sound) (id : Nat) {name : String}
    (position : Position) (unknown : s.table.lookup s.current name = none) :
    let entry : SymbolEntry := ⟨name, .unknown, true, .unknown, position⟩
    s.table.held? ScopeTable.root name = none ∧
      Accounts (s.table.define ScopeTable.root entry)
        (.declared ScopeTable.root name :: .met id name s.current :: s.trace) id name
        ⟨ScopeTable.root, .unknown⟩ := by
  have outwards := sound.rooted.within_root sound.there
  have fresh := ScopeTable.held?_of_lookup_eq_none sound.rooted sound.there unknown outwards
  have shape : s.table.SameShape
      (s.table.define ScopeTable.root ⟨name, .unknown, true, .unknown, position⟩) :=
    ScopeTable.sameShape_define
  refine ⟨fresh, s.current, s.trace, List.suffix_cons _ _,
    Nat.lt_of_lt_of_eq sound.there shape.size.symm,
    (shape.rooted sound.rooted).within_root (Nat.lt_of_lt_of_eq sound.there shape.size.symm),
    .inl ⟨⟨name, .unknown, true, .unknown, position⟩, ?_, rfl⟩⟩
  rw [ScopeTable.held?_define, if_pos]
  exact ⟨rfl, rfl, Nat.zero_lt_of_lt sound.there⟩

/-- A name that is read is met and has a meaning. -/
theorem meets_readName {id : Nat} {position : Position} {name : String} {setting : Setting}
    {s s' : State} {type : TypeExpr} {names : Nat → String → Prop} (here : names id name)
    (run : readName id position name setting s = .ok (type, s')) (sound : s.Sound) :
    Meets names s s' ∧ id ∈ s'.meanings := by
  obtain ⟨_, _, first, run⟩ := bind_eq_ok run
  cases first
  obtain ⟨_, _, first, run⟩ := bind_eq_ok run
  cases first
  have met := sound.meet here
  cases meaning : s.table.lookup s.current name with
  | some found =>
    obtain ⟨scope, entry⟩ := found
    rw [meaning] at run
    cases run
    exact ⟨met.trans (met.sound.mean (accounts_of_lookup sound meaning)),
      Std.HashMap.mem_insert_self⟩
  | none =>
    rw [meaning] at run
    by_cases inside : 0 < s.entityDepth
    · simp only [inside, if_true] at run
      cases run
      exact ⟨met.trans (met.sound.mean (accounts_of_member sound inside meaning)),
        Std.HashMap.mem_insert_self⟩
    · simp only [inside, if_false] at run
      obtain ⟨_, _, asked, run⟩ := bind_eq_ok run
      cases asked
      by_cases strict : setting.strict = true
      · simp only [strict, if_true] at run
        obtain ⟨_, _, failed, -⟩ := bind_eq_ok run
        cases failed
      · simp only [strict] at run
        cases run
        obtain ⟨fresh, accounts⟩ := accounts_of_supply sound id position meaning
        have warned : Meets names _ { s with
            trace := .met id name s.current :: s.trace
            warnings := s.warnings.push ⟨.undeclared name, position⟩ } :=
          .of_known met.sound rfl
        have supplied : Meets names _ _ := warned.sound.define ScopeTable.root
          ⟨name, .unknown, true, .unknown, position⟩ (Nat.zero_lt_of_lt sound.there) fresh
        exact ⟨met.trans (warned.trans (supplied.trans (supplied.sound.mean accounts))),
          Std.HashMap.mem_insert_self⟩

/-- A name that is written is met and has a type. -/
theorem meets_writeName {id : Nat} {position : Position} {name : String} {setting : Setting}
    {s s' : State} {type : TypeExpr} {names : Nat → String → Prop} (here : names id name)
    (run : writeName id position name type setting s = .ok ((), s')) (sound : s.Sound) :
    Meets names s s' ∧ id ∈ s'.types := by
  obtain ⟨_, _, first, run⟩ := bind_eq_ok run
  cases first
  obtain ⟨_, _, first, run⟩ := bind_eq_ok run
  cases first
  have met := sound.meet here
  have entityOnly {fault : SemanticFault} (run : (if 0 < s.entityDepth then recordType id .unknown
      else fail fault position : Analyzer Unit) setting
        { s with trace := .met id name s.current :: s.trace } = .ok ((), s')) :
      Meets names s s' ∧ id ∈ s'.types := by
    by_cases inside : 0 < s.entityDepth
    · rw [if_pos inside] at run
      cases run
      exact ⟨met.trans (met.sound.type id _), Std.HashMap.mem_insert_self⟩
    · rw [if_neg inside] at run
      cases run
  cases meaning : s.table.lookup s.current name with
  | some found =>
    obtain ⟨scope, entry⟩ := found
    simp only [meaning] at run
    by_cases known : (entry.kind != .unknown) = true
    · rw [if_pos known] at run
      cases run
      have meant : Meets names _ _ := met.sound.mean (accounts_of_lookup sound meaning)
      have retyped : Meets names _ _ := meant.sound.retype name (writtenType type)
      have typed : Meets names _ _ := retyped.sound.type id type
      exact ⟨met.trans (meant.trans (retyped.trans (typed.trans
        (typed.sound.meetWrite name scope _)))), Std.HashMap.mem_insert_self⟩
    · rw [if_neg known] at run
      exact entityOnly run
  | none =>
    simp only [meaning] at run
    exact entityOnly run

theorem covered_checkName (position : Position) (name : String) :
    Covered (checkName position name) [] := by
  refine covered_bind covered_get fun s => ?_
  split
  · next scope entry _ =>
    exact covered_ite (covered_meetWrite name scope _)
      (covered_ite (covered_fail _ position) (covered_pure ()))
  · exact covered_ite (covered_fail _ position) (covered_pure ())

/-- The names of a pattern are not met. -/
theorem covered_checkPatternNames (p : Pattern) (position : Position) :
    Covered (checkPatternNames p position) [.pattern p] := by
  have visited : Covered (checkPatternNames p position) [] :=
    covered_forM (covered_checkName position) p.bindings
  intro setting s a s' run sound
  have covers := visited setting s a s' run sound
  refine ⟨covers.toMeets.mono fun _ _ ⟨_, mem, _⟩ => absurd mem List.not_mem_nil,
    fun q mem e same => ?_, fun e name mem => ?_⟩
  · obtain rfl := List.mem_singleton.mp mem
    cases same
  · cases List.mem_singleton.mp mem

/-! ### Surroundings -/

/-- A scope may be entered inside the current one, be it an entity that is counted only from there
on. -/
theorem State.Sound.enter {kind : ScopeKind} {t : Nat} {s : State}
    (sound : Sound { s with entityDepth := t })
    (inside : 0 < s.entityDepth → kind = .entity ∨ 0 < t) :
    Sound { s with table := (s.table.push s.current kind).2, current := s.table.size } := by
  have rooted : s.table.Rooted := sound.rooted
  have there : s.current < s.table.size := sound.there
  have outward : (s.table.push s.current kind).2.parent? s.table.size = some s.current := by
    rw [ScopeTable.parent?_push, if_pos rfl]
  have extends' : s.table.Extends (s.table.push s.current kind).2 := .push
  have soundInside := sound.extend extends' (rooted.push there) List.suffix_rfl fun id name => by
    rw [ScopeTable.held?_push]
    exact sound.declared id name
  refine ⟨soundInside.rooted, ?_, fun entity => ?_, soundInside.declared, soundInside.meanings⟩
  · rw [ScopeTable.size_push]
    exact Nat.lt_succ_self _
  · rcases inside entity with rfl | counted
    · exact ⟨s.table.size, .refl _, by rw [ScopeTable.kind?_push, if_pos rfl]⟩
    · obtain ⟨scope, within, ofEntity⟩ := soundInside.entity counted
      exact ⟨scope, .step outward within, ofEntity⟩

/-- What is done in a scope inside the current one, be it an entity that is counted only from there
on. -/
theorem covers_inScope {α : Type} {x : Analyzer α} {ps : List Part} (h : Covered x ps)
    {kind : ScopeKind} {t : Nat} {setting : Setting} {s s' : State} {a : α}
    (run : inScope kind x setting s = .ok (a, s')) (sound : Sound { s with entityDepth := t })
    (inside : 0 < s.entityDepth → kind = .entity ∨ 0 < t) :
    s'.entityDepth = s.entityDepth ∧
      Covers ps { s with entityDepth := t } { s' with entityDepth := t } := by
  obtain ⟨s₂, work, rfl⟩ := inScope_eq_ok run
  have rooted : s.table.Rooted := sound.rooted
  have there : s.current < s.table.size := sound.there
  have covers := h setting _ _ _ work (sound.enter inside)
  have table := ScopeTable.Extends.push.trans covers.grows.table
  refine ⟨covers.entityDepth, ⟨⟨covers.sound.rooted, Nat.lt_of_lt_of_le there table.size,
    fun counted => ?_, covers.sound.declared, covers.sound.meanings⟩,
    ⟨table, covers.grows.trace, covers.grows.types, covers.grows.meanings⟩, rfl, rfl, covers.met⟩,
    covers.types, covers.meanings⟩
  obtain ⟨scope, within, ofEntity⟩ := sound.entity counted
  refine ⟨scope, (table.within_iff rooted there).mpr within, ?_⟩
  obtain ⟨_, found, -⟩ := Option.map_eq_some_iff.mp ofEntity
  exact (table.kind? scope (Array.getElem?_eq_some_iff.mp found).1).trans ofEntity

theorem covered_inScope {α : Type} {x : Analyzer α} {ps : List Part} (h : Covered x ps)
    (kind : ScopeKind) : Covered (inScope kind x) ps := by
  intro setting s a s' run sound
  obtain ⟨same, covers⟩ := covers_inScope (t := s.entityDepth) h run sound .inr
  have whole : ({ s' with entityDepth := s.entityDepth } : State) = s' := by rw [← same]
  exact whole ▸ covers

theorem covered_inEntity {α : Type} {x : Analyzer α} {ps : List Part} (h : Covered x ps) :
    Covered (inEntity x) ps := by
  intro setting s a s' run sound
  obtain ⟨_, _, first, run⟩ := bind_eq_ok run
  cases first
  obtain ⟨_, inner, work, run⟩ := bind_eq_ok run
  obtain ⟨same, covers⟩ := covers_inScope (t := s.entityDepth) h work sound fun _ => .inl rfl
  obtain ⟨_, _, last, run⟩ := bind_eq_ok run
  cases last
  cases run
  show Covers ps s { inner with entityDepth := inner.entityDepth - 1 }
  rw [same]
  exact covers

theorem covered_inLoop {α : Type} {x : Analyzer α} {ps : List Part} (h : Covered x ps) :
    Covered (inLoop x) ps := by
  have walk : Covered (inLoop x) ([] ++ (ps ++ ([] ++ []))) :=
    covered_bind (covered_modify fun _ => rfl) fun _ => covered_bind h fun a =>
      covered_bind (covered_modify fun _ => rfl) fun _ => covered_pure a
  simpa using walk

theorem covered_outsideLoops {α : Type} {x : Analyzer α} {ps : List Part} (h : Covered x ps) :
    Covered (outsideLoops x) ps := by
  have walk : Covered (outsideLoops x) ([] ++ ([] ++ (ps ++ ([] ++ [])))) :=
    covered_bind covered_get fun _ => covered_bind (covered_modify fun _ => rfl) fun _ =>
      covered_bind h fun a => covered_bind (covered_modify fun _ => rfl) fun _ => covered_pure a
  simpa using walk

theorem covered_inBoundary {α : Type} {x : Analyzer α} {ps : List Part} (h : Covered x ps) :
    Covered (inBoundary x) ps := by
  have walk : Covered (inBoundary x) ([] ++ (ps ++ ([] ++ ([] ++ [])))) :=
    covered_bind (covered_modify fun _ => rfl) fun _ => covered_bind h fun _ =>
      covered_bind covered_get fun _ => covered_bind (covered_modify fun _ => rfl) fun _ =>
        covered_pure _
  simpa using walk

/-! ### The judgement -/

/-- The judgement that steps cover the parts that they walk over. -/
def covering : Judgement where
  alike := True
  holds x _ ps := Covered x ps
  inside x _ ps := Covered x ps

/-- Parts are covered in any order. -/
theorem Covered.parts {α : Type} {x : Analyzer α} {ps qs : List Part} (same : ∀ p, p ∈ ps ↔ p ∈ qs)
    (h : Covered x ps) : Covered x qs := by
  intro setting s a s' run sound
  have covers := h setting s a s' run sound
  exact ⟨covers.toMeets.mono fun _ _ ⟨p, mem, e⟩ => ⟨p, (same p).mp mem, e⟩,
    fun p mem => covers.types p ((same p).mpr mem),
    fun e name mem => covers.meanings e name ((same _).mpr mem)⟩

/-- A place that is written is the same expression where its value is used. -/
theorem Covered.again {α : Type} {x : Analyzer α} {e : Expr} {ps : List Part}
    (written : .place e ∈ ps) (h : Covered x (.value e :: ps)) : Covered x ps := by
  intro setting s a s' run sound
  have covers := h setting s a s' run sound
  refine ⟨covers.toMeets.mono fun id name ⟨p, mem, other, same, names⟩ => ?_,
    fun p mem => covers.types p (List.mem_cons_of_mem _ mem),
    fun other name mem => covers.meanings other name (List.mem_cons_of_mem _ mem)⟩
  rcases List.mem_cons.mp mem with rfl | mem
  · exact ⟨_, written, other, same, names⟩
  · exact ⟨p, mem, other, same, names⟩

theorem covered_infer_name {e : Expr} {name : String} (named : e.kind = .name name) :
    Covered (infer e) [.value e] := by
  obtain ⟨id, position, kind⟩ := e
  obtain rfl : kind = .name name := named
  intro setting s a s' run sound
  have here : Names [.value ⟨id, position, .name name⟩] id name :=
    ⟨_, List.mem_singleton_self _, _, rfl, rfl, rfl⟩
  unfold infer inferKind at run
  obtain ⟨type, s₁, first, run⟩ := bind_eq_ok run
  obtain ⟨met, meant⟩ := meets_readName here first sound
  cases run
  refine ⟨met.trans (met.sound.type id _), fun p mem e same => ?_, fun e other mem _ => ?_⟩
  · obtain rfl := List.mem_singleton.mp mem
    obtain rfl := Option.some.inj same
    exact Std.HashMap.mem_insert_self
  · obtain rfl := Part.value.inj (List.mem_singleton.mp mem)
    exact meant

theorem covered_writeName {e : Expr} {name : String} (named : e.kind = .name name)
    (type : TypeExpr) : Covered (writeName e.id e.position name type) [.place e] := by
  intro setting s a s' run sound
  have here : Names [.place e] e.id name := ⟨_, List.mem_singleton_self _, e, rfl, rfl, named⟩
  obtain ⟨met, typed⟩ := meets_writeName here run sound
  refine ⟨met, fun p mem other same => ?_, fun other asked mem => ?_⟩
  · obtain rfl := List.mem_singleton.mp mem
    obtain rfl := Option.some.inj same
    exact typed
  · cases List.mem_singleton.mp mem

theorem covering_lawful : covering.Lawful where
  ret _ := covered_pure _
  bind h h' := covered_bind h fun a => h' a a fun _ => rfl
  parts same h := h.parts same
  again written h := h.again written
  remark := by
    rintro α x x' ⟨a, remarks, said⟩ - - setting s b s' run sound
    cases (said.run setting s).symm.trans run
    exact Meets.covers (.of_known sound rfl)
  check checks := fun setting s a s' run sound => by
    obtain ⟨rfl, -⟩ := checks setting s s' run
    exact (Meets.of_known sound rfl).covers
  scopedType space name := covered_bind covered_get fun s => by
    split <;> exact covered_pure _
  nameSpace name := covered_modify fun _ => rfl
  complete _ := covered_modify fun s => by split <;> rfl
  retype name _ _ _ := covered_retype name _
  declare name _ _ assignable _ _ position _ _ _ _ _ := covered_declare name _ assignable _ position
  keep _ _ _ _ same plain _ := covered_recordType same plain _
  name named := covered_infer_name named
  write named _ := covered_writeName named _
  pattern := covered_checkPatternNames
  inScope kind _ _ _ _ h := covered_inScope h kind
  enter h := h
  insideBind h h' := covered_bind h fun a => h' a a fun _ => rfl
  member name _ _ position _ := covered_declare name _ _ _ position
  inEntity h := covered_inEntity h
  inLoop h := covered_inLoop h
  outsideLoops h := covered_outsideLoops h
  inBoundary h := covered_inBoundary h

end Analyzing

end ScriptEngine
