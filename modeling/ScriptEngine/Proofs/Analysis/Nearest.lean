import ScriptEngine.Proofs.Analysis.Findings

/-!
# What a name means is what the nearest scope holds

A name means what the nearest scope outwards holds, the scopes of entities included. A run looks for
it in frames first, and in the members of the entity around only where no frame has it. So where the
two differ a frame outside of the entity has a name that the entity has, too.

* `Nearest`: no scope held a name nearer than where its meaning stands.
* `State.Placed`: the invariant of an analysis: members stand in scopes of entities, and meanings are
  the nearest ones.
* `placing`: the judgement that steps keep that invariant.
* `Analysis.InFrame`: a scope with a frame outwards held a name already.
* `Module.inFrame_iff_of_member`: where a name that means a member is in a frame, too.
-/

namespace ScriptEngine

/-- A name was met in a scope, and its meaning is in that scope or outwards. What else outwards held
the name by then stands outside of that. -/
def Nearest (t : ScopeTable) (trace : List Encounter) (id : Nat) (name : String)
    (ref : SymbolRef) : Prop :=
  ∃ scope earlier, .met id name scope :: earlier <:+ trace ∧ scope < t.size ∧
    t.Within scope ref.scope ∧
      ∀ outer, t.Within scope outer → .declared outer name ∈ earlier → t.Within ref.scope outer

/-- A meaning that is the nearest stays so. -/
theorem Nearest.extend {t t' : ScopeTable} {trace trace' : List Encounter} {id : Nat}
    {name : String} {ref : SymbolRef} (h : Nearest t trace id name ref) (rooted : t.Rooted)
    (table : t.Extends t') (onward : trace <:+ trace') : Nearest t' trace' id name ref := by
  obtain ⟨scope, earlier, met, there, within, nearest⟩ := h
  have inside : ref.scope < t.size := rooted.lt_size_of_within there within
  refine ⟨scope, earlier, met.trans onward, Nat.lt_of_lt_of_le there table.size,
    (table.within_iff rooted there).mpr within, fun outer outwards declared => ?_⟩
  exact (table.within_iff rooted inside).mpr
    (nearest outer ((table.within_iff rooted there).mp outwards) declared)

namespace Analyzing

namespace State

/-- The invariant of an analysis: members stand in scopes of entities, and whatever a name means is
the nearest; if it is a member, that is in the scope of an entity. -/
structure Placed (s : State) : Prop where
  members : ∀ id name entry, s.table.held? id name = some entry → entry.kind = .member →
    s.table.kind? id = some .entity
  meanings : ∀ id ref, s.meanings[id]? = some ref →
    (∃ name, Nearest s.table s.trace id name ref) ∧
      (ref.kind = .member → s.table.kind? ref.scope = some .entity)

variable {s s' : State}

/-- Whatever else may have changed. -/
theorem Placed.of_same (h : s.Placed) (table : s'.table = s.table)
    (trace : s'.trace = s.trace) (meanings : s'.meanings = s.meanings) : s'.Placed := by
  constructor
  · rw [table]
    exact h.members
  · rw [table, trace, meanings]
    exact h.meanings

/-- The table and the trace may be added to if members are declared in scopes of entities only. -/
theorem Placed.extend (h : s.Placed) (sound : s.Sound) {table : ScopeTable}
    {trace : List Encounter} (extends' : s.table.Extends table) (onward : s.trace <:+ trace)
    (members : ∀ id name entry, table.held? id name = some entry → entry.kind = .member →
      (∃ old, s.table.held? id name = some old ∧ old.kind = .member) ∨
        table.kind? id = some .entity) : Placed { s with table, trace } where
  members id name entry held member := by
    rcases members id name entry held member with ⟨old, held', member'⟩ | entity
    · rw [extends'.kind? id (ScopeTable.lt_size_of_held? held')]
      exact h.members id name old held' member'
    · exact entity
  meanings id ref recorded := by
    obtain ⟨⟨name, nearest⟩, entity⟩ := h.meanings id ref recorded
    refine ⟨⟨name, nearest.extend sound.rooted extends' onward⟩, fun member => ?_⟩
    have isEntity := entity member
    obtain ⟨_, found, -⟩ := Option.map_eq_some_iff.mp isEntity
    rw [extends'.kind? _ (Array.getElem?_eq_some_iff.mp found).1, isEntity]

/-- Something is come across. -/
theorem Placed.note (h : s.Placed) (sound : s.Sound) (encounter : Encounter) :
    Placed { s with trace := encounter :: s.trace } :=
  h.extend sound (.refl _) (List.suffix_cons _ _) fun _ _ entry held member =>
    .inl ⟨entry, held, member⟩

/-- A meaning may be recorded. -/
theorem Placed.mean (h : s.Placed) {id : Nat} {name : String} {ref : SymbolRef}
    (nearest : Nearest s.table s.trace id name ref)
    (entity : ref.kind = .member → s.table.kind? ref.scope = some .entity) :
    Placed { s with meanings := s.meanings.insert id ref } where
  members := h.members
  meanings asked found recorded := by
    rw [Std.HashMap.getElem?_insert] at recorded
    split at recorded
    · next same =>
      obtain rfl := Option.some.inj recorded
      exact ⟨⟨name, beq_iff_eq.mp same ▸ nearest⟩, entity⟩
    · exact h.meanings asked found recorded

/-- A name that a scope does not hold is declared in it. -/
theorem Placed.define (h : s.Placed) (sound : s.Sound) (id : ScopeId) (entry : SymbolEntry)
    (fresh : s.table.held? id entry.name = none)
    (entity : entry.kind = .member → s.table.kind? id = some .entity) :
    Placed { s with
      table := s.table.define id entry
      trace := .declared id entry.name :: s.trace } := by
  refine h.extend sound (.define fresh) (List.suffix_cons _ _) fun other name old held member => ?_
  rw [ScopeTable.held?_define] at held
  split at held
  · next same =>
    obtain rfl := Option.some.inj held
    exact .inr (same.1 ▸ (ScopeTable.sameShape_define.kind? id).trans (entity member))
  · exact .inl ⟨old, held, member⟩

/-- A type of a declaration may change. -/
theorem Placed.retype (h : s.Placed) (sound : s.Sound) (name : String) (f : TypeExpr → TypeExpr) :
    Placed { s with table := s.table.retype s.current name f } := by
  refine h.extend sound .retype List.suffix_rfl fun id asked entry held member => .inl ?_
  cases meaning : s.table.lookup s.current name with
  | none =>
    rw [ScopeTable.retype_of_none meaning] at held
    exact ⟨entry, held, member⟩
  | some found =>
    obtain ⟨found, old⟩ := found
    rw [ScopeTable.held?_retype meaning] at held
    split at held
    · next same =>
      obtain ⟨rfl, rfl⟩ := same
      obtain rfl := Option.some.inj held
      exact ⟨old, (ScopeTable.lookup_eq_some meaning).2, member⟩
    · exact ⟨entry, held, member⟩

/-! ### Meanings -/

/-- What is looked up is the nearest. -/
theorem Sound.nearest_of_lookup (sound : s.Sound) {id : Nat} {name : String} {scope : ScopeId}
    {entry : SymbolEntry} (meaning : s.table.lookup s.current name = some (scope, entry)) :
    Nearest s.table (.met id name s.current :: s.trace) id name ⟨scope, entry.kind⟩ := by
  refine ⟨s.current, s.trace, List.suffix_rfl, sound.there, (ScopeTable.lookup_eq_some meaning).1,
    fun outer outwards declared => ?_⟩
  exact ScopeTable.within_of_lookup sound.rooted sound.there meaning outwards
    ((sound.declared outer name).mpr declared)

/-- Where nothing outwards holds a name, any scope outwards is the nearest. -/
theorem Sound.nearest_of_unknown (sound : s.Sound) {id : Nat} {name : String} {ref : SymbolRef}
    (unknown : s.table.lookup s.current name = none) (within : s.table.Within s.current ref.scope) :
    Nearest s.table (.met id name s.current :: s.trace) id name ref := by
  refine ⟨s.current, s.trace, List.suffix_rfl, sound.there, within,
    fun outer outwards declared => ?_⟩
  have held := (sound.declared outer name).mpr declared
  rw [ScopeTable.held?_of_lookup_eq_none sound.rooted sound.there unknown outwards] at held
  cases held

end State

open State

variable {α β : Type} {x : Analyzer α} {f : α → Analyzer β}

/-- A step keeps the invariant, if some condition holds before. -/
def Places (x : Analyzer α) (P : State → Prop) : Prop :=
  ∀ setting s a s', x setting s = .ok (a, s') → s.Sound → P s → s.Placed → s'.Placed

/-- The current scope is that of an entity. -/
def State.AtEntity (s : State) : Prop := s.table.kind? s.current = some .entity

/-- Steps leave the current scope what it is. -/
theorem State.Covers.atEntity {s s' : State} {ps : List Part} (h : s.Covers ps s')
    (sound : s.Sound) (entity : s.AtEntity) : s'.AtEntity := by
  rw [AtEntity, h.current, h.grows.table.kind? _ sound.there, entity]

/-- A change of what neither names nor meanings are found by. -/
theorem places_modify {g : State → State} {P : State → Prop} (table : ∀ s, (g s).table = s.table)
    (trace : ∀ s, (g s).trace = s.trace) (meanings : ∀ s, (g s).meanings = s.meanings) :
    Places (modify g) P := by
  intro setting s a s' run _ _ placed
  cases run
  exact placed.of_same (table s) (trace s) (meanings s)

theorem places_pure {P : State → Prop} (a : α) : Places (pure a) P := by
  intro setting s b s' run _ _ placed
  cases run
  exact placed

theorem places_fail {P : State → Prop} (fault : SemanticFault) (position : Position) :
    Places (fail fault position : Analyzer α) P := by
  intro setting s a s' run
  cases run

theorem places_ite {P : State → Prop} {c : Prop} [Decidable c] {y : Analyzer α} (h : Places x P)
    (h' : Places y P) : Places (if c then x else y) P := by
  split
  · exact h
  · exact h'

theorem places_bind {P : State → Prop} {ps : List Part} (covered : Covered x ps)
    (kept : ∀ {s s'}, s.Covers ps s' → s.Sound → P s → P s') (h : Places x P)
    (h' : ∀ a, Places (f a) P) : Places (x >>= f) P := by
  intro setting s b s'' run sound before placed
  obtain ⟨a, s', first, second⟩ := bind_eq_ok run
  have covers := covered setting s a s' first sound
  exact h' a setting s' b s'' second covers.sound (kept covers sound before)
    (h setting s a s' first sound before placed)

/-- Steps in any scope before others. -/
theorem places_then {ps : List Part} (covered : Covered x ps) (h : Places x fun _ => True)
    (h' : ∀ a, Places (f a) fun _ => True) : Places (x >>= f) fun _ => True :=
  places_bind covered (fun _ _ _ => trivial) h h'

/-- A change of what neither names nor types are found by, before a step. -/
theorem places_change {g : State → State} {y : Analyzer β} (same : ∀ s, (g s).known = s.known)
    (h : Places y fun _ => True) : Places (do modify g; y) fun _ => True :=
  places_then (covered_modify same) (places_modify (fun s => congrArg (·.1) (same s))
    (fun s => congrArg (·.2.2.2.1) (same s)) fun s => congrArg (·.2.2.2.2.1) (same s)) fun _ => h

/-- What is known is looked at before a step. -/
theorem places_look {P : State → Prop} {f : State → Analyzer β} (h : ∀ s, Places (f s) P) :
    Places (do f (← get)) P := by
  intro setting s b s'' run
  obtain ⟨_, _, first, run⟩ := bind_eq_ok run
  cases first
  exact h s setting s b s'' run

/-! ### Names -/

theorem places_meetWrite {P : State → Prop} (name : String) (scope : ScopeId) (inside : Bool) :
    Places (meetWrite name scope inside) P := by
  intro setting s a s' run sound _ placed
  cases run
  exact placed.note sound _

theorem places_declare {P : State → Prop} (name : String) (kind : SymbolKind) (assignable : Bool)
    (type : TypeExpr) (position : Position)
    (entity : ∀ s, P s → kind = .member → s.AtEntity) :
    Places (declare name kind assignable type position) P := by
  intro setting s a s' run sound before placed
  obtain ⟨_, _, first, run⟩ := bind_eq_ok run
  cases first
  cases declared : s.table.declare s.current ⟨name, kind, assignable, type, position⟩ with
  | ok table =>
    rw [declared] at run
    cases run
    obtain ⟨fresh, rfl⟩ := ScopeTable.declare_eq_ok declared
    exact placed.define sound _ _ fresh (entity s before)
  | error old =>
    rw [declared] at run
    cases run

/-- A name that is met. -/
theorem State.Sound.met {s : State} (sound : s.Sound) (id : Nat) (name : String) :
    Sound { s with trace := .met id name s.current :: s.trace } :=
  have meets : Meets (fun _ _ => True) s _ := sound.meet trivial
  meets.sound

theorem places_readName (id : Nat) (position : Position) (name : String) (P : State → Prop) :
    Places (readName id position name) P := by
  intro setting s type s' run sound _ placed
  obtain ⟨_, _, first, run⟩ := bind_eq_ok run
  cases first
  obtain ⟨_, _, first, run⟩ := bind_eq_ok run
  cases first
  have met := placed.note sound (.met id name s.current)
  cases meaning : s.table.lookup s.current name with
  | some found =>
    obtain ⟨scope, entry⟩ := found
    rw [meaning] at run
    cases run
    exact met.mean (sound.nearest_of_lookup meaning)
      (placed.members scope name entry (ScopeTable.lookup_eq_some meaning).2)
  | none =>
    rw [meaning] at run
    by_cases inside : 0 < s.entityDepth
    · simp only [inside, if_true] at run
      cases run
      obtain ⟨outer, outwards, ofEntity⟩ := sound.entity inside
      obtain ⟨scope, found, within, kind⟩ :=
        ScopeTable.exists_enclosing sound.rooted sound.there outwards ofEntity
      rw [found, Option.getD_some]
      exact met.mean (sound.nearest_of_unknown meaning within) fun _ => kind
    · simp only [inside, if_false] at run
      obtain ⟨_, _, asked, run⟩ := bind_eq_ok run
      cases asked
      by_cases strict : setting.strict = true
      · simp only [strict, if_true] at run
        obtain ⟨_, _, failed, -⟩ := bind_eq_ok run
        cases failed
      · simp only [strict] at run
        cases run
        have fresh := (accounts_of_supply sound id position meaning).1
        have warned : Placed { s with
            trace := .met id name s.current :: s.trace
            warnings := s.warnings.push ⟨.undeclared name, position⟩ } := met.of_same rfl rfl rfl
        have soundly : Meets (fun _ _ => True) _ { s with
            trace := .met id name s.current :: s.trace
            warnings := s.warnings.push ⟨.undeclared name, position⟩ } :=
          .of_known (sound.met id name) rfl
        have supplied := warned.define soundly.sound ScopeTable.root
          ⟨name, .unknown, true, .unknown, position⟩ fresh nofun
        have outwards := sound.rooted.within_root sound.there
        exact supplied.mean ((sound.nearest_of_unknown meaning outwards).extend sound.rooted
          (.define fresh) (List.suffix_cons _ _)) nofun

theorem places_writeName (id : Nat) (position : Position) (name : String) (type : TypeExpr)
    (P : State → Prop) : Places (writeName id position name type) P := by
  intro setting s a s' run sound before placed
  obtain ⟨_, _, first, run⟩ := bind_eq_ok run
  cases first
  obtain ⟨_, _, first, run⟩ := bind_eq_ok run
  cases first
  have met := placed.note sound (.met id name s.current)
  have entityOnly : Places (if 0 < s.entityDepth then recordType id .unknown
      else fail (.undeclaredAssignment name) position : Analyzer Unit) fun _ => True :=
    places_ite (places_modify (fun _ => rfl) (fun _ => rfl) fun _ => rfl) (places_fail _ _)
  cases meaning : s.table.lookup s.current name with
  | some found =>
    obtain ⟨scope, entry⟩ := found
    simp only [meaning] at run
    by_cases known : (entry.kind != .unknown) = true
    · rw [if_pos known] at run
      cases run
      have meant := met.mean (sound.nearest_of_lookup meaning)
        (placed.members scope name entry (ScopeTable.lookup_eq_some meaning).2)
      have soundly : Meets (fun _ _ => True) _ _ :=
        (sound.met id name).mean (accounts_of_lookup sound meaning)
      have retyped := meant.retype soundly.sound name (writtenType type)
      have soundly' : Meets (fun _ _ => True) _ _ := soundly.sound.retype name (writtenType type)
      exact (retyped.note soundly'.sound (.written name scope _)).of_same rfl rfl rfl
    · rw [if_neg known] at run
      exact entityOnly _ _ _ _ run (sound.met id name) trivial met
  | none =>
    simp only [meaning] at run
    exact entityOnly _ _ _ _ run (sound.met id name) trivial met

theorem places_checkPatternNames (p : Pattern) (position : Position) :
    Places (checkPatternNames p position) fun _ => True := by
  have each (name : String) : Places (checkName position name) fun _ => True := by
    refine places_look fun s => ?_
    split
    · exact places_ite (places_meetWrite _ _ _) (places_ite (places_fail _ _) (places_pure ()))
    · exact places_ite (places_fail _ _) (places_pure ())
  unfold checkPatternNames
  generalize p.bindings = names
  induction names with
  | nil => exact places_pure ()
  | cons name names ih =>
    exact places_then (covered_checkName position name) (each name) fun _ => ih

/-! ### Surroundings -/

/-- What is done in a scope inside the current one, be it an entity that is counted only from there
on. -/
theorem placed_inScope {P : State → Prop} (h : Places x P) {kind : ScopeKind}
    (enter : ∀ s, s.table.kind? s.current = some kind → P s) {t : Nat} {setting : Setting}
    {s s' : State} {a : α} (run : inScope kind x setting s = .ok (a, s'))
    (sound : Sound { s with entityDepth := t }) (inside : 0 < s.entityDepth → kind = .entity ∨ 0 < t)
    (placed : s.Placed) : s'.Placed := by
  obtain ⟨s₂, work, rfl⟩ := inScope_eq_ok run
  let s₁ : State := { s with table := (s.table.push s.current kind).2, current := s.table.size }
  have entered : s₁.Placed := by
    have counted : Placed { s with entityDepth := t } := placed.of_same rfl rfl rfl
    refine (counted.extend sound .push List.suffix_rfl ?_).of_same rfl rfl rfl
    intro id name entry held member
    rw [ScopeTable.held?_push] at held
    exact .inl ⟨entry, held, member⟩
  have atKind : s₁.table.kind? s₁.current = some kind := by
    rw [ScopeTable.kind?_push, if_pos rfl]
  exact (h setting s₁ a s₂ work (sound.enter inside) (enter s₁ atKind) entered).of_same rfl rfl rfl

theorem places_inScope (h : Places x fun _ => True) (kind : ScopeKind) {P : State → Prop} :
    Places (inScope kind x) P := by
  intro setting s a s' run sound _ placed
  exact placed_inScope (t := s.entityDepth) h (fun _ _ => trivial) run sound .inr placed

theorem places_inEntity (h : Places x AtEntity) {P : State → Prop} : Places (inEntity x) P := by
  intro setting s a s' run sound _ placed
  obtain ⟨_, _, first, run⟩ := bind_eq_ok run
  cases first
  obtain ⟨_, inner, work, run⟩ := bind_eq_ok run
  obtain ⟨_, _, last, run⟩ := bind_eq_ok run
  cases last
  cases run
  have counted : Placed { s with entityDepth := s.entityDepth + 1 } := placed.of_same rfl rfl rfl
  exact (placed_inScope (t := s.entityDepth) h (fun _ entity => entity) work sound
    (fun _ => .inl rfl) counted).of_same rfl rfl rfl

/-! ### The judgement -/

/-- The judgement that steps cover the parts that they walk over, and keep the invariant. -/
def placing : Judgement where
  alike := True
  holds x _ ps := Covered x ps ∧ Places x fun _ => True
  inside x _ ps := Covered x ps ∧ Places x AtEntity

theorem Places.mono {P Q : State → Prop} (h : Places x P) (le : ∀ s, Q s → P s) : Places x Q :=
  fun setting s a s' run sound before => h setting s a s' run sound (le s before)

theorem placing_lawful : placing.Lawful where
  ret _ := ⟨covered_pure _, places_pure _⟩
  bind h h' := ⟨covered_bind h.1 fun a => (h' a a fun _ => rfl).1,
    places_then h.1 h.2 fun a => (h' a a fun _ => rfl).2⟩
  parts same h := ⟨h.1.parts same, h.2⟩
  again written h := ⟨h.1.again written, h.2⟩
  remark h h' same := by
    refine ⟨covering_lawful.remark h h' same, ?_⟩
    obtain ⟨a, remarks, said⟩ := h
    intro setting s b s' run _ _ placed
    cases (said.run setting s).symm.trans run
    exact placed.of_same rfl rfl rfl
  check checks := by
    refine ⟨covering_lawful.check checks, fun setting s a s' run _ _ placed => ?_⟩
    obtain ⟨rfl, -⟩ := checks setting s s' run
    exact placed
  scopedType space name := ⟨covering_lawful.scopedType space name, places_look fun s => by
    split <;> exact places_pure _⟩
  nameSpace name := ⟨covering_lawful.nameSpace name,
    places_modify (fun _ => rfl) (fun _ => rfl) fun _ => rfl⟩
  complete same := ⟨covering_lawful.complete same,
    places_modify (fun s => by split <;> rfl) (fun s => by split <;> rfl) fun s => by split <;> rfl⟩
  retype name _ _ same := ⟨covering_lawful.retype name same, fun setting s a s' run sound _ placed => by
    cases run
    exact placed.retype sound name _⟩
  declare name _ _ assignable _ _ position _ _ plain _ _ :=
    ⟨covered_declare name _ assignable _ position,
      places_declare name _ assignable _ position fun _ _ member => absurd member plain⟩
  keep part _ _ _ is plain same := ⟨covering_lawful.keep part is plain same,
    places_modify (fun _ => rfl) (fun _ => rfl) fun _ => rfl⟩
  name := fun {e name} named => by
    refine ⟨covered_infer_name named, ?_⟩
    obtain ⟨id, position, kind⟩ := e
    obtain rfl : kind = .name name := named
    unfold infer inferKind
    intro setting s a s' run sound _ placed
    obtain ⟨type, s₁, first, run⟩ := bind_eq_ok run
    have read := places_readName id position name (fun _ => True) _ _ _ _ first sound trivial placed
    cases run
    exact read.of_same rfl rfl rfl
  write named _ := ⟨covered_writeName named _, places_writeName _ _ _ _ _⟩
  pattern p position := ⟨covered_checkPatternNames p position, places_checkPatternNames p position⟩
  inScope kind _ _ _ _ h := ⟨covered_inScope h.1 kind, places_inScope h.2 kind⟩
  enter h := ⟨h.1, h.2.mono fun _ _ => trivial⟩
  insideBind h h' := ⟨covered_bind h.1 fun a => (h' a a fun _ => rfl).1,
    places_bind h.1 (fun covers => covers.atEntity) h.2 fun a => (h' a a fun _ => rfl).2⟩
  member name _ _ position _ := ⟨covered_declare name _ _ _ position,
    places_declare name _ _ _ position fun _ entity _ => entity⟩
  inEntity h := ⟨covered_inEntity h.1, places_inEntity h.2⟩
  inLoop h := ⟨covered_inLoop h.1, places_change (fun _ => rfl) (places_then h.1 h.2 fun a =>
    places_change (fun _ => rfl) (places_pure a))⟩
  outsideLoops h := ⟨covered_outsideLoops h.1, places_look fun _ => places_change (fun _ => rfl)
    (places_then h.1 h.2 fun a => places_change (fun _ => rfl) (places_pure a))⟩
  inBoundary h := ⟨covered_inBoundary h.1, places_change (fun _ => rfl) (places_then h.1 h.2
    fun _ => places_look fun _ => places_change (fun _ => rfl) (places_pure _))⟩

/-- Before the first statement there are no members and no meanings. -/
theorem State.Placed.start (bindings : List String) : (State.start bindings).Placed where
  members id name entry held member := by
    rw [start_held?] at held
    split at held
    · split at held
      · cases held
        cases member
      · cases held
    · split at held
      · split at held
        · cases held
          cases member
        · split at held
          · cases held
            cases member
          · cases held
      · cases held
  meanings id ref recorded := by
    have none : (∅ : Std.HashMap Nat SymbolRef)[id]? = some ref := recorded
    simp at none

end Analyzing

/-- A run keeps the names of a scope in a frame, unless they are members of an entity or stand in the
root. -/
def ScopeKind.hasFrame : ScopeKind → Bool
  | .module | .block | .function | .space => true
  | .root | .entity => false

/-- By some time, a scope with a frame held a name, from a scope outwards. -/
def Analysis.InFrame (a : Analysis) (earlier : List Encounter) (id : ScopeId) (name : String) :
    Prop :=
  ∃ outer kind, a.table.Within id outer ∧ a.table.kind? outer = some kind ∧ kind.hasFrame = true ∧
    .declared outer name ∈ earlier

open Analyzing in
/-- A name that means a member was met in a scope inside the entity that has the member. Where it was
met, some frame had the name already if and only if one outside of the entity had it. -/
theorem Module.inFrame_iff_of_member {m : Module} {bindings : List String} {strict : Bool}
    {a : Analysis} (analysed : m.analyze bindings strict = .ok a)
    (distinct : (m.exprs.map (·.id)).Nodup) {e : Expr} {name : String} {ref : SymbolRef}
    (read : .value e ∈ m.parts) (named : e.kind = .name name)
    (recorded : a.meanings[e.id]? = some ref) (member : ref.kind = .member) :
    ∃ scope earlier, .met e.id name scope :: earlier <:+ a.trace ∧
      a.table.Within scope ref.scope ∧ a.table.kind? ref.scope = some .entity ∧
        (a.InFrame earlier scope name ↔ a.InFrame earlier ref.scope name) := by
  rw [Module.analyze_eq] at analysed
  cases walk : analyzeStatements m.statements ⟨m.name, strict⟩ (.start bindings) with
  | error e =>
    rw [walk] at analysed
    cases analysed
  | ok result =>
    obtain ⟨type, s⟩ := result
    rw [walk] at analysed
    obtain rfl := Except.ok.inj analysed
    obtain ⟨covered, places⟩ := placing_lawful.analyzeStatements m
    have covers := covered _ _ _ _ walk (.start bindings)
    have placed := places _ _ _ _ walk (.start bindings) trivial (.start bindings)
    obtain ⟨⟨met, scope, earlier, onward, there, within, nearest⟩, entity⟩ :=
      placed.meanings e.id ref recorded
    have isExpr : e ∈ m.exprs := List.mem_filterMap.mpr ⟨_, read, rfl⟩
    obtain rfl := covers.name_of_met distinct isExpr named (onward.subset List.mem_cons_self)
    refine ⟨scope, earlier, onward, within, entity member, ?_, ?_⟩
    · rintro ⟨outer, kind, outwards, ofKind, frame, declared⟩
      exact ⟨outer, kind, nearest outer outwards declared, ofKind, frame, declared⟩
    · rintro ⟨outer, kind, outwards, ofKind, frame, declared⟩
      exact ⟨outer, kind, within.trans outwards, ofKind, frame, declared⟩

open Analyzing in
/-- The second member of the sample means the first one, and no frame has that name. -/
theorem Module.inFrame_iff_of_entitySample : ∃ a ref, entitySample.analyze [] true = .ok a ∧
    a.meanings[2]? = some ref ∧ ref.kind = .member ∧
      ∃ scope earlier, .met 2 "a" scope :: earlier <:+ a.trace ∧ a.table.Within scope ref.scope ∧
        a.table.kind? ref.scope = some .entity ∧
          (a.InFrame earlier scope "a" ↔ a.InFrame earlier ref.scope "a") := by
  have found : (entitySample.analyze [] true).map (·.meanings) =
      .ok (((∅ : Std.HashMap Nat SymbolRef).insert 1 ⟨2, .member⟩).insert 2 ⟨2, .member⟩ |>.insert 4
        ⟨1, .variable⟩) := by rfl
  cases analysed : entitySample.analyze [] true with
  | error e => rw [analysed] at found; cases found
  | ok a =>
    rw [analysed] at found
    have meanings : a.meanings = _ := Except.ok.inj found
    have recorded : a.meanings[2]? = some ⟨2, .member⟩ := by
      rw [meanings, Std.HashMap.getElem?_insert, if_neg (by decide), Std.HashMap.getElem?_insert_self]
    exact ⟨a, ⟨2, .member⟩, rfl, recorded, rfl,
      inFrame_iff_of_member (e := ⟨2, .nowhere, .name "a"⟩) analysed (by decide)
        (.tail _ (.head _)) rfl recorded rfl⟩

/-- A variable, and an entity with a member of the same name, which its second member reads. -/
def shadowSample : Module :=
  ⟨"main", ⟨[
    ⟨.nowhere, .declare .letWord [⟨.bind "x", some ⟨1, .nowhere, .literal (.number 1)⟩, .nowhere⟩]⟩,
    ⟨.nowhere, .declare .letWord [⟨.bind "e", some ⟨4, .nowhere, .entity [
      ⟨"x", ⟨2, .nowhere, .literal (.string "a")⟩, .nowhere⟩,
      ⟨"y", ⟨3, .nowhere, .name "x"⟩, .nowhere⟩]⟩, .nowhere⟩]⟩], .nowhere⟩⟩

open Analyzing in
/-- The name is found to mean the member, although the frame of the module has the variable by then,
which a run takes. -/
theorem Module.inFrame_of_shadowSample :
    .value ⟨3, .nowhere, .name "x"⟩ ∈ shadowSample.parts ∧
      (shadowSample.exprs.map (·.id)).Nodup ∧
        ∃ a earlier, shadowSample.analyze [] true = .ok a ∧ a.meanings[3]? = some ⟨2, .member⟩ ∧
          .met 3 "x" 2 :: earlier <:+ a.trace ∧ a.InFrame earlier 2 "x" := by
  refine ⟨.tail _ (.tail _ (.head _)), by decide, ?_⟩
  have met : (shadowSample.analyze [] true).map (fun a => (a.trace.take 5, a.table.parent? 2,
      a.table.kind? 1)) =
        .ok ([.declared 1 "e", .declared 2 "y", .met 3 "x" 2, .declared 2 "x", .declared 1 "x"],
          some 1, some .module) := by decide +kernel
  have found : (shadowSample.analyze [] true).map (·.meanings) =
      .ok ((∅ : Std.HashMap Nat SymbolRef).insert 3 ⟨2, .member⟩) := by rfl
  cases analysed : shadowSample.analyze [] true with
  | error e => rw [analysed] at found; cases found
  | ok a =>
    rw [analysed] at found met
    have meanings : a.meanings = _ := Except.ok.inj found
    simp only [Except.map, Except.ok.injEq, Prod.mk.injEq] at met
    obtain ⟨latest, around, kind⟩ := met
    have trace := List.take_append_drop 5 a.trace
    rw [latest] at trace
    refine ⟨a, .declared 2 "x" :: .declared 1 "x" :: a.trace.drop 5, rfl, ?_, ?_, ?_⟩
    · rw [meanings]
      simp
    · exact ⟨[.declared 1 "e", .declared 2 "y"], trace⟩
    · exact ⟨1, .module, .step around (.refl 1), kind, rfl, .tail _ (.head _)⟩

end ScriptEngine
