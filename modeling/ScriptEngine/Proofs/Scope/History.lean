import ScriptEngine.Proofs.Scope.Entries

/-!
# What becomes of a table

A table begins with the root alone, and every change adds a scope inside one that is there or changes a
declaration. So scopes form a tree in which every way outwards ends, and what a name means is what the
nearest scope says that declares it.

* `ScopeTable.Change`, `ScopeTable.apply`: new scopes, declarations, definitions and changes of types.
* `ScopeTable.Walk`: a loop that goes outwards and asks each scope, with nothing to bound its rounds.
* `ScopeTable.Rooted.walk_iff`: where every scope stands in an earlier one, it comes to what `search` finds.
* `ScopeTable.Nearest`: the nearest scope outwards of some kind; `Rooted.lookup_eq_some_iff` and
  `Rooted.enclosing_eq_some_iff`: that is the one that is found.
* `ScopeTable.Reveals`: nothing hides a name of a scope from another one; `lookup_declare_of_reveals` and
  `lookup_declare_of_not_reveals`: a declaration changes what its name means there, and nothing else.
* `ScopeTable.Reached.scope_law`: all of this together, for every table there is.
-/

namespace ScriptEngine.ScopeTable

/-! ## Changes -/

/-- A change of the scopes of a module. -/
inductive Change
  | push (parent : ScopeId) (kind : ScopeKind)
  | declare (id : ScopeId) (entry : SymbolEntry)
  | define (id : ScopeId) (entry : SymbolEntry)
  | retype (id : ScopeId) (name : String) (f : TypeExpr → TypeExpr)

/-- The table after a change. A declaration that is refused leaves it as it is. -/
def apply (t : ScopeTable) : Change → ScopeTable
  | .push parent kind => (t.push parent kind).2
  | .declare id entry =>
    match t.declare id entry with
    | .ok t' => t'
    | .error _ => t
  | .define id entry => t.define id entry
  | .retype id name f => t.retype id name f

/-- A new scope stands in one that is there. -/
def Change.Within (t : ScopeTable) : Change → Prop
  | .push parent _ => parent < t.size
  | .declare .. | .define .. | .retype .. => True

/-- The tables that come about from the root alone. -/
inductive Reached : ScopeTable → Prop
  | empty : Reached .empty
  | change {t : ScopeTable} (change : Change) : Reached t → change.Within t →
    Reached (t.apply change)

variable {t t' : ScopeTable} {id found outer : ScopeId} {name : String} {entry : SymbolEntry}

theorem rooted_empty : empty.Rooted where
  earlier {id parent} outward := by
    obtain ⟨scope, there, around⟩ := Option.bind_eq_some_iff.mp outward
    obtain ⟨inside, same⟩ := Array.getElem?_eq_some_iff.mp there
    have first : id = 0 := Nat.lt_one_iff.mp inside
    subst first
    subst same
    cases around
  inside {id} inside apart := absurd (Nat.lt_one_iff.mp inside) apart

/-- Every change but a new scope leaves the scopes where they are. -/
theorem Rooted.apply {change : Change} (rooted : t.Rooted) (within : change.Within t) :
    (t.apply change).Rooted := by
  cases change with
  | push parent kind => exact rooted.push within
  | declare id entry =>
    rw [ScopeTable.apply]
    split
    · next t' run =>
      obtain ⟨-, rfl⟩ := declare_eq_ok run
      exact sameShape_define.rooted rooted
    · exact rooted
  | define id entry => exact sameShape_define.rooted rooted
  | retype id name f => exact sameShape_retype.rooted rooted

theorem Reached.rooted (reached : Reached t) : t.Rooted := by
  induction reached with
  | empty => exact rooted_empty
  | change _ _ within ih => exact ih.apply within

/-! ## Loops outwards -/

/-- A loop outwards from a scope, if there is one: each scope is asked, and the first answer is that of
the loop. -/
inductive Walk {α : Type} (t : ScopeTable) (f : Scope → Option α) :
    Option ScopeId → Option (ScopeId × α) → Prop
  | ended : Walk t f none none
  | missing {id : ScopeId} : t.scope? id = none → Walk t f (some id) none
  | answered {id : ScopeId} {scope : Scope} {answer : α} : t.scope? id = some scope →
    f scope = some answer → Walk t f (some id) (some (id, answer))
  | outward {id : ScopeId} {scope : Scope} {result : Option (ScopeId × α)} :
    t.scope? id = some scope → f scope = none → Walk t f scope.parent result →
    Walk t f (some id) result

section

variable {α : Type} {f : Scope → Option α}

/-- A loop comes to one result at most. -/
theorem Walk.unique {start : Option ScopeId} {result other : Option (ScopeId × α)}
    (walk : t.Walk f start result) (walk' : t.Walk f start other) : result = other := by
  induction walk generalizing other with
  | ended => cases walk'; rfl
  | missing absent =>
    cases walk' with
    | missing => rfl
    | answered there => cases absent.symm.trans there
    | outward there => cases absent.symm.trans there
  | answered there answer =>
    cases walk' with
    | missing absent => cases absent.symm.trans there
    | answered there' answer' =>
      obtain rfl := Option.some.inj (there.symm.trans there')
      rw [Option.some.inj (answer.symm.trans answer')]
    | outward there' silent =>
      obtain rfl := Option.some.inj (there.symm.trans there')
      cases answer.symm.trans silent
  | outward there silent _ ih =>
    cases walk' with
    | missing absent => cases absent.symm.trans there
    | answered there' answer =>
      obtain rfl := Option.some.inj (there.symm.trans there')
      cases silent.symm.trans answer
    | outward there' _ rest =>
      obtain rfl := Option.some.inj (there.symm.trans there')
      exact ih rest

/-- As many rounds as there are scopes up to the first one are enough for a loop. -/
theorem Rooted.walk_search (rooted : t.Rooted) {fuel : Nat} (enough : id < fuel) :
    t.Walk f (some id) (t.search f fuel id) := by
  induction fuel generalizing id with
  | zero => exact absurd enough (Nat.not_lt_zero _)
  | succ fuel ih =>
    rw [search]
    cases there : t.scope? id with
    | none => exact .missing there
    | some scope =>
      cases answer : f scope with
      | some a => simpa [answer] using Walk.answered there answer
      | none =>
        cases around : scope.parent with
        | none => simpa [answer, around] using Walk.outward there answer (around ▸ .ended)
        | some parent =>
          have outward : t.parent? id = some parent := by
            rw [parent?, there, Option.bind_some, around]
          have lower := rooted.earlier outward
          have rest := ih (Nat.lt_of_lt_of_le lower (Nat.le_of_lt_succ enough))
          simpa [answer, around] using Walk.outward there answer (around ▸ rest)

/-- Every loop comes to an end, with what the search finds. -/
theorem Rooted.walk_iff (rooted : t.Rooted) {result : Option (ScopeId × α)} :
    t.Walk f (some id) result ↔ t.search f t.size id = result := by
  have walk : t.Walk f (some id) (t.search f t.size id) := by
    by_cases there : id < t.size
    · exact rooted.walk_search there
    · have absent := scope?_eq_none_iff.mpr (Nat.le_of_not_lt there)
      cases size : t.size with
      | zero => exact .missing absent
      | succ fuel => simpa [search, absent] using Walk.missing absent
  exact ⟨fun walk' => walk.unique walk', fun same => same ▸ walk⟩

end

/-! ## The nearest scope -/

/-- The nearest scope outwards of those that are meant. -/
structure Nearest (t : ScopeTable) (meant : ScopeId → Prop) (id found : ScopeId) : Prop where
  within : t.Within id found
  isMeant : meant found
  /-- Any other one is further outwards. -/
  first : ∀ outer, t.Within id outer → meant outer → t.Within found outer

/-- Outwards of a scope stand earlier ones only. -/
theorem Rooted.le_of_within (rooted : t.Rooted) (within : t.Within id outer) : outer ≤ id := by
  induction within with
  | refl => exact Nat.le_refl _
  | step outward _ ih => exact Nat.le_trans ih (Nat.le_of_lt (rooted.earlier outward))

/-- There is one nearest scope at most. -/
theorem Nearest.unique {meant : ScopeId → Prop} {other : ScopeId} (rooted : t.Rooted)
    (nearest : t.Nearest meant id found) (nearest' : t.Nearest meant id other) : found = other :=
  Nat.le_antisymm (rooted.le_of_within (nearest'.first found nearest.within nearest.isMeant))
    (rooted.le_of_within (nearest.first other nearest'.within nearest'.isMeant))

/-- A scope that is not there stands in none. -/
theorem lt_size_of_meant {meant : ScopeId → Prop} (there : ∀ id, meant id → id < t.size)
    (within : t.Within id outer) (isMeant : meant outer) : id < t.size := by
  cases within with
  | refl => exact there id isMeant
  | step outward _ =>
    obtain ⟨scope, inside, -⟩ := Option.bind_eq_some_iff.mp outward
    exact (Array.getElem?_eq_some_iff.mp inside).1

/-- What a search finds is the nearest scope that answers. -/
theorem Rooted.search_eq_some_iff {α : Type} {f : Scope → Option α} {answer : α} (rooted : t.Rooted) :
    t.search f t.size id = some (found, answer) ↔
      t.Nearest (fun id => ((t.scope? id).bind f).isSome) id found ∧
        (t.scope? found).bind f = some answer := by
  have there (id : ScopeId) (answers : ((t.scope? id).bind f).isSome) : id < t.size := by
    refine Nat.lt_of_not_le fun outside => ?_
    rw [scope?_eq_none_iff.mpr outside] at answers
    cases answers
  constructor
  · intro search
    obtain ⟨within, answers⟩ := within_of_search search
    have isMeant : ((t.scope? found).bind f).isSome := Option.isSome_of_eq_some answers
    have inside : id < t.size := lt_size_of_meant there within isMeant
    exact ⟨⟨within, isMeant, fun outer within' isMeant' =>
      within_found_of_search rooted inside search within' isMeant'⟩, answers⟩
  · rintro ⟨nearest, answers⟩
    have inside : id < t.size := lt_size_of_meant there nearest.within nearest.isMeant
    cases search : t.search f t.size id with
    | none =>
      have silent := eq_none_of_search rooted inside search nearest.within
      cases silent.symm.trans answers
    | some result =>
      obtain ⟨other, answer'⟩ := result
      obtain ⟨within, answers'⟩ := within_of_search search
      have isMeant : ((t.scope? other).bind f).isSome := Option.isSome_of_eq_some answers'
      have nearest' : t.Nearest (fun id => ((t.scope? id).bind f).isSome) id other :=
        ⟨within, isMeant, fun outer => within_found_of_search rooted inside search⟩
      obtain rfl := nearest.unique rooted nearest'
      rw [Option.some.inj (answers.symm.trans answers')]

/-- A name means the declaration of the nearest scope that holds it. -/
theorem Rooted.lookup_eq_some_iff (rooted : t.Rooted) :
    t.lookup id name = some (found, entry) ↔
      t.Nearest (fun id => (t.held? id name).isSome) id found ∧ t.held? found name = some entry :=
  rooted.search_eq_some_iff

/-- The nearest scope of a kind is the one that is found. -/
theorem Rooted.enclosing_eq_some_iff {kind : ScopeKind} (rooted : t.Rooted) :
    t.enclosing id kind = some found ↔ t.Nearest (fun id => t.kind? id = some kind) id found := by
  have isKind (id : ScopeId) :
      (t.scope? id).bind (fun scope => if scope.kind = kind then some () else none) = some () ↔
        t.kind? id = some kind := by
    rw [kind?]
    cases t.scope? id <;> simp
  have same : (fun id => ((t.scope? id).bind fun scope =>
      if scope.kind = kind then some () else none).isSome = true) = fun id => t.kind? id = some kind := by
    funext id
    rw [← isKind]
    cases (t.scope? id).bind fun scope => if scope.kind = kind then some () else none <;> simp
  rw [enclosing, Option.map_eq_some_iff, ← same]
  constructor
  · rintro ⟨⟨_, ⟨⟩⟩, search, rfl⟩
    exact (rooted.search_eq_some_iff.mp search).1
  · intro nearest
    obtain ⟨⟨⟩, answers⟩ := Option.isSome_iff_exists.mp nearest.isMeant
    exact ⟨(found, ()), rooted.search_eq_some_iff.mpr ⟨nearest, answers⟩, rfl⟩

/-! ## Declarations -/

/-- A declaration is refused if its scope holds the name, with the position of what it collides
with. -/
theorem declare_eq_error_iff {clash : Redeclared} :
    t.declare id entry = .error clash ↔
      ∃ old, t.held? id entry.name = some old ∧ clash = ⟨entry.name, old.declaredAt⟩ := by
  cases held : t.held? id entry.name with
  | none => simp [declare_of_none held]
  | some old =>
    rw [held?] at held
    simp [declare, held, eq_comm]

/-- A name of a scope can be seen from another one that stands inside it, with no scope from there on
that holds the name. -/
structure Reveals (t : ScopeTable) (outer : ScopeId) (name : String) (id : ScopeId) : Prop where
  within : t.Within id outer
  clear : ∀ near, t.Within id near → t.Within near outer → t.held? near name = none

/-- Tables of one shape have the same ways outwards. -/
theorem SameShape.within (shape : t.SameShape t') (within : t.Within id outer) :
    t'.Within id outer := by
  induction within with
  | refl => exact .refl _
  | step outward _ ih => exact .step ((shape.parent? _).trans outward) ih

theorem SameShape.within_iff (shape : t.SameShape t') : t'.Within id outer ↔ t.Within id outer :=
  ⟨shape.symm.within, shape.within⟩

/-- Two scopes on one way outwards stand inside one another. -/
theorem within_or_within {other : ScopeId} (within : t.Within id outer)
    (within' : t.Within id other) : t.Within outer other ∨ t.Within other outer := by
  induction within with
  | refl => exact .inl within'
  | step outward rest ih =>
    cases within' with
    | refl => exact .inr (.step outward rest)
    | step outward' rest' =>
      obtain rfl := Option.some.inj (outward.symm.trans outward')
      exact ih rest'

/-- Where the name of a new declaration can be seen, it means that. -/
theorem Rooted.lookup_declare_of_reveals (rooted : t.Rooted) (run : t.declare outer entry = .ok t')
    (inside : outer < t.size) (reveals : t.Reveals outer entry.name id) :
    t'.lookup id entry.name = some (outer, entry) := by
  obtain ⟨-, rfl⟩ := declare_eq_ok run
  have shape : t.SameShape (t.define outer entry) := sameShape_define
  have held : (t.define outer entry).held? outer entry.name = some entry := by
    rw [held?_define, if_pos ⟨rfl, rfl, inside⟩]
  refine (shape.rooted rooted).lookup_eq_some_iff.mpr
    ⟨⟨shape.within reveals.within, Option.isSome_of_eq_some held, fun other within holds => ?_⟩, held⟩
  rw [shape.within_iff] at within ⊢
  rcases within_or_within reveals.within within with outwards | inwards
  · exact outwards
  · have clear := reveals.clear other within inwards
    by_cases same : outer = other
    · exact same ▸ .refl outer
    · rw [held?_define, if_neg fun both => same both.1, clear] at holds
      cases holds

/-- Tables of one shape that say the same of a name outwards of a scope give it the same meaning
there. -/
theorem Rooted.lookup_congr (rooted : t.Rooted) (shape : t.SameShape t')
    (same : ∀ outer, t.Within id outer → t'.held? outer name = t.held? outer name) :
    t'.lookup id name = t.lookup id name := by
  refine Option.ext fun ⟨found, result⟩ => ?_
  rw [(shape.rooted rooted).lookup_eq_some_iff, rooted.lookup_eq_some_iff]
  constructor
  · rintro ⟨⟨within, holds, first⟩, means⟩
    have within := shape.within_iff.mp within
    rw [same found within] at holds means
    refine ⟨⟨within, holds, fun outer outwards isHolder => shape.within_iff.mp ?_⟩, means⟩
    exact first outer (shape.within outwards) (same outer outwards ▸ isHolder)
  · rintro ⟨⟨within, holds, first⟩, means⟩
    rw [← same found within] at holds means
    refine ⟨⟨shape.within within, holds, fun outer outwards isHolder => shape.within ?_⟩, means⟩
    have outwards := shape.within_iff.mp outwards
    exact first outer outwards (same outer outwards ▸ isHolder)

/-- Everywhere else all names mean what they did. -/
theorem Rooted.lookup_declare_of_not_reveals (rooted : t.Rooted)
    (run : t.declare outer entry = .ok t') (other : ¬ (name = entry.name ∧ t.Reveals outer name id)) :
    t'.lookup id name = t.lookup id name := by
  obtain ⟨fresh, rfl⟩ := declare_eq_ok run
  have shape : t.SameShape (t.define outer entry) := sameShape_define
  have kept {scope : ScopeId} (apart : ¬ (outer = scope ∧ entry.name = name)) :
      (t.define outer entry).held? scope name = t.held? scope name := by
    rw [held?_define, if_neg fun all => apart ⟨all.1, all.2.1⟩]
  by_cases aside : entry.name = name ∧ t.Within id outer
  · obtain ⟨rfl, within⟩ := aside
    -- Some nearer scope holds the name, and what it means is declared there or nearer still.
    obtain ⟨near, inwards, outwards, hides⟩ : ∃ near, t.Within id near ∧ t.Within near outer ∧
        t.held? near entry.name ≠ none := by
      refine Classical.byContradiction fun none => other ⟨rfl, within, fun near inwards outwards => ?_⟩
      exact Classical.byContradiction fun hides => none ⟨near, inwards, outwards, hides⟩
    obtain ⟨held, isHeld⟩ := Option.ne_none_iff_exists'.mp hides
    have there (scope : ScopeId) (holds : t.held? scope entry.name ≠ none) : scope < t.size := by
      obtain ⟨_, isHeld⟩ := Option.ne_none_iff_exists'.mp holds
      exact lt_size_of_held? isHeld
    have inside : id < t.size := lt_size_of_meant there inwards hides
    cases before : t.lookup id entry.name with
    | none =>
      have none := held?_of_lookup_eq_none rooted inside before inwards
      cases none.symm.trans isHeld
    | some meaning =>
      obtain ⟨found, result⟩ := meaning
      obtain ⟨⟨reached, holds, first⟩, means⟩ := rooted.lookup_eq_some_iff.mp before
      have toNear := first near inwards (Option.isSome_of_eq_some isHeld)
      have apart : ¬ (outer = found ∧ entry.name = entry.name) := by
        rintro ⟨rfl, -⟩
        cases fresh.symm.trans means
      refine (shape.rooted rooted).lookup_eq_some_iff.mpr ⟨⟨shape.within reached, ?_, ?_⟩, ?_⟩
      · rwa [kept apart]
      · intro scope towards isHolder
        refine shape.within ?_
        by_cases same : outer = scope
        · exact same ▸ toNear.trans outwards
        · rw [kept fun both => same both.1] at isHolder
          exact first scope (shape.within_iff.mp towards) isHolder
      · rwa [kept apart]
  · refine rooted.lookup_congr shape fun scope within => kept ?_
    rintro ⟨rfl, named⟩
    exact aside ⟨named, within⟩

/-! ## The law of scopes -/

/-- What holds of the scopes of every table. A scope stands in an earlier one, so that every loop
outwards comes to an end, with what is looked up: the declaration of the nearest scope that holds the
name, and the nearest scope of a kind. A declaration is refused where its scope holds the name, with the
position of what that was declared at, and changes nothing then. If it is not refused, its name means
it wherever nothing nearer hides that, and everywhere else all names mean what they did. -/
theorem Reached.scope_law (reached : Reached t) :
    (∀ id parent, t.parent? id = some parent → parent < id ∧ id < t.size) ∧
    (∀ id name result, t.Walk (·.get? name) (some id) result ↔ t.lookup id name = result) ∧
    (∀ id kind found, t.enclosing id kind = found ↔
      ∃ result, found = result.map (·.1) ∧
        t.Walk (fun scope => if scope.kind = kind then some () else none) (some id) result) ∧
    (∀ id name found entry, t.lookup id name = some (found, entry) ↔
      t.Nearest (fun id => (t.held? id name).isSome) id found ∧ t.held? found name = some entry) ∧
    (∀ id kind found, t.enclosing id kind = some found ↔
      t.Nearest (fun id => t.kind? id = some kind) id found) ∧
    (∀ id entry clash,
      (t.declare id entry = .error clash ↔
        ∃ old, t.held? id entry.name = some old ∧ clash = ⟨entry.name, old.declaredAt⟩) ∧
      (t.declare id entry = .error clash → t.apply (.declare id entry) = t)) ∧
    ∀ scope entry t', t.declare scope entry = .ok t' →
      t.held? scope entry.name = none ∧ t.apply (.declare scope entry) = t' ∧
      (∀ id, scope < t.size → t.Reveals scope entry.name id →
        t'.lookup id entry.name = some (scope, entry)) ∧
      ∀ id name, t'.lookup id name ≠ t.lookup id name →
        name = entry.name ∧ t.Reveals scope name id := by
  have rooted := reached.rooted
  refine ⟨fun id parent outward => ⟨rooted.earlier outward, ?_⟩, fun id name result => rooted.walk_iff,
    fun id kind found => ⟨?_, ?_⟩, fun id name found entry => rooted.lookup_eq_some_iff,
    fun id kind found => rooted.enclosing_eq_some_iff, fun id entry clash =>
      ⟨declare_eq_error_iff, fun run => ?_⟩, fun scope entry t' run =>
      ⟨(declare_eq_ok run).1, ?_, fun id inside reveals => ?_, fun id name changed => ?_⟩⟩
  · obtain ⟨scope, inside, -⟩ := Option.bind_eq_some_iff.mp outward
    exact (Array.getElem?_eq_some_iff.mp inside).1
  · rintro rfl
    exact ⟨_, rfl, rooted.walk_iff.mpr rfl⟩
  · rintro ⟨result, rfl, walk⟩
    rw [enclosing, rooted.walk_iff.mp walk]
  · rw [apply, run]
  · rw [apply, run]
  · exact rooted.lookup_declare_of_reveals run inside reveals
  · exact Classical.byContradiction fun other =>
      changed (rooted.lookup_declare_of_not_reveals run other)

/-- A declaration of a variable at the start of a line. -/
def lineEntry (name : String) (line : Nat) : SymbolEntry :=
  ⟨name, .variable, true, .number, ⟨line, 1, 0⟩⟩

/-- A module that declares a name, and a block in it with a function inside. -/
def nested : ScopeTable :=
  ⟨#[⟨none, .root, []⟩, ⟨some 0, .module, [lineEntry "x" 3]⟩, ⟨some 1, .block, []⟩,
    ⟨some 2, .function, []⟩]⟩

theorem reached_nested : Reached nested := by
  have inModule := Reached.empty.change (.push 0 .module) Nat.zero_lt_one
  have declared := inModule.change (.declare 1 (lineEntry "x" 3)) trivial
  have inBlock := declared.change (.push 1 .block) Nat.one_lt_two
  exact inBlock.change (.push 2 .function) (Nat.lt_succ_self 2)

/-- When the block declares the name too, the function inside it sees that and the module its own; the
module may not declare the name again. -/
theorem scope_law_of_nested :
    Reached nested ∧ nested.lookup 3 "x" = some (1, lineEntry "x" 3) ∧
      nested.enclosing 3 .module = some 1 ∧
      nested.declare 1 (lineEntry "x" 7) = .error ⟨"x", ⟨3, 1, 0⟩⟩ ∧
      ∃ t', nested.declare 2 (lineEntry "x" 7) = .ok t' ∧
        t'.lookup 3 "x" = some (2, lineEntry "x" 7) ∧ t'.lookup 1 "x" = nested.lookup 1 "x" := by
  obtain ⟨-, looked, -, -, -, refused, declared⟩ := reached_nested.scope_law
  have run : nested.declare 2 (lineEntry "x" 7) =
      .ok (nested.define 2 (lineEntry "x" 7)) := rfl
  obtain ⟨-, -, seen, changed⟩ := declared 2 (lineEntry "x" 7) _ run
  refine ⟨reached_nested, rfl, rfl, (refused 1 (lineEntry "x" 7) _).1.mpr ⟨_, rfl, rfl⟩, _, run,
    seen 3 (by decide) ⟨.step rfl (.refl 2), fun near inwards outwards => ?_⟩,
    Classical.byContradiction fun other => ?_⟩
  · have rooted := reached_nested.rooted
    rcases Nat.eq_or_lt_of_le (rooted.le_of_within inwards) with rfl | below
    · rfl
    · obtain rfl := Nat.le_antisymm (Nat.le_of_lt_succ below) (rooted.le_of_within outwards)
      rfl
  · have outwards := reached_nested.rooted.le_of_within (changed 1 "x" other).2.within
    exact absurd outwards (by decide)

end ScriptEngine.ScopeTable
