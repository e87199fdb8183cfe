import Mathlib.Data.Set.Card
import ScriptEngine.Proofs.Analysis.Coverage
import ScriptEngine.Proofs.Scope.History

/-!
# The context of an analysis at every moment

An analysis knows the current scope and counts the entities, loops and bodies that are open. What it
opens before some work it closes behind it, so that whatever follows finds the context as it was. In
between the count of entities is that of their scopes around the current one.

A run of an analysis only tells how it ends. Its moments are those of a script, which names one after
another the acts that the analysis is put together from.

* `ScopeTable.entitiesAround`: the scopes of entities that a scope is or stands in.
* `State.Anchored`: the invariant of all moments.
* `Act`, `Script`: single acts, and how an analysis is put together from them.
* `Script.Passes`: the states at the moments of a script.
* `Script.keeps`: a script leaves the context as it was; `Script.Passes.anchored`: at every moment the
  context is right.
* `scripting`: the judgement that a step is put together by a script.
* `Form`: the parts of a tree whose analysis is a step of its own.
* `Module.context_kept`: all of this together, for the analysis of a module.
-/

namespace ScriptEngine

/-! ## Scopes of entities -/

namespace ScopeTable

/-- The scopes of entities that a scope is or stands in. -/
def entitiesAround (t : ScopeTable) (id : ScopeId) : Set ScopeId :=
  {outer | t.Within id outer ∧ t.kind? outer = some .entity}

variable {t t' : ScopeTable} {id outer : ScopeId} {kind : ScopeKind}

theorem Rooted.finite_entitiesAround (rooted : t.Rooted) : (t.entitiesAround id).Finite :=
  (Set.finite_le_nat id).subset fun _ member => rooted.le_of_within member.1

/-- Scopes that are appended stand around none that was there. -/
theorem Appends.entitiesAround_eq (h : t.Appends t') (rooted : t.Rooted) (there : id < t.size) :
    t'.entitiesAround id = t.entitiesAround id := by
  have within (outer : ScopeId) : t'.Within id outer ↔ t.Within id outer :=
    (Extends.of_appends h).within_iff rooted there
  ext outer
  constructor
  · rintro ⟨outwards, entity⟩
    have outwards := (within outer).mp outwards
    have old := rooted.lt_size_of_within there outwards
    exact ⟨outwards, (h.kind? outer old).symm.trans entity⟩
  · rintro ⟨outwards, entity⟩
    have old := rooted.lt_size_of_within there outwards
    exact ⟨(within outer).mpr outwards, (h.kind? outer old).trans entity⟩

/-- Around a new scope stands what stands around the one that it is in. -/
theorem Rooted.within_push_iff (rooted : t.Rooted) (there : id < t.size) :
    (t.push id kind).2.Within t.size outer ↔ outer = t.size ∨ t.Within id outer := by
  have inside : (t.push id kind).2.parent? t.size = some id := by rw [parent?_push, if_pos rfl]
  have grown : t.Extends (t.push id kind).2 := .push
  have old : (t.push id kind).2.Within id outer ↔ t.Within id outer :=
    grown.within_iff rooted there
  constructor
  · intro within
    cases within with
    | refl => exact .inl rfl
    | step outward rest =>
      obtain rfl := Option.some.inj (inside.symm.trans outward)
      exact .inr (old.mp rest)
  · rintro (rfl | within)
    · exact .refl _
    · exact .step inside (old.mpr within)

/-- A new scope stands in the entities around it, and is one of them if it is that of an entity. -/
theorem Rooted.mem_entitiesAround_push (rooted : t.Rooted) (there : id < t.size) :
    outer ∈ (t.push id kind).2.entitiesAround t.size ↔
      outer = t.size ∧ kind = .entity ∨ outer ∈ t.entitiesAround id := by
  show (t.push id kind).2.Within t.size outer ∧ (t.push id kind).2.kind? outer = some .entity ↔
    outer = t.size ∧ kind = .entity ∨ t.Within id outer ∧ t.kind? outer = some .entity
  rw [rooted.within_push_iff there, kind?_push]
  by_cases new : outer = t.size
  · subst new
    have apart : ¬ t.Within id t.size := fun within =>
      Nat.lt_irrefl _ (rooted.lt_size_of_within there within)
    simp [apart]
  · simp [new]

/-- A scope of another kind stands in as many entities as the scope around it. -/
theorem Rooted.ncard_entitiesAround_push (rooted : t.Rooted) (there : id < t.size)
    (plain : kind ≠ .entity) :
    ((t.push id kind).2.entitiesAround t.size).ncard = (t.entitiesAround id).ncard := by
  congr 1
  ext outer
  rw [rooted.mem_entitiesAround_push there]
  simp [plain]

/-- The scope of an entity stands in one entity more. -/
theorem Rooted.ncard_entitiesAround_push_entity (rooted : t.Rooted) (there : id < t.size) :
    ((t.push id .entity).2.entitiesAround t.size).ncard = (t.entitiesAround id).ncard + 1 := by
  have fresh : t.size ∉ t.entitiesAround id := fun member =>
    Nat.lt_irrefl _ (rooted.lt_size_of_within there member.1)
  have inserted : (t.push id .entity).2.entitiesAround t.size =
      insert t.size (t.entitiesAround id) := by
    ext outer
    rw [rooted.mem_entitiesAround_push there, Set.mem_insert_iff]
    simp
  rw [inserted, Set.ncard_insert_of_notMem fresh rooted.finite_entitiesAround]

end ScopeTable

namespace Analyzing

/-! ## The context -/

namespace State

/-- The current scope is there, and the number of entities is that of their scopes around it. -/
structure Anchored (s : State) : Prop where
  rooted : s.table.Rooted
  there : s.current < s.table.size
  entityDepth : s.entityDepth = (s.table.entitiesAround s.current).ncard

/-- The context is as it was, and the scopes have been appended to. -/
structure Keeps (s s' : State) : Prop extends Balanced s s' where
  rooted : s'.table.Rooted
  table : s.table.Appends s'.table

variable {s s' s'' : State}

theorem Anchored.within_root (h : s.Anchored) : s.table.Within s.current ScopeTable.root :=
  h.rooted.within_root h.there

theorem Anchored.keeps_self (h : s.Anchored) : s.Keeps s :=
  ⟨.refl s, h.rooted, .refl _⟩

theorem Keeps.trans (h : s.Keeps s') (h' : s'.Keeps s'') : s.Keeps s'' :=
  ⟨h.toBalanced.trans h'.toBalanced, h'.rooted, h.table.trans h'.table⟩

/-- What is kept is right afterwards if it was before. -/
theorem Anchored.of_keeps (h : s.Anchored) (kept : s.Keeps s') : s'.Anchored where
  rooted := kept.rooted
  there := by
    rw [kept.current]
    exact Nat.lt_of_lt_of_le h.there kept.table.size
  entityDepth := by
    rw [kept.entityDepth, kept.current, kept.table.entitiesAround_eq h.rooted h.there, h.entityDepth]

/-- Loops and bodies are no part of it. -/
theorem Anchored.of_same (h : s.Anchored) (table : s'.table = s.table)
    (current : s'.current = s.current) (entityDepth : s'.entityDepth = s.entityDepth) :
    s'.Anchored where
  rooted := table ▸ h.rooted
  there := by
    rw [table, current]
    exact h.there
  entityDepth := by
    rw [table, current, entityDepth]
    exact h.entityDepth

/-- A scope that is not that of an entity may be entered. -/
theorem Anchored.inner (h : s.Anchored) {kind : ScopeKind} (plain : kind ≠ .entity) :
    (s.inner kind).Anchored where
  rooted := h.rooted.push h.there
  there := by
    show s.table.size < (s.table.push s.current kind).2.size
    rw [ScopeTable.size_push]
    exact Nat.lt_succ_self _
  entityDepth := by
    show s.entityDepth = ((s.table.push s.current kind).2.entitiesAround s.table.size).ncard
    rw [h.rooted.ncard_entitiesAround_push h.there plain, h.entityDepth]

/-- The scope of an entity may be entered where it is counted. -/
theorem Anchored.entity (h : s.Anchored) :
    (State.inner { s with entityDepth := s.entityDepth + 1 } .entity).Anchored where
  rooted := h.rooted.push h.there
  there := by
    show s.table.size < (s.table.push s.current .entity).2.size
    rw [ScopeTable.size_push]
    exact Nat.lt_succ_self _
  entityDepth := by
    show s.entityDepth + 1 =
      ((s.table.push s.current .entity).2.entitiesAround s.table.size).ncard
    rw [h.rooted.ncard_entitiesAround_push_entity h.there, h.entityDepth]

/-- Before the first statement there is no entity. -/
theorem Anchored.start (bindings : List String) : (State.start bindings).Anchored where
  rooted := start_rooted bindings
  there := by
    rw [start_size]
    exact Nat.lt_succ_self moduleScope
  entityDepth := by
    have none : (State.start bindings).table.entitiesAround moduleScope = ∅ := by
      refine Set.eq_empty_of_forall_notMem fun outer ⟨outwards, entity⟩ => ?_
      have old := (start_rooted bindings).le_of_within outwards
      rw [(start_sameShape [] bindings).kind?] at entity
      match outer, old with
      | 0, _ => exact absurd entity (by decide)
      | 1, _ => exact absurd entity (by decide)
    show 0 = ((State.start bindings).table.entitiesAround moduleScope).ncard
    rw [none, Set.ncard_empty]

end State

open State

/-! ## Acts -/

/-- A single act of an analysis, by which nothing is opened or closed. -/
inductive Act : {α : Type} → Analyzer α → Prop
  | look : Act (get : Analyzer State)
  | ask : Act (read : Analyzer Setting)
  | reject {α : Type} (error : SemanticError) : Act (throw error : Analyzer α)
  | warn (warning : Warning) (position : Position) : Act (warn warning position)
  | recordType (id : Nat) (type : TypeExpr) : Act (recordType id type)
  | recordMeaning (id : Nat) (ref : SymbolRef) : Act (recordMeaning id ref)
  | meet (id : Nat) (name : String) : Act (meet id name)
  | meetWrite (name : String) (scope : ScopeId) (inside : Bool) : Act (meetWrite name scope inside)
  | nameSpace (name : String) : Act (nameSpace name)
  | complete (type : TypeExpr) : Act (complete type)
  | retype (name : String) (f : TypeExpr → TypeExpr) : Act (retype name f)
  | declare (name : String) (kind : SymbolKind) (assignable : Bool) (type : TypeExpr)
      (position : Position) : Act (declare name kind assignable type position)
  /-- Only a name that nothing declares is left to a run. -/
  | readName (id : Nat) (position : Position) (name : String) : Act (readName id position name)

variable {α β : Type} {x : Analyzer α} {f : α → Analyzer β} {setting : Setting} {s s' t : State}

/-- A change beside the table. -/
theorem State.Anchored.keeps_of_table (h : s.Anchored) (balanced : s.Balanced s')
    (table : s'.table = s.table) : s.Keeps s' :=
  ⟨balanced, table ▸ h.rooted, table ▸ .refl _⟩

/-- A change of the table in which all scopes stay. -/
theorem State.Anchored.keeps_of_shape (h : s.Anchored) (balanced : s.Balanced s')
    (shape : s.table.SameShape s'.table) (table : s.table.Appends s'.table) : s.Keeps s' :=
  ⟨balanced, shape.rooted h.rooted, table⟩

/-- A name that is left to a run is one that the root does not hold. -/
theorem keeps_readName {id : Nat} {position : Position} {name : String} {type : TypeExpr}
    (run : readName id position name setting s = .ok (type, s')) (anchored : s.Anchored) :
    s.Keeps s' := by
  obtain ⟨_, _, first, run⟩ := bind_eq_ok run
  cases first
  obtain ⟨_, _, first, run⟩ := bind_eq_ok run
  cases first
  cases meaning : s.table.lookup s.current name with
  | some found =>
    obtain ⟨scope, entry⟩ := found
    rw [meaning] at run
    cases run
    exact anchored.keeps_of_table ⟨rfl, rfl, rfl, rfl⟩ rfl
  | none =>
    rw [meaning] at run
    by_cases inside : 0 < s.entityDepth
    · simp only [inside, if_true] at run
      cases run
      exact anchored.keeps_of_table ⟨rfl, rfl, rfl, rfl⟩ rfl
    · simp only [inside, if_false] at run
      obtain ⟨_, _, asked, run⟩ := bind_eq_ok run
      cases asked
      by_cases strict : setting.strict = true
      · simp only [strict, if_true] at run
        obtain ⟨_, _, failed, -⟩ := bind_eq_ok run
        cases failed
      · simp only [strict] at run
        cases run
        -- The root is outwards of every current scope, so that it was asked for the name, too.
        have fresh : s.table.held? ScopeTable.root name = none :=
          ScopeTable.held?_of_lookup_eq_none anchored.rooted anchored.there meaning
            anchored.within_root
        exact anchored.keeps_of_shape ⟨rfl, rfl, rfl, rfl⟩ ScopeTable.sameShape_define
          (.define fresh)

/-- A declaration is of a name that the current scope does not hold. -/
theorem keeps_declare {name : String} {kind : SymbolKind} {assignable : Bool} {type : TypeExpr}
    {position : Position} (run : declare name kind assignable type position setting s = .ok ((), s'))
    (anchored : s.Anchored) : s.Keeps s' := by
  obtain ⟨_, _, first, run⟩ := bind_eq_ok run
  cases first
  cases declared : s.table.declare s.current ⟨name, kind, assignable, type, position⟩ with
  | ok table =>
    rw [declared] at run
    cases run
    obtain ⟨fresh, rfl⟩ := ScopeTable.declare_eq_ok declared
    exact anchored.keeps_of_shape ⟨rfl, rfl, rfl, rfl⟩ ScopeTable.sameShape_define (.define fresh)
  | error old =>
    rw [declared] at run
    cases run

/-- A type that may complete the innermost body is added to its own, and no body is opened. -/
theorem keeps_complete {type : TypeExpr} (run : complete type setting s = .ok ((), s'))
    (anchored : s.Anchored) : s.Keeps s' := by
  cases run
  cases bodies : s.boundaries with
  | nil => exact anchored.keeps_of_table (by simp [bodies, Balanced.refl]) (by simp [bodies])
  | cons inner outer =>
    exact anchored.keeps_of_table ⟨by simp [bodies], by simp [bodies], by simp [bodies],
      by simp [bodies]⟩ (by simp [bodies])

/-- An act keeps the context. -/
theorem Act.keeps (act : Act x) {a : α} (run : x setting s = .ok (a, s')) (anchored : s.Anchored) :
    s.Keeps s' := by
  cases act with
  | look | ask | warn | recordType | recordMeaning | meet | meetWrite | nameSpace =>
    cases run
    exact anchored.keeps_of_table ⟨rfl, rfl, rfl, rfl⟩ rfl
  | reject => cases run
  | complete => exact keeps_complete run anchored
  | retype =>
    cases run
    exact anchored.keeps_of_shape ⟨rfl, rfl, rfl, rfl⟩ ScopeTable.sameShape_retype .retype
  | declare => exact keeps_declare run anchored
  | readName => exact keeps_readName run anchored

/-! ## Scripts -/

/-- How a step of an analysis is put together from acts, and from work in what is opened before it and
closed behind it. An entity is entered and left in one, with its count and its scope. -/
inductive Script : Type → Type 1
  | ret {α : Type} (a : α) : Script α
  | act {α : Type} (x : Analyzer α) (act : Act x) : Script α
  | bind {α β : Type} (first : Script α) (next : α → Script β) : Script β
  | inScope {α : Type} (kind : ScopeKind) (plain : kind ≠ .entity) (work : Script α) : Script α
  | inEntity {α : Type} (work : Script α) : Script α
  | inLoop {α : Type} (work : Script α) : Script α
  | outsideLoops {α : Type} (work : Script α) : Script α
  | inBoundary {α : Type} (work : Script α) : Script (α × List TypeExpr)

/-- The step that a script puts together. -/
def Script.run : {α : Type} → Script α → Analyzer α
  | _, .ret a => pure a
  | _, .act x _ => x
  | _, .bind first next => first.run >>= fun a => (next a).run
  | _, .inScope kind _ work => Analyzing.inScope kind work.run
  | _, .inEntity work => Analyzing.inEntity work.run
  | _, .inLoop work => Analyzing.inLoop work.run
  | _, .outsideLoops work => Analyzing.outsideLoops work.run
  | _, .inBoundary work => Analyzing.inBoundary work.run

/-- While a script runs from a state, the state is some other one at a moment: when it starts, when it
has come to its end, or at a moment of what it is put together from, whether or not that succeeds. -/
inductive Script.Passes (setting : Setting) : {α : Type} → Script α → State → State → Prop
  | starts {α : Type} {c : Script α} {s : State} : Passes setting c s s
  | ends {α : Type} {c : Script α} {s t : State} {a : α} :
    c.run setting s = .ok (a, t) → Passes setting c s t
  | first {α β : Type} {first : Script α} {next : α → Script β} {s t : State} :
    Passes setting first s t → Passes setting (.bind first next) s t
  | next {α β : Type} {first : Script α} {next : α → Script β} {s s' t : State} {a : α} :
    first.run setting s = .ok (a, s') → Passes setting (next a) s' t →
    Passes setting (.bind first next) s t
  | inScope {α : Type} {kind : ScopeKind} {plain : kind ≠ .entity} {work : Script α} {s t : State} :
    Passes setting work (s.inner kind) t → Passes setting (.inScope kind plain work) s t
  | inEntity {α : Type} {work : Script α} {s t : State} :
    Passes setting work (State.inner { s with entityDepth := s.entityDepth + 1 } .entity) t →
    Passes setting (.inEntity work) s t
  | inLoop {α : Type} {work : Script α} {s t : State} :
    Passes setting work { s with loopDepth := s.loopDepth + 1 } t →
    Passes setting (.inLoop work) s t
  | outsideLoops {α : Type} {work : Script α} {s t : State} :
    Passes setting work { s with loopDepth := 0 } t → Passes setting (.outsideLoops work) s t
  | inBoundary {α : Type} {work : Script α} {s t : State} :
    Passes setting work { s with boundaries := [] :: s.boundaries } t →
    Passes setting (.inBoundary work) s t

/-- A script that succeeds has kept the context. -/
theorem Script.keeps (c : Script α) {a : α} (run : c.run setting s = .ok (a, s'))
    (anchored : s.Anchored) : s.Keeps s' := by
  -- The work in what is opened keeps that, too, so that closing it leads back to where it was opened.
  induction c generalizing s s' with
  | ret =>
    cases run
    exact anchored.keeps_self
  | act x act => exact act.keeps run anchored
  | bind first next firstKeeps nextKeeps =>
    obtain ⟨a, middle, run, rest⟩ := bind_eq_ok run
    have kept := firstKeeps run anchored
    exact kept.trans (nextKeeps a rest (anchored.of_keeps kept))
  | inScope kind plain work workKeeps =>
    obtain ⟨inner, inside, rfl⟩ := inScope_eq_ok run
    have kept := workKeeps inside (anchored.inner plain)
    exact ⟨⟨rfl, kept.entityDepth, kept.loopDepth, kept.boundaries⟩, kept.rooted,
      ScopeTable.Appends.push.trans kept.table⟩
  | inEntity work workKeeps =>
    obtain ⟨inner, inside, rfl⟩ := inEntity_eq_ok run
    have kept := workKeeps inside anchored.entity
    refine ⟨⟨rfl, ?_, kept.loopDepth, kept.boundaries⟩, kept.rooted,
      ScopeTable.Appends.push.trans kept.table⟩
    have depth : inner.entityDepth = s.entityDepth + 1 := kept.entityDepth
    show inner.entityDepth - 1 = s.entityDepth
    omega
  | inLoop work workKeeps =>
    obtain ⟨inner, inside, rfl⟩ := inLoop_eq_ok run
    have kept := workKeeps inside (anchored.of_same rfl rfl rfl)
    refine ⟨⟨kept.current, kept.entityDepth, ?_, kept.boundaries⟩, kept.rooted, kept.table⟩
    have depth : inner.loopDepth = s.loopDepth + 1 := kept.loopDepth
    show inner.loopDepth - 1 = s.loopDepth
    omega
  | outsideLoops work workKeeps =>
    obtain ⟨inner, inside, rfl⟩ := outsideLoops_eq_ok run
    have kept := workKeeps inside (anchored.of_same rfl rfl rfl)
    exact ⟨⟨kept.current, kept.entityDepth, rfl, kept.boundaries⟩, kept.rooted, kept.table⟩
  | inBoundary work workKeeps =>
    obtain ⟨inner, inside, rfl⟩ := inBoundary_eq_ok run
    have kept := workKeeps inside (anchored.of_same rfl rfl rfl)
    refine ⟨⟨kept.current, kept.entityDepth, kept.loopDepth, ?_⟩, kept.rooted, kept.table⟩
    have open' : inner.boundaries.length = s.boundaries.length + 1 := kept.boundaries
    show inner.boundaries.tail.length = s.boundaries.length
    rw [List.length_tail, open', Nat.add_sub_cancel]

/-- At every moment of a script the context is right. -/
theorem Script.Passes.anchored {c : Script α} (passes : c.Passes setting s t)
    (anchored : s.Anchored) : t.Anchored := by
  induction passes with
  | starts => exact anchored
  | ends run => exact anchored.of_keeps (Script.keeps _ run anchored)
  | first _ ih => exact ih anchored
  | next run _ ih => exact ih (anchored.of_keeps (Script.keeps _ run anchored))
  | inScope _ ih => exact ih (anchored.inner ‹_›)
  | inEntity _ ih => exact ih anchored.entity
  | inLoop _ ih => exact ih (anchored.of_same rfl rfl rfl)
  | outsideLoops _ ih => exact ih (anchored.of_same rfl rfl rfl)
  | inBoundary _ ih => exact ih (anchored.of_same rfl rfl rfl)

/-! ## The walk as a script -/

/-- A script puts a step together. -/
def Scripted (x : Analyzer α) : Prop := ∃ c : Script α, c.run = x

theorem scripted_pure (a : α) : Scripted (pure a) := ⟨.ret a, rfl⟩

theorem Act.scripted (act : Act x) : Scripted x := ⟨.act x act, rfl⟩

theorem scripted_bind (h : Scripted x) (h' : ∀ a, Scripted (f a)) : Scripted (x >>= f) := by
  obtain ⟨first, rfl⟩ := h
  choose next same using h'
  refine ⟨.bind first next, ?_⟩
  rw [Script.run]
  exact congrArg (first.run >>= ·) (funext same)

theorem scripted_ite {c : Prop} [Decidable c] {y : Analyzer α} (h : Scripted x) (h' : Scripted y) :
    Scripted (if c then x else y) := by
  split
  · exact h
  · exact h'

theorem scripted_forM {ι : Type} {f : ι → Analyzer Unit} (h : ∀ i, Scripted (f i))
    (items : List ι) : Scripted (items.forM f) := by
  induction items with
  | nil => exact scripted_pure ()
  | cons item items ih => exact scripted_bind (h item) fun _ => ih

theorem scripted_fail (fault : SemanticFault) (position : Position) :
    Scripted (fail fault position : Analyzer α) :=
  scripted_bind Act.ask.scripted fun _ => (Act.reject _).scripted

/-- Warnings are recorded one after another. -/
theorem forM_warn (remarks : List Diagnostic) (setting : Setting) (s : State) :
    (remarks.forM fun r => warn r.warning r.position : Analyzer Unit) setting s =
      .ok ((), { s with warnings := s.warnings ++ remarks.toArray }) := by
  induction remarks generalizing s with
  | nil =>
    show Except.ok ((), s) = .ok ((), { s with warnings := s.warnings ++ #[] })
    rw [Array.append_empty]
  | cons remark remarks ih =>
    have later := ih { s with warnings := s.warnings.push remark }
    rw [List.push_append_toArray] at later
    exact later

theorem scripted_of_remarks (h : ∃ a remarks, Remarks x a remarks) : Scripted x := by
  obtain ⟨a, remarks, said⟩ := h
  have same : x = do
      remarks.toList.forM fun r => warn r.warning r.position
      return a := by
    funext setting s
    rw [said.run, bind_of_ok (forM_warn remarks.toList setting s)]
    rfl
  rw [same]
  exact scripted_bind (scripted_forM (fun _ => (Act.warn _ _).scripted) _) fun _ => scripted_pure a

theorem scripted_of_checks {x : Analyzer Unit} (h : Checks x) : Scripted x := by
  -- A check changes nothing, and to tell whether it lets through is to look at the state alone.
  have same : x = (do
      let setting ← read
      let s ← get
      match x setting s with
      | .ok _ => pure ()
      | .error e => throw e) := by
    funext setting s
    have asked : (read : Analyzer Setting) setting s = .ok (setting, s) := rfl
    have looked : (get : Analyzer State) setting s = .ok (s, s) := rfl
    rw [bind_of_ok asked, bind_of_ok looked]
    cases run : x setting s with
    | ok result =>
      obtain ⟨⟨⟩, s'⟩ := result
      obtain ⟨rfl, -⟩ := h setting s s' run
      rfl
    | error e => rfl
  rw [same]
  refine scripted_bind Act.ask.scripted fun setting => scripted_bind Act.look.scripted fun s => ?_
  split
  · exact scripted_pure ()
  · exact (Act.reject _).scripted

theorem scripted_scopedType (space : Expr) (name : String) : Scripted (scopedType space name) := by
  refine scripted_bind Act.look.scripted fun s => ?_
  split <;> exact scripted_pure _

theorem scripted_infer_name {e : Expr} {name : String} (named : e.kind = .name name) :
    Scripted (infer e) := by
  obtain ⟨id, position, kind⟩ := e
  obtain rfl : kind = .name name := named
  unfold infer inferKind
  exact scripted_bind (Act.readName id position name).scripted fun _ =>
    scripted_bind (Act.recordType id _).scripted fun _ => scripted_pure _

theorem scripted_writeName (id : Nat) (position : Position) (name : String) (type : TypeExpr) :
    Scripted (writeName id position name type) := by
  have entityOnly (s : State) : Scripted (if 0 < s.entityDepth then recordType id .unknown
      else fail (.undeclaredAssignment name) position) :=
    scripted_ite (Act.recordType id _).scripted (scripted_fail _ _)
  refine scripted_bind Act.look.scripted fun s =>
    scripted_bind (Act.meet id name).scripted fun _ => ?_
  split
  · refine scripted_ite ?_ (entityOnly s)
    refine scripted_bind (Act.recordMeaning _ _).scripted fun _ => ?_
    refine scripted_bind (Act.retype _ _).scripted fun _ => ?_
    exact scripted_bind (Act.recordType _ _).scripted fun _ => (Act.meetWrite _ _ _).scripted
  · exact entityOnly s

theorem scripted_checkPatternNames (p : Pattern) (position : Position) :
    Scripted (checkPatternNames p position) := by
  refine scripted_forM (fun name => scripted_bind Act.look.scripted fun s => ?_) p.bindings
  split
  · exact scripted_ite (Act.meetWrite _ _ _).scripted
      (scripted_ite (scripted_fail _ _) (scripted_pure ()))
  · exact scripted_ite (scripted_fail _ _) (scripted_pure ())

/-- The judgement that a script puts steps together. -/
def scripting : Judgement where
  alike := True
  holds x _ _ := Scripted x
  inside x _ _ := Scripted x

theorem scripting_lawful : scripting.Lawful where
  ret _ := scripted_pure _
  bind h h' := scripted_bind h fun a => h' a a fun _ => rfl
  parts _ h := h
  again _ h := h
  remark h _ _ := scripted_of_remarks h
  check checks := scripted_of_checks checks
  scopedType := scripted_scopedType
  nameSpace name := (Act.nameSpace name).scripted
  complete _ := (Act.complete _).scripted
  retype name _ _ _ := (Act.retype name _).scripted
  declare name _ _ assignable _ _ position _ _ _ _ _ :=
    (Act.declare name _ assignable _ position).scripted
  keep _ _ _ _ _ _ _ := (Act.recordType _ _).scripted
  name named := scripted_infer_name named
  write _ _ := scripted_writeName _ _ _ _
  pattern := scripted_checkPatternNames
  inScope kind _ _ _ plain := fun ⟨work, same⟩ => ⟨.inScope kind plain work, congrArg _ same⟩
  enter h := h
  insideBind h h' := scripted_bind h fun a => h' a a fun _ => rfl
  member name _ _ position _ := (Act.declare name _ _ _ position).scripted
  inEntity := fun ⟨work, same⟩ => ⟨.inEntity work, congrArg _ same⟩
  inLoop := fun ⟨work, same⟩ => ⟨.inLoop work, congrArg _ same⟩
  outsideLoops := fun ⟨work, same⟩ => ⟨.outsideLoops work, congrArg _ same⟩
  inBoundary := fun ⟨work, same⟩ => ⟨.inBoundary work, congrArg _ same⟩

/-! ## The parts that are analysed -/

/-- A part of a tree whose analysis is a step of its own. -/
inductive Form
  | expression (e : Expr)
  /-- An expression that a value of this type is written to. -/
  | place (type : TypeExpr) (e : Expr)
  | statement (s : Stmt)
  /-- The statements of a block or of a module, without a scope around them. -/
  | statements (list : List Stmt)
  /-- The block of a branch or a loop. -/
  | branch (block : Block)
  /-- A block that is a body of its own. -/
  | body (block : Block)
  | function (definition : FunctionDef)
  /-- An arm of a match on a value of this type, whose own value is that of the match or not. -/
  | arm (valued : Bool) (scrutinee : TypeExpr) (a : Arm)
  | members (list : List MemberInit)

/-- The analysis of a form, whatever type it comes to. -/
def Form.analysis : Form → Analyzer Unit
  | .expression e => do let _ ← infer e
  | .place type e => checkPlace type e
  | .statement s => analyzeStmt s
  | .statements list => do let _ ← analyzeStatements list
  | .branch block => analyzeTransparent block
  | .body block => do let _ ← analyzeBoundary block
  | .function definition => do let _ ← analyzeFunction definition
  | .arm valued scrutinee a => do let _ ← analyzeArms valued scrutinee [a]
  | .members list => do let _ ← inEntity (inferMembers list)

theorem scripted_analyzeStatements (statements : List Stmt) :
    Scripted (analyzeStatements statements) :=
  scripting_lawful.blockType (scripting_lawful.analyzeEach statements)
    (scripting_lawful.analyzeBodies statements)

/-- The analysis of every form is put together by a script. -/
theorem Form.scripted (form : Form) : Scripted form.analysis := by
  have discard {α : Type} {x : Analyzer α} (h : Scripted x) : Scripted (do let _ ← x) :=
    scripted_bind h fun _ => scripted_pure ()
  cases form with
  | expression e => exact discard (scripting_lawful.infer e)
  | place type e => exact scripting_lawful.checkPlace (fun _ => rfl) e
  | statement s => exact scripting_lawful.analyzeStmt s
  | statements list => exact discard (scripted_analyzeStatements list)
  | branch block => exact scripting_lawful.analyzeTransparent block
  | body block => exact discard (scripting_lawful.analyzeBoundary block)
  | function definition => exact discard (scripting_lawful.analyzeFunction definition)
  | arm valued scrutinee a =>
    exact discard (scripting_lawful.analyzeArms valued (fun _ => rfl) [a])
  | members list =>
    exact discard (scripting_lawful.inEntity (scripting_lawful.inferMembers list))

end Analyzing

open Analyzing

/-- The walk over a module is put together by a script. Its findings are those of a moment of any such
script. At every moment the number of entities is that of the scopes of entities around the current
scope, which stands in the root. What is analysed at a moment, and succeeds, leaves the current scope as
it was, and as many entities, loops and bodies open as before. Scopes have only been appended by then, and
of a declaration nothing but the type has changed. -/
theorem Module.context_kept (m : Module) (bindings : List String) (strict : Bool) :
    Scripted (analyzeStatements m.statements) ∧
    ∀ script : Script TypeExpr, script.run = analyzeStatements m.statements →
      (∀ a, m.analyze bindings strict = .ok a →
        ∃ s, script.Passes ⟨m.name, strict⟩ (.start bindings) s ∧ a = s.analysis) ∧
      ∀ s, script.Passes ⟨m.name, strict⟩ (.start bindings) s →
        s.entityDepth = (s.table.entitiesAround s.current).ncard ∧
        s.table.Within s.current ScopeTable.root ∧
        ∀ (form : Form) (s' : State), form.analysis ⟨m.name, strict⟩ s = .ok ((), s') →
          s.Balanced s' ∧ s.table.Appends s'.table := by
  refine ⟨scripted_analyzeStatements m.statements, fun script walk =>
    ⟨fun a analysed => ?_, fun s passes => ?_⟩⟩
  · rw [Module.analyze_eq, ← walk] at analysed
    cases run : script.run ⟨m.name, strict⟩ (.start bindings) with
    | error e =>
      rw [run] at analysed
      cases analysed
    | ok result =>
      rw [run] at analysed
      exact ⟨result.2, .ends run, (Except.ok.inj analysed).symm⟩
  · have anchored : s.Anchored := passes.anchored (.start bindings)
    refine ⟨anchored.entityDepth, anchored.within_root, fun form s' run => ?_⟩
    obtain ⟨step, same⟩ := form.scripted
    rw [← same] at run
    have kept := step.keeps run anchored
    exact ⟨kept.toBalanced, kept.table⟩

/-- The text `({});`. -/
def emptyEntity : Module :=
  ⟨"main", ⟨[⟨.nowhere, .expression ⟨0, .nowhere, .entity []⟩ true⟩], .nowhere⟩⟩

/-- The text `() => { while (true) { break; } this }`. -/
def loopingFunction : Expr :=
  ⟨4, .nowhere, .function ⟨none, [], .block ⟨[
    ⟨.nowhere, .whileLoop ⟨1, .nowhere, .literal (.bool true)⟩ ⟨[⟨.nowhere, .breakLoop⟩], .nowhere⟩⟩,
    ⟨.nowhere, .expression ⟨2, .nowhere, .this⟩ false⟩], .nowhere⟩, .nowhere⟩⟩

/-- At the moment when the entity has been entered there is one around. A function that is analysed
there opens a scope for itself, its body and its loop, and leaves the context as it was. -/
theorem Module.context_kept_of_emptyEntity : ∃ (script : Script TypeExpr) (s s' : State),
    script.run = analyzeStatements emptyEntity.statements ∧
    script.Passes ⟨"main", true⟩ (.start []) s ∧ s.entityDepth = 1 ∧
    (s.table.entitiesAround s.current).ncard = 1 ∧
    (Form.expression loopingFunction).analysis ⟨"main", true⟩ s = .ok ((), s') ∧
    s'.table.size = s.table.size + 3 ∧ s.Balanced s' ∧ s.table.Appends s'.table := by
  let members : Script (List (String × TypeExpr)) := .inEntity (.ret [])
  let script : Script TypeExpr := .bind members fun list =>
    .bind (.act (recordType 0 (.entity list)) (.recordType _ _)) fun _ => .ret .unit
  let s : State := State.inner { State.start [] with entityDepth := 1 } .entity
  have walk : script.run = analyzeStatements emptyEntity.statements := rfl
  have passes : script.Passes ⟨"main", true⟩ (.start []) s := .first (.inEntity .starts)
  obtain ⟨counted, -, kept⟩ := ((context_kept emptyEntity [] true).2 script walk).2 s passes
  have size : ((Form.expression loopingFunction).analysis ⟨"main", true⟩ s).toOption.map
      (·.2.table.size) = some (s.table.size + 3) := by decide +kernel
  cases run : (Form.expression loopingFunction).analysis ⟨"main", true⟩ s with
  | error e =>
    rw [run] at size
    cases size
  | ok result =>
    obtain ⟨⟨⟩, s'⟩ := result
    rw [run] at size
    obtain ⟨balanced, table⟩ := kept (.expression loopingFunction) s' run
    exact ⟨script, s, s', walk, passes, rfl, counted.symm, run, Option.some.inj size, balanced,
      table⟩

end ScriptEngine
