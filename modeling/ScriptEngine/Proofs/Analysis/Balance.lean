import ScriptEngine.Analysis.Infer
import ScriptEngine.Proofs.Scope.Names
import ScriptEngine.Proofs.Tree.Imports

/-!
# An analysis leaves its surroundings as it found them

Steps of an analysis open scopes, entities, loops and bodies, and close again what they have opened.
The scope of the module gains only what is declared in it, one new name after another.
`Ensures` says that of a step, together with what its success tells about the spot at which the step
began.

* `Balanced`: what the state has in common before and after a step.
* `Declares`: the names that the scope of the module has gained by a step in it.
* `inScope_eq_ok`, `inEntity_eq_ok` and the others: what is opened before some work is closed behind it.
* `Ensures`: the steps that are balanced, declare some names, and succeed only at some spots.
* `Ensures.bind`, `Ensures.inLoop` and the others: one rule for each way to put steps together.
-/

namespace ScriptEngine.Analyzing

/-- Where the part of a tree stands that is being analysed, and whether that is the scope of the
module. -/
structure Spot where
  site : Site
  atTop : Bool

namespace Spot

/-- A scope inside another one. -/
def inner (p : Spot) : Spot := { p with atTop := false }

/-- The members of an entity. -/
def entity (p : Spot) : Spot := ⟨p.site.entity, false⟩

/-- The body of a loop. -/
def loop (p : Spot) : Spot := { p with site := p.site.loop }

/-- A body of its own. -/
def body (p : Spot) : Spot := { p with site := p.site.body }

end Spot

namespace State

/-- What stands around the part of the tree that is being analysed. -/
def site (s : State) : Site := ⟨decide (0 < s.loopDepth), decide (0 < s.entityDepth)⟩

/-- The spot of the part of the tree that is being analysed. -/
def spot (s : State) : Spot := ⟨s.site, s.current == moduleScope⟩

/-- The names in the scope of the module. -/
def names (s : State) : List String := s.table.names moduleScope

/-- The current scope and the numbers of open entities, loops and bodies are the same. -/
structure Balanced (s s' : State) : Prop where
  current : s'.current = s.current
  entityDepth : s'.entityDepth = s.entityDepth
  loopDepth : s'.loopDepth = s.loopDepth
  boundaries : s'.boundaries.length = s.boundaries.length

/-- The scope of the module is there. -/
def HasModule (s : State) : Prop := moduleScope < s.table.size

/-- The state in which work in a new scope begins. -/
def inner (s : State) (kind : ScopeKind) : State :=
  { s with table := (s.table.push s.current kind).2, current := s.table.size }

/-- The scope of the module has gained some names that were not there, if that is the current
one. -/
structure Declares (s s' : State) (names : List String) : Prop where
  hasModule : s'.HasModule
  names : s'.names = s.names ++ if s.current = moduleScope then names else []
  distinct : s.names.Nodup → s'.names.Nodup

namespace Balanced

theorem refl (s : State) : s.Balanced s := ⟨rfl, rfl, rfl, rfl⟩

theorem trans {s s' s'' : State} (h : s.Balanced s') (h' : s'.Balanced s'') : s.Balanced s'' :=
  ⟨h'.current.trans h.current, h'.entityDepth.trans h.entityDepth,
    h'.loopDepth.trans h.loopDepth, h'.boundaries.trans h.boundaries⟩

theorem spot_eq {s s' : State} (h : s.Balanced s') : s'.spot = s.spot := by
  rw [spot, spot, site, site, h.loopDepth, h.entityDepth, h.current]

end Balanced

namespace Declares

variable {s s' s'' : State} {names names' : List String}

/-- Nothing is declared without a change of the table. -/
theorem of_table (h : s'.table = s.table) (there : s.HasModule) : s.Declares s' [] := by
  have same : s'.names = s.names := by rw [State.names, h, State.names]
  refine ⟨?_, ?_, fun distinct => same ▸ distinct⟩
  · rwa [HasModule, h]
  · rw [same, ite_self, List.append_nil]

/-- Nothing is declared in another scope than that of the module. -/
theorem of_outside (there : s'.HasModule) (same : s'.names = s.names) : s.Declares s' [] :=
  ⟨there, by rw [same, ite_self, List.append_nil], fun distinct => same ▸ distinct⟩

theorem trans (h : s.Declares s' names) (h' : s'.Declares s'' names')
    (balanced : s.Balanced s') : s.Declares s'' (names ++ names') := by
  refine ⟨h'.hasModule, ?_, fun distinct => h'.distinct (h.distinct distinct)⟩
  rw [h'.names, h.names, balanced.current]
  split <;> simp

/-- A scope that is not the one of the module gives it no names. -/
theorem names_eq (h : s.Declares s' names) (outside : s.current ≠ moduleScope) :
    s'.names = s.names := by
  rw [h.names, if_neg outside, List.append_nil]

end Declares

end State

/-- Whenever a step succeeds it is balanced and declares some names, and `P` holds of the spot where
it began. -/
def Ensures {α : Type} (x : Analyzer α) (names : List String) (P : Spot → Prop) : Prop :=
  ∀ setting s a s', x setting s = .ok (a, s') → s.HasModule →
    s.Balanced s' ∧ s.Declares s' names ∧ P s.spot

/-- A sequence of steps succeeds only if each of them does. -/
theorem bind_eq_ok {α β : Type} {x : Analyzer α} {f : α → Analyzer β} {setting : Setting}
    {s s'' : State} {b : β} (h : (x >>= f) setting s = .ok (b, s'')) :
    ∃ a s', x setting s = .ok (a, s') ∧ f a setting s' = .ok (b, s'') := by
  cases first : x setting s with
  | error e => simp [bind, ReaderT.bind, StateT.bind, Except.bind, first] at h
  | ok result =>
    obtain ⟨a, s'⟩ := result
    simp only [bind, ReaderT.bind, StateT.bind, Except.bind, first] at h
    exact ⟨a, s', rfl, h⟩

theorem bind_of_ok {α β : Type} {x : Analyzer α} {f : α → Analyzer β} {setting : Setting}
    {s s' : State} {a : α} (h : x setting s = .ok (a, s')) :
    (x >>= f) setting s = f a setting s' := by
  simp only [bind, ReaderT.bind, StateT.bind, Except.bind, h]

theorem bind_of_error {α β : Type} {x : Analyzer α} {f : α → Analyzer β} {setting : Setting}
    {s : State} {e : SemanticError} (h : x setting s = .error e) :
    (x >>= f) setting s = .error e := by
  simp only [bind, ReaderT.bind, StateT.bind, Except.bind, h]

/-! ## What is opened and closed -/

section

variable {α : Type} {x : Analyzer α} {setting : Setting} {s s' : State}

/-- Work in a new scope, behind which the current scope is the one before. -/
theorem inScope_eq_ok {kind : ScopeKind} {a : α} (h : inScope kind x setting s = .ok (a, s')) :
    ∃ inner, x setting (s.inner kind) = .ok (a, inner) ∧
      s' = { inner with current := s.current } := by
  obtain ⟨_, _, first, h⟩ := bind_eq_ok h
  cases first
  obtain ⟨_, _, first, h⟩ := bind_eq_ok h
  cases first
  obtain ⟨_, inner, work, h⟩ := bind_eq_ok h
  cases h
  exact ⟨inner, work, rfl⟩

/-- Work in the scope of an entity, which counts until its end. -/
theorem inEntity_eq_ok {a : α} (h : inEntity x setting s = .ok (a, s')) :
    ∃ inner, x setting (State.inner { s with entityDepth := s.entityDepth + 1 } .entity) =
        .ok (a, inner) ∧
      s' = { inner with current := s.current, entityDepth := inner.entityDepth - 1 } := by
  obtain ⟨_, _, first, h⟩ := bind_eq_ok h
  cases first
  obtain ⟨_, _, entered, h⟩ := bind_eq_ok h
  obtain ⟨inner, work, rfl⟩ := inScope_eq_ok entered
  cases h
  exact ⟨inner, work, rfl⟩

/-- Work in a loop, which counts until its end. -/
theorem inLoop_eq_ok {a : α} (h : inLoop x setting s = .ok (a, s')) :
    ∃ inner, x setting { s with loopDepth := s.loopDepth + 1 } = .ok (a, inner) ∧
      s' = { inner with loopDepth := inner.loopDepth - 1 } := by
  obtain ⟨_, _, first, h⟩ := bind_eq_ok h
  cases first
  obtain ⟨_, inner, work, h⟩ := bind_eq_ok h
  cases h
  exact ⟨inner, work, rfl⟩

/-- Work outside of all loops, behind which there are as many as before. -/
theorem outsideLoops_eq_ok {a : α} (h : outsideLoops x setting s = .ok (a, s')) :
    ∃ inner, x setting { s with loopDepth := 0 } = .ok (a, inner) ∧
      s' = { inner with loopDepth := s.loopDepth } := by
  obtain ⟨_, _, first, h⟩ := bind_eq_ok h
  cases first
  obtain ⟨_, _, first, h⟩ := bind_eq_ok h
  cases first
  obtain ⟨_, inner, work, h⟩ := bind_eq_ok h
  cases h
  exact ⟨inner, work, rfl⟩

/-- Work in a body of its own, of which nothing is open behind it. -/
theorem inBoundary_eq_ok {r : α × List TypeExpr} (h : inBoundary x setting s = .ok (r, s')) :
    ∃ inner, x setting { s with boundaries := [] :: s.boundaries } = .ok (r.1, inner) ∧
      s' = { inner with boundaries := inner.boundaries.tail } := by
  obtain ⟨_, _, first, h⟩ := bind_eq_ok h
  cases first
  obtain ⟨_, inner, work, h⟩ := bind_eq_ok h
  cases h
  exact ⟨inner, work, rfl⟩

end

namespace Ensures

variable {α β : Type} {x : Analyzer α} {f : α → Analyzer β} {names names' : List String}
  {P Q : Spot → Prop}

theorem imp (h : Ensures x names P) (le : ∀ p, P p → Q p) : Ensures x names Q := by
  intro setting s a s' run there
  obtain ⟨balanced, declares, here⟩ := h setting s a s' run there
  exact ⟨balanced, declares, le _ here⟩

/-- Steps that declare names one after another. -/
theorem append (h : Ensures x names P) (h' : ∀ a, Ensures (f a) names' Q) :
    Ensures (x >>= f) (names ++ names') fun p => P p ∧ Q p := by
  intro setting s b s'' run there
  obtain ⟨a, s', first, second⟩ := bind_eq_ok run
  obtain ⟨balanced, declares, here⟩ := h setting s a s' first there
  obtain ⟨balanced', declares', there'⟩ := h' a setting s' b s'' second declares.hasModule
  exact ⟨balanced.trans balanced', declares.trans declares' balanced, here,
    balanced.spot_eq ▸ there'⟩

/-- A step that declares nothing, before others. -/
theorem bind (h : Ensures x [] P) (h' : ∀ a, Ensures (f a) names Q) :
    Ensures (x >>= f) names fun p => P p ∧ Q p :=
  h.append h'

/-- A step that tells nothing, before others. -/
theorem before (h : Ensures x names fun _ => True) (h' : ∀ a, Ensures (f a) names' Q) :
    Ensures (x >>= f) (names ++ names') Q :=
  (h.append h').imp fun _ both => both.2

/-- A step that tells nothing and declares nothing, before others. -/
theorem andThen (h : Ensures x [] fun _ => True) (h' : ∀ a, Ensures (f a) names Q) :
    Ensures (x >>= f) names Q :=
  h.before h'

theorem ret (a : α) : Ensures (pure a : Analyzer α) [] fun _ => True := by
  intro setting s b s' run there
  cases run
  exact ⟨.refl s, .of_table rfl there, trivial⟩

/-- What follows a step and cannot fail adds nothing to what the step ensures. -/
theorem of_discard (h : Ensures (do let _ ← x) names P) : Ensures x names P := by
  intro setting s a s' run there
  refine h setting s () s' ?_ there
  simp [Bind.bind, ReaderT.bind, StateT.bind, Except.bind, run]
  rfl

/-- Steps before a result. -/
theorem result {g : α → β} (h : Ensures x names P) : Ensures (do return g (← x)) names P := by
  have both := h.append fun a => ret (g a)
  rw [List.append_nil] at both
  exact both.imp fun _ both => both.1

theorem getState : Ensures (get : Analyzer State) [] fun _ => True := by
  intro setting s b s' run there
  cases run
  exact ⟨.refl s, .of_table rfl there, trivial⟩

theorem readSetting : Ensures (read : Analyzer Setting) [] fun _ => True := by
  intro setting s b s' run there
  cases run
  exact ⟨.refl s, .of_table rfl there, trivial⟩

/-- A change of what nothing is counted by. -/
theorem modifyState {g : State → State} (h : ∀ s, State.Balanced s (g s))
    (table : ∀ s, (g s).table = s.table) : Ensures (modify g : Analyzer Unit) [] fun _ => True := by
  intro setting s b s' run there
  cases run
  exact ⟨h s, .of_table (table s) there, trivial⟩

/-- A change of the table that adds no name to the scope of the module. -/
theorem modifyTable {g : State → ScopeTable} (size : ∀ s, (g s).size = s.table.size)
    (same : ∀ s, (g s).names moduleScope = s.table.names moduleScope) :
    Ensures (modify fun s => { s with table := g s }) [] fun _ => True := by
  intro setting s b s' run there
  cases run
  exact ⟨⟨rfl, rfl, rfl, rfl⟩, .of_outside (Nat.lt_of_lt_of_eq there (size s).symm) (same s),
    trivial⟩

theorem failing (fault : SemanticFault) (position : Position) :
    Ensures (fail fault position : Analyzer α) names P := by
  intro setting s b s' run there
  cases run

theorem ite {c : Prop} [Decidable c] {x y : Analyzer α} (h : c → Ensures x names P)
    (h' : ¬ c → Ensures y names P) : Ensures (if c then x else y) names P := by
  split
  · exact h ‹_›
  · exact h' ‹_›

theorem forM {α : Type} {f : α → Analyzer Unit} {g : α → List String}
    (h : ∀ a, Ensures (f a) (g a) fun _ => True) (items : List α) :
    Ensures (items.forM f) (items.flatMap g) fun _ => True := by
  induction items with
  | nil => exact ret ()
  | cons item items ih =>
    rw [List.flatMap_cons]
    exact (h item).before fun _ => ih

theorem visit {α : Type} {f : α → Analyzer Unit} (h : ∀ a, Ensures (f a) [] fun _ => True)
    (items : List α) : Ensures (items.forM f) [] fun _ => True := by
  induction items with
  | nil => exact ret ()
  | cons item items ih => exact (h item).andThen fun _ => ih

/-! ### Surroundings -/

/-- What is declared in a scope inside the current one is not declared in that of the module. -/
theorem inScope {kind : ScopeKind} (h : Ensures x names P) :
    Ensures (Analyzing.inScope kind x) [] fun p => P p.inner := by
  intro setting s b s' run there
  obtain ⟨inner, work, rfl⟩ := inScope_eq_ok run
  have outside : s.table.size ≠ moduleScope := Nat.ne_of_gt there
  have larger : (s.inner kind).HasModule := by
    rw [State.HasModule, State.inner, ScopeTable.size_push]
    exact Nat.lt_succ_of_lt there
  obtain ⟨balanced, declares, here⟩ := h _ _ _ _ work larger
  refine ⟨⟨rfl, balanced.entityDepth, balanced.loopDepth, balanced.boundaries⟩,
    .of_outside declares.hasModule ?_, ?_⟩
  · exact (declares.names_eq outside).trans (ScopeTable.names_push there)
  · have inside : (s.table.size == moduleScope) = false := by simpa using outside
    have spot : (s.inner kind).spot = s.spot.inner := congrArg (Spot.mk s.site) inside
    rwa [spot] at here

theorem inEntity (h : Ensures x names P) :
    Ensures (Analyzing.inEntity x) [] fun p => P p.entity := by
  intro setting s b s' run there
  obtain ⟨_, _, first, run⟩ := bind_eq_ok run
  cases first
  obtain ⟨_, inner, work, run⟩ := bind_eq_ok run
  obtain ⟨balanced, declares, here⟩ := h.inScope _ _ _ _ work there
  cases run
  have depth := balanced.entityDepth
  refine ⟨⟨balanced.current, ?_, balanced.loopDepth, balanced.boundaries⟩,
    ⟨declares.hasModule, declares.names, declares.distinct⟩, ?_⟩
  · simp only [depth]
    omega
  · simpa [State.spot, State.site, Spot.inner, Spot.entity, Site.entity] using here

theorem inLoop (h : Ensures x names P) : Ensures (Analyzing.inLoop x) names fun p => P p.loop := by
  intro setting s b s' run there
  obtain ⟨inner, work, rfl⟩ := inLoop_eq_ok run
  obtain ⟨balanced, declares, here⟩ := h _ _ _ _ work there
  have depth := balanced.loopDepth
  refine ⟨⟨balanced.current, balanced.entityDepth, ?_, balanced.boundaries⟩,
    ⟨declares.hasModule, declares.names, declares.distinct⟩, ?_⟩
  · simp only [depth]
    omega
  · simpa [State.spot, State.site, Spot.loop, Site.loop] using here

theorem outsideLoops (h : Ensures x names P) :
    Ensures (Analyzing.outsideLoops x) names fun p => P p.body := by
  intro setting s b s' run there
  obtain ⟨inner, work, rfl⟩ := outsideLoops_eq_ok run
  obtain ⟨balanced, declares, here⟩ := h _ _ _ _ work there
  exact ⟨⟨balanced.current, balanced.entityDepth, rfl, balanced.boundaries⟩,
    ⟨declares.hasModule, declares.names, declares.distinct⟩,
    by simpa [State.spot, State.site, Spot.body, Site.body] using here⟩

theorem inBoundary (h : Ensures x names P) : Ensures (Analyzing.inBoundary x) names P := by
  intro setting s b s' run there
  obtain ⟨inner, work, rfl⟩ := inBoundary_eq_ok run
  obtain ⟨balanced, declares, here⟩ := h _ _ _ _ work there
  have open' := balanced.boundaries
  refine ⟨⟨balanced.current, balanced.entityDepth, balanced.loopDepth, ?_⟩,
    ⟨declares.hasModule, declares.names, declares.distinct⟩, here⟩
  simp only [List.length_tail, open', List.length_cons]
  omega

end Ensures

/-! ## Plain steps -/

theorem ensures_warn {warning : Warning} {position : Position} :
    Ensures (warn warning position) [] fun _ => True :=
  .modifyState (fun _ => ⟨rfl, rfl, rfl, rfl⟩) fun _ => rfl

theorem ensures_recordType {id : Nat} {type : TypeExpr} :
    Ensures (recordType id type) [] fun _ => True :=
  .modifyState (fun _ => ⟨rfl, rfl, rfl, rfl⟩) fun _ => rfl

theorem ensures_recordMeaning {id : Nat} {ref : SymbolRef} :
    Ensures (recordMeaning id ref) [] fun _ => True :=
  .modifyState (fun _ => ⟨rfl, rfl, rfl, rfl⟩) fun _ => rfl

theorem ensures_meet {id : Nat} {name : String} : Ensures (meet id name) [] fun _ => True :=
  .modifyState (fun _ => ⟨rfl, rfl, rfl, rfl⟩) fun _ => rfl

theorem ensures_meetWrite {name : String} {scope : ScopeId} {inside : Bool} :
    Ensures (meetWrite name scope inside) [] fun _ => True :=
  .modifyState (fun _ => ⟨rfl, rfl, rfl, rfl⟩) fun _ => rfl

theorem ensures_nameSpace {name : String} : Ensures (nameSpace name) [] fun _ => True :=
  .modifyState (fun _ => ⟨rfl, rfl, rfl, rfl⟩) fun _ => rfl

theorem ensures_retype {name : String} {f : TypeExpr → TypeExpr} :
    Ensures (retype name f) [] fun _ => True :=
  .modifyTable (fun _ => ScopeTable.size_retype) fun _ => ScopeTable.names_retype

/-- The root is not the scope of the module. -/
theorem ensures_supply {name : String} {position : Position} :
    Ensures (supply name position) [] fun _ => True := by
  intro setting s a s' run there
  cases run
  exact ⟨⟨rfl, rfl, rfl, rfl⟩, .of_outside (Nat.lt_of_lt_of_eq there (ScopeTable.size_modify _).symm)
    (ScopeTable.names_define_of_ne (by decide)), trivial⟩

theorem ensures_complete {type : TypeExpr} : Ensures (complete type) [] fun _ => True := by
  refine .modifyState (fun s => ?_) fun s => ?_
  · split
    · exact .refl s
    · next open' => exact ⟨rfl, rfl, rfl, by simp [open']⟩
  · split <;> rfl

/-- A declaration adds one name. -/
theorem ensures_declare {name : String} {kind : SymbolKind} {assignable : Bool} {type : TypeExpr}
    {position : Position} :
    Ensures (declare name kind assignable type position) [name] fun _ => True := by
  intro setting s b s' run there
  obtain ⟨_, _, first, run⟩ := bind_eq_ok run
  cases first
  cases declared : s.table.declare s.current ⟨name, kind, assignable, type, position⟩ with
  | ok table =>
    rw [declared] at run
    cases run
    obtain ⟨size, others, own⟩ := ScopeTable.names_declare declared
    refine ⟨⟨rfl, rfl, rfl, rfl⟩, ⟨Nat.lt_of_lt_of_eq there size.symm, ?_, fun distinct => ?_⟩,
      trivial⟩
    · split
      · next atTop => exact (atTop ▸ own) there |>.2
      · next apart => exact (others _ apart).trans (List.append_nil _).symm
    · by_cases atTop : s.current = moduleScope
      · obtain ⟨fresh, added⟩ := (atTop ▸ own) there
        rw [State.names, added]
        refine List.nodup_append.mpr ⟨distinct, List.nodup_cons.mpr ⟨List.not_mem_nil, .nil⟩, ?_⟩
        rintro _ mem _ mem' rfl
        exact fresh (List.mem_singleton.mp mem' ▸ mem)
      · rw [State.names, others _ atTop]
        exact distinct
  | error old =>
    rw [declared] at run
    cases run

/-- Declarations of names one after another. -/
theorem ensures_declareAll {α : Type} {name : α → String} {kind : SymbolKind} {assignable : Bool}
    {type : TypeExpr} {position : Position} {items : List α} :
    Ensures (items.forM fun item => declare (name item) kind assignable type position)
      (items.map name) fun _ => True := by
  rw [List.map_eq_flatMap]
  exact .forM (fun _ => ensures_declare) items

mutual

theorem ensures_declarePattern {assignable : Bool} {position : Position} :
    ∀ (pattern : Pattern) (type : TypeExpr),
      Ensures (declarePattern assignable position pattern type) pattern.bindings fun _ => True
  | .bind _, _ => by
    unfold declarePattern
    exact ensures_declare
  | .tuple items, _ | .array items, _ => by
    unfold declarePattern
    exact ensures_declarePatterns items _
  | .wildcard, _ | .rest, _ | .literal _, _ => by
    unfold declarePattern
    exact .ret ()

theorem ensures_declarePatterns {assignable : Bool} {position : Position} :
    ∀ (items : List Pattern) (types : List TypeExpr),
      Ensures (declarePatterns assignable position items types) (Pattern.bindingsOfAll items)
        fun _ => True
  | [], _ => by
    unfold declarePatterns
    exact .ret ()
  | item :: items, types => by
    unfold declarePatterns
    exact (ensures_declarePattern item _).before fun _ => ensures_declarePatterns items _

end

theorem ensures_declareFunctions {statements : List Stmt} :
    Ensures (declareFunctions statements) (statements.flatMap (·.functionNames))
      fun _ => True := by
  refine .forM (fun s => ?_) statements
  obtain ⟨position, kind⟩ := s
  cases kind with
  | function definition =>
    obtain ⟨name, params, body, position⟩ := definition
    cases name with
    | some name => exact ensures_declare
    | none => exact .ret ()
  | _ => exact .ret ()

/-- Imports and exports are only let through at the top level. -/
theorem ensures_requireModuleLevel {word : String} {position : Position} :
    Ensures (requireModuleLevel word position) [] fun p => p.atTop = true := by
  intro setting s b s' run there
  obtain ⟨_, _, first, run⟩ := bind_eq_ok run
  cases first
  by_cases atTop : s.current = moduleScope
  · rw [if_neg (by simpa using atTop)] at run
    cases run
    exact ⟨.refl s, .of_table rfl there, by simpa [State.spot] using atTop⟩
  · rw [if_pos (by simpa using atTop)] at run
    cases run

/-- `break` and `continue` are only let through in a loop. -/
theorem ensures_requireLoop {word : String} {position : Position} :
    Ensures (requireLoop word position) [] fun p => p.site.inLoop = true := by
  intro setting s b s' run there
  obtain ⟨_, _, first, run⟩ := bind_eq_ok run
  cases first
  by_cases none : s.loopDepth = 0
  · simp only [none, beq_self_eq_true, if_true] at run
    cases run
  · rw [if_neg (by simpa using none)] at run
    cases run
    exact ⟨.refl s, .of_table rfl there,
      by simpa [State.spot, State.site] using Nat.pos_of_ne_zero none⟩

/-- What only entities have is only let through in one. -/
theorem ensures_requireEntity {fault : SemanticFault} {position : Position} :
    Ensures (requireEntity fault position) [] fun p => p.site.inEntity = true := by
  intro setting s b s' run there
  obtain ⟨_, _, first, run⟩ := bind_eq_ok run
  cases first
  by_cases none : s.entityDepth = 0
  · simp only [none, beq_self_eq_true, if_true] at run
    cases run
  · rw [if_neg (by simpa using none)] at run
    cases run
    exact ⟨.refl s, .of_table rfl there,
      by simpa [State.spot, State.site] using Nat.pos_of_ne_zero none⟩

theorem ensures_readName {id : Nat} {position : Position} {name : String} :
    Ensures (readName id position name) [] fun _ => True := by
  refine .andThen .getState fun s => .andThen ensures_meet fun _ => ?_
  split
  · exact .andThen ensures_recordMeaning fun _ => .ret _
  · refine .ite (fun _ => .andThen ensures_recordMeaning fun _ => .ret _) fun _ => ?_
    refine .andThen .readSetting fun setting => ?_
    refine .ite (fun _ => .andThen (.failing _ _) fun _ => ?_) fun _ => ?_
    all_goals
      refine .andThen ensures_warn fun _ => ?_
      refine .andThen ensures_supply fun _ => ?_
      exact .andThen ensures_recordMeaning fun _ => .ret _

theorem ensures_writeName {id : Nat} {position : Position} {name : String} {value : TypeExpr} :
    Ensures (writeName id position name value) [] fun _ => True := by
  refine .andThen .getState fun s => .andThen ensures_meet fun _ => ?_
  split
  · refine .ite (fun _ => ?_) fun _ => .ite (fun _ => ensures_recordType) fun _ => .failing _ _
    refine .andThen ensures_recordMeaning fun _ => ?_
    exact .andThen ensures_retype fun _ => .andThen ensures_recordType fun _ => ensures_meetWrite
  · exact .ite (fun _ => ensures_recordType) fun _ => .failing _ _

theorem ensures_checkPatternNames {pattern : Pattern} {position : Position} :
    Ensures (checkPatternNames pattern position) [] fun _ => True := by
  refine .visit (fun name => ?_) _
  refine .andThen .getState fun s => ?_
  split
  · refine .ite (fun _ => ensures_meetWrite) fun _ => .ite (fun _ => .failing _ _) fun _ => .ret ()
  · exact .ite (fun _ => .failing _ _) fun _ => .ret ()

theorem ensures_binaryType {op : BinaryOp} {left right : TypeExpr} {position : Position} :
    Ensures (binaryType op left right position) [] fun _ => True := by
  unfold binaryType
  split
  iterate 8 exact .ret _
  refine .ite (fun _ => .ret _) fun _ => .ite (fun _ => .ret _) fun _ => ?_
  refine .ite (fun _ => .ite (fun _ => .ret _) fun _ => .ret _) fun _ => ?_
  exact .andThen ensures_warn fun _ => .ret _

theorem ensures_unaryType {op : UnaryOp} {type : TypeExpr} {position : Position} :
    Ensures (unaryType op type position) [] fun _ => True := by
  refine .ite (fun _ => .ret _) fun _ => .ite (fun _ => .ret _) fun _ => ?_
  exact .andThen ensures_warn fun _ => .ret _

theorem ensures_callType {callee : TypeExpr} {count : Nat} {position : Position} :
    Ensures (callType callee count position) [] fun _ => True := by
  unfold callType
  split
  · exact .ret _
  · exact .andThen ensures_warn fun _ => .ret _

theorem ensures_branchType {left right : TypeExpr} {position : Position} :
    Ensures (branchType left right position) [] fun _ => True := by
  unfold branchType
  split
  · exact .ret _
  · exact .andThen ensures_warn fun _ => .ret _

theorem ensures_scopedType {space : Expr} {name : String} :
    Ensures (scopedType space name) [] fun _ => True := by
  refine .andThen .getState fun s => ?_
  split <;> exact .ret _

end ScriptEngine.Analyzing
