import ScriptEngine.Proofs.Analysis.Findings

/-!
# Strict and lenient analyses

A lenient analysis warns of a name that nothing declares and leaves it to a run; a strict one fails
there. Until then the two do the same, so a strict analysis fails where a lenient one warns first.

* `Analysis.undeclared`: the names that nothing declares, in the order of their warnings.
* `State.Supplies`: some steps have left these names to a run, and no others.
* `Agree`: what a step does in a strict analysis and in a lenient one.
* `agreeing`: the judgement that steps agree.
* `Module.analyze_strict_of_lenient`: what a strict analysis of a module comes to.
-/

namespace ScriptEngine

/-- The name that nothing declares, and the place of the warning. -/
def Diagnostic.undeclared? : Diagnostic → Option (String × Position)
  | ⟨.undeclared name, position⟩ => some (name, position)
  | ⟨.operands _ _ _, _⟩ | ⟨.operand _, _⟩ | ⟨.branchesDiffer _, _⟩ | ⟨.argumentCount _ _, _⟩ => none

/-- The names that nothing declares, with the places of their warnings, the first one first. -/
def Analysis.undeclared (a : Analysis) : List (String × Position) :=
  a.warnings.filterMap Diagnostic.undeclared?

/-- What comes of a result where names that nothing declares are faults: the first one is. -/
def strictly {α : Type} (module : String) (result : α) :
    List (String × Position) → Except SemanticError α
  | [] => .ok result
  | (name, position) :: _ => .error ⟨.undeclared name, module, position⟩

namespace Analyzing

namespace State

/-- The names that nothing declares, with the places of their warnings. -/
def undeclared (s : State) : List (String × Position) :=
  s.warnings.toList.filterMap Diagnostic.undeclared?

/-- Some steps have warned that nothing declares these names. Each of them has been left to a run,
that is, it has come into the root, where it was not before. -/
structure Supplies (s s' : State) (names : List (String × Position)) : Prop where
  table : s.table.Extends s'.table
  undeclared : s'.undeclared = s.undeclared ++ names
  fresh : ∀ name ∈ names, s.table.held? ScopeTable.root name.1 = none
  supplied : ∀ name ∈ names, (s'.table.held? ScopeTable.root name.1).isSome
  once : (names.map (·.1)).Nodup

namespace Supplies

variable {s s' s'' : State} {names names' : List (String × Position)}

/-- Steps that do not warn of such names. -/
theorem of_same (table : s.table.Extends s'.table) (same : s'.undeclared = s.undeclared) :
    Supplies s s' [] :=
  ⟨table, by rw [same, List.append_nil], fun _ mem => absurd mem List.not_mem_nil,
    fun _ mem => absurd mem List.not_mem_nil, List.nodup_nil⟩

/-- A name that has been left to a run stays in the root, and is not left to it again. -/
theorem trans (h : Supplies s s' names) (h' : Supplies s' s'' names') :
    Supplies s s'' (names ++ names') where
  table := h.table.trans h'.table
  undeclared := by rw [h'.undeclared, h.undeclared, List.append_assoc]
  fresh name mem := by
    rcases List.mem_append.mp mem with mem | mem
    · exact h.fresh name mem
    · cases held : s.table.held? ScopeTable.root name.1 with
      | none => rfl
      | some entry =>
        obtain ⟨_, held', -⟩ := h.table.held? _ _ _ held
        rw [h'.fresh name mem] at held'
        cases held'
  supplied name mem := by
    rcases List.mem_append.mp mem with mem | mem
    · obtain ⟨entry, held⟩ := Option.isSome_iff_exists.mp (h.supplied name mem)
      obtain ⟨_, held', -⟩ := h'.table.held? _ _ _ held
      rw [held']
      rfl
    · exact h'.supplied name mem
  once := by
    rw [List.map_append]
    refine List.nodup_append.mpr ⟨h.once, h'.once, ?_⟩
    rintro _ mem _ mem' rfl
    obtain ⟨name, before, rfl⟩ := List.mem_map.mp mem
    obtain ⟨name', after, same⟩ := List.mem_map.mp mem'
    have held := h.supplied name before
    rw [← same, h'.fresh name' after] at held
    cases held

end Supplies

end State

open State

variable {α β : Type} {module : String} {s s' : State}

/-- What a step comes to in a strict analysis it comes to in a lenient one; and what it comes to in a
lenient one it comes to in a strict one, unless a name is left to a run. -/
structure Agree (module : String) (x : Analyzer α) (s : State) : Prop where
  lenient : ∀ result, x ⟨module, true⟩ s = .ok result → x ⟨module, false⟩ s = .ok result
  strict : ∀ a s', x ⟨module, false⟩ s = .ok (a, s') → ∃ names, s.Supplies s' names ∧
    x ⟨module, true⟩ s = strictly module (a, s') names

variable {x : Analyzer α} {f : α → Analyzer β}

/-- A step that is the same in both, and warns of no name that nothing declares. -/
theorem agree_of_same (alike : x ⟨module, true⟩ s = x ⟨module, false⟩ s)
    (keeps : ∀ a s', x ⟨module, false⟩ s = .ok (a, s') →
      s.table.Extends s'.table ∧ s'.undeclared = s.undeclared) : Agree module x s where
  lenient result run := alike ▸ run
  strict a s' run := by
    obtain ⟨table, same⟩ := keeps a s' run
    exact ⟨[], .of_same table same, alike.trans run⟩

theorem agree_pure (a : α) : Agree module (pure a) s :=
  agree_of_same rfl fun _ _ run => by
    cases run
    exact ⟨.refl _, rfl⟩

theorem agree_get : Agree module get s :=
  agree_of_same rfl fun _ _ run => by
    cases run
    exact ⟨.refl _, rfl⟩

theorem agree_fail (fault : SemanticFault) (position : Position) :
    Agree module (fail fault position : Analyzer α) s :=
  agree_of_same rfl fun _ _ run => by cases run

theorem agree_modify {g : State → State} (table : s.table.Extends (g s).table)
    (same : (g s).undeclared = s.undeclared) : Agree module (modify g) s :=
  agree_of_same rfl fun _ _ run => by
    cases run
    exact ⟨table, same⟩

theorem agree_ite {c : Prop} [Decidable c] {y : Analyzer α} (h : Agree module x s)
    (h' : Agree module y s) : Agree module (if c then x else y) s := by
  split
  · exact h
  · exact h'

/-- A strict analysis stops at the first step that leaves a name to a run. -/
theorem agree_bind (h : Agree module x s) (h' : ∀ a s', x ⟨module, false⟩ s = .ok (a, s') →
    Agree module (f a) s') : Agree module (x >>= f) s where
  lenient result run := by
    obtain ⟨a, s', first, second⟩ := bind_eq_ok run
    have first' := h.lenient _ first
    rw [bind_of_ok first']
    exact (h' a s' first').lenient _ second
  strict b s'' run := by
    obtain ⟨a, s', first, second⟩ := bind_eq_ok run
    obtain ⟨names, supplies, strict⟩ := h.strict a s' first
    obtain ⟨names', supplies', strict'⟩ := (h' a s' first).strict b s'' second
    refine ⟨names ++ names', supplies.trans supplies', ?_⟩
    cases names with
    | nil => exact (bind_of_ok strict).trans strict'
    | cons name names => exact bind_of_error strict

/-- A change before a step. -/
theorem agree_change {g : State → State} {y : Analyzer β} (table : s.table.Extends (g s).table)
    (same : (g s).undeclared = s.undeclared) (h : Agree module y (g s)) :
    Agree module (do modify g; y) s :=
  agree_bind (agree_modify table same) fun _ _ run => by
    cases run
    exact h

/-- What is known is looked at before a step. -/
theorem agree_look {f : State → Analyzer β} (h : Agree module (f s) s) :
    Agree module (do f (← get)) s :=
  agree_bind agree_get fun _ _ run => by
    cases run
    exact h

/-- What is known may change on the way out. -/
theorem agree_leave {g : State → State} (h : Agree module x s) (table : ∀ s, (g s).table = s.table)
    (same : ∀ s, (g s).undeclared = s.undeclared) :
    Agree module (do let a ← x; modify g; return a) s :=
  agree_bind h fun a s' _ => agree_change (by rw [table s']; exact .refl _) (same s') (agree_pure a)

/-! ### Names -/

theorem agree_retype (name : String) (f : TypeExpr → TypeExpr) : Agree module (retype name f) s :=
  agree_modify .retype rfl

theorem agree_recordType (id : Nat) (type : TypeExpr) : Agree module (recordType id type) s :=
  agree_modify (.refl _) rfl

theorem agree_declare (name : String) (kind : SymbolKind) (assignable : Bool) (type : TypeExpr)
    (position : Position) : Agree module (declare name kind assignable type position) s := by
  refine agree_look ?_
  cases declared : s.table.declare s.current ⟨name, kind, assignable, type, position⟩ with
  | error old => exact agree_fail _ _
  | ok table =>
    obtain ⟨fresh, rfl⟩ := ScopeTable.declare_eq_ok declared
    refine agree_of_same rfl fun _ _ run => ?_
    cases run
    exact ⟨.define fresh, rfl⟩

/-- Only where nothing declares a name that is read do the two differ. -/
theorem agree_readName (sound : s.Sound) (id : Nat) (position : Position) (name : String) :
    Agree module (readName id position name) s := by
  refine agree_look (agree_change (.refl _) rfl ?_)
  cases meaning : s.table.lookup s.current name with
  | some found => exact agree_change (.refl _) rfl (agree_pure _)
  | none =>
    by_cases inside : 0 < s.entityDepth
    · simp only [inside, if_true]
      exact agree_change (.refl _) rfl (agree_pure _)
    · simp only [inside, if_false]
      have fresh := (accounts_of_supply sound id position meaning).1
      refine ⟨fun result run => (by cases run), fun a s' run => ⟨[(name, position)], ?_, ?_⟩⟩
      · cases run
        refine ⟨.define fresh, ?_, ?_, ?_, List.nodup_singleton _⟩
        · show List.filterMap _ (s.warnings.push _).toList = _
          rw [Array.toList_push, List.filterMap_append]
          rfl
        · rintro _ (_ | ⟨_, ⟨⟩⟩)
          exact fresh
        · rintro _ (_ | ⟨_, ⟨⟩⟩)
          show ((s.table.define ScopeTable.root _).held? ScopeTable.root name).isSome
          rw [ScopeTable.held?_define, if_pos]
          · rfl
          · exact ⟨rfl, rfl, Nat.zero_lt_of_lt sound.there⟩
      · cases run
        rfl

theorem agree_writeName (id : Nat) (position : Position) (name : String) (type : TypeExpr) :
    Agree module (writeName id position name type) s := by
  have entityOnly (c : Prop) [Decidable c] (s : State) : Agree module (if c then
      recordType id .unknown else fail (.undeclaredAssignment name) position) s :=
    agree_ite (agree_recordType id _) (agree_fail _ position)
  refine agree_look (agree_change (.refl _) rfl ?_)
  split
  · refine agree_ite (agree_change (.refl _) rfl ?_) (entityOnly _ _)
    refine agree_bind (agree_retype name _) fun _ _ _ => ?_
    exact agree_bind (agree_recordType id _) fun _ _ _ => agree_modify (.refl _) rfl
  · exact entityOnly _ _

theorem agree_checkName (position : Position) (name : String) :
    Agree module (checkName position name) s := by
  refine agree_look ?_
  split
  · exact agree_ite (agree_modify (.refl _) rfl) (agree_ite (agree_fail _ position) (agree_pure ()))
  · exact agree_ite (agree_fail _ position) (agree_pure ())

theorem agree_checkPatternNames (p : Pattern) (position : Position) :
    Agree module (checkPatternNames p position) s := by
  unfold checkPatternNames
  generalize p.bindings = names
  induction names generalizing s with
  | nil => exact agree_pure ()
  | cons name names ih => exact agree_bind (agree_checkName position name) fun _ _ _ => ih

theorem agree_scopedType (space : Expr) (name : String) : Agree module (scopedType space name) s := by
  refine agree_look ?_
  split <;> exact agree_pure _

/-! ### Surroundings -/

theorem agree_inScope {kind : ScopeKind} (h : Agree module x { s with
    table := (s.table.push s.current kind).2, current := s.table.size }) :
    Agree module (inScope kind x) s :=
  agree_look (agree_change .push rfl (agree_leave h (fun _ => rfl) fun _ => rfl))

theorem agree_inEntity (h : Agree module x { s with
    table := (s.table.push s.current .entity).2
    current := s.table.size
    entityDepth := s.entityDepth + 1 }) : Agree module (inEntity x) s :=
  agree_change (.refl _) rfl (agree_leave (agree_inScope h) (fun _ => rfl) fun _ => rfl)

theorem agree_of_remarks (h : ∃ a remarks, Remarks x a remarks) : Agree module x s := by
  obtain ⟨a, remarks, said⟩ := h
  refine agree_of_same ((said.run _ s).trans (said.run _ s).symm) fun b s' run => ?_
  cases (said.run _ s).symm.trans run
  refine ⟨.refl _, ?_⟩
  have silent : remarks.toList.filterMap Diagnostic.undeclared? = [] := by
    refine List.filterMap_eq_nil_iff.mpr fun remark mem => ?_
    have declared := said.declared remark (Array.mem_toList_iff.mp mem)
    obtain ⟨warning, position⟩ := remark
    cases warning with
    | undeclared name => exact absurd rfl (declared name)
    | _ => rfl
  show (s.warnings ++ remarks).toList.filterMap _ = _
  rw [Array.toList_append, List.filterMap_append, silent, List.append_nil]
  rfl

theorem agree_of_checks {x : Analyzer Unit} (checks : Checks x) : Agree module x s where
  lenient result run := by
    obtain ⟨rfl, passes⟩ := checks _ s result.2 run
    exact passes _ _ rfl rfl rfl
  strict a s' run := by
    obtain ⟨rfl, passes⟩ := checks _ s s' run
    exact ⟨[], .of_same (.refl _) rfl, passes _ _ rfl rfl rfl⟩

/-! ### The judgement -/

/-- The judgement that steps cover the parts that they walk over, and agree. -/
def agreeing (module : String) : Judgement where
  alike := True
  holds x _ ps := Covered x ps ∧ ∀ s, s.Sound → Agree module x s
  inside x _ ps := Covered x ps ∧ ∀ s, s.Sound → Agree module x s

theorem agreeing_bind {module : String} {α β : Type} {x : Analyzer α} {f : α → Analyzer β}
    {ps qs : List Part} (h : Covered x ps ∧ ∀ s, s.Sound → Agree module x s)
    (h' : ∀ a, Covered (f a) qs ∧ ∀ s, s.Sound → Agree module (f a) s) :
    Covered (x >>= f) (ps ++ qs) ∧ ∀ s, s.Sound → Agree module (x >>= f) s :=
  ⟨covered_bind h.1 fun a => (h' a).1, fun s sound => agree_bind (h.2 s sound)
    fun a s' run => (h' a).2 s' (h.1 _ _ _ _ run sound).sound⟩

theorem agreeing_lawful (module : String) : (agreeing module).Lawful where
  ret _ := ⟨covered_pure _, fun _ _ => agree_pure _⟩
  bind h h' := agreeing_bind h fun a => h' a a fun _ => rfl
  parts same h := ⟨h.1.parts same, h.2⟩
  again written h := ⟨h.1.again written, h.2⟩
  remark h h' same := ⟨covering_lawful.remark h h' same, fun _ _ => agree_of_remarks h⟩
  check checks := ⟨covering_lawful.check checks, fun _ _ => agree_of_checks checks⟩
  scopedType space name := ⟨covering_lawful.scopedType space name, fun _ _ => agree_scopedType space name⟩
  nameSpace name := ⟨covering_lawful.nameSpace name, fun _ _ => agree_modify (.refl _) rfl⟩
  complete same := ⟨covering_lawful.complete same, fun s _ => agree_modify
    (by split <;> exact .refl _) (by split <;> rfl)⟩
  retype name _ _ same := ⟨covering_lawful.retype name same, fun _ _ => agree_retype name _⟩
  declare name _ _ assignable _ _ position _ _ _ _ _ :=
    ⟨covered_declare name _ assignable _ position,
      fun _ _ => agree_declare name _ assignable _ position⟩
  keep part _ _ _ is plain same := ⟨covering_lawful.keep part is plain same,
    fun _ _ => agree_recordType _ _⟩
  name := fun {e name} named => by
    refine ⟨covering_lawful.name named, fun s sound => ?_⟩
    obtain ⟨id, position, kind⟩ := e
    obtain rfl : kind = .name name := named
    unfold infer inferKind
    exact agree_bind (agree_readName sound id position name) fun _ _ _ =>
      agree_bind (agree_recordType id _) fun _ _ _ => agree_pure _
  write named same := ⟨covering_lawful.write named same, fun _ _ => agree_writeName _ _ _ _⟩
  pattern p position := ⟨covering_lawful.pattern p position,
    fun _ _ => agree_checkPatternNames p position⟩
  inScope kind _ _ _ _ h := ⟨covered_inScope h.1 kind,
    fun s sound => agree_inScope (h.2 _ (sound.enter (t := s.entityDepth) .inr))⟩
  enter h := h
  insideBind h h' := agreeing_bind h fun a => h' a a fun _ => rfl
  member name _ _ position _ :=
    ⟨covered_declare name _ _ _ position, fun _ _ => agree_declare name _ _ _ position⟩
  inEntity h := ⟨covered_inEntity h.1, fun s sound => agree_inEntity
    (h.2 _ (Sound.enter (s := { s with entityDepth := s.entityDepth + 1 }) sound fun _ => .inl rfl))⟩
  inLoop h := ⟨covered_inLoop h.1, fun s sound => agree_change (.refl _) rfl
    (agree_leave (h.2 _ ⟨sound.rooted, sound.there, sound.entity, sound.declared, sound.meanings⟩)
      (fun _ => rfl) fun _ => rfl)⟩
  outsideLoops h := ⟨covered_outsideLoops h.1, fun s sound => agree_look (agree_change (.refl _) rfl
    (agree_leave (h.2 _ ⟨sound.rooted, sound.there, sound.entity, sound.declared, sound.meanings⟩)
      (fun _ => rfl) fun _ => rfl))⟩
  inBoundary h := ⟨covered_inBoundary h.1, fun s sound => agree_change (.refl _) rfl
    (agree_bind (h.2 _ ⟨sound.rooted, sound.there, sound.entity, sound.declared, sound.meanings⟩)
      fun _ _ _ => agree_look (agree_change (.refl _) rfl (agree_pure _)))⟩

end Analyzing

open Analyzing in
/-- A module that a strict analysis accepts is accepted by a lenient one with the same findings. -/
theorem Module.analyze_of_strict {m : Module} {bindings : List String} {a : Analysis}
    (analysed : m.analyze bindings true = .ok a) : m.analyze bindings false = .ok a := by
  have agree : Agree m.name (analyzeStatements m.statements) (.start bindings) :=
    ((agreeing_lawful m.name).analyzeStatements m).2 _ (.start bindings)
  rw [Module.analyze_eq] at analysed ⊢
  cases walk : analyzeStatements m.statements ⟨m.name, true⟩ (.start bindings) with
  | error e =>
    rw [walk] at analysed
    cases analysed
  | ok result => rw [agree.lenient _ walk, ← walk, analysed]

open Analyzing in
/-- A strict analysis comes to what a lenient one comes to, unless nothing declares a name: then it
fails at the place of the first warning of that. A lenient analysis warns of no such name twice. -/
theorem Module.analyze_strict_of_lenient (m : Module) (bindings : List String) :
    (∀ a, m.analyze bindings true = .ok a → m.analyze bindings false = .ok a) ∧
      ∀ a, m.analyze bindings false = .ok a →
        m.analyze bindings true = strictly m.name a a.undeclared ∧
          (a.undeclared.map (·.1)).Nodup := by
  have agree : Agree m.name (analyzeStatements m.statements) (.start bindings) :=
    ((agreeing_lawful m.name).analyzeStatements m).2 _ (.start bindings)
  constructor
  · exact fun a analysed => Module.analyze_of_strict analysed
  · intro a analysed
    rw [Module.analyze_eq] at analysed ⊢
    cases walk : analyzeStatements m.statements ⟨m.name, false⟩ (.start bindings) with
    | error e =>
      rw [walk] at analysed
      cases analysed
    | ok result =>
      obtain ⟨type, s⟩ := result
      rw [walk] at analysed
      obtain rfl := Except.ok.inj analysed
      obtain ⟨names, supplies, strict⟩ := agree.strict type s walk
      have all : s.analysis.undeclared = names := supplies.undeclared
      rw [all, strict]
      refine ⟨?_, supplies.once⟩
      cases names <;> rfl

/-- A module that reads two names that nothing declares, the first one twice. -/
def straySample : Module :=
  ⟨"main", ⟨[
    ⟨⟨1, 1, 0⟩, .expression ⟨1, ⟨1, 1, 0⟩, .name "x"⟩ true⟩,
    ⟨⟨2, 1, 3⟩, .expression ⟨2, ⟨2, 1, 3⟩, .name "y"⟩ true⟩,
    ⟨⟨3, 1, 6⟩, .expression ⟨3, ⟨3, 1, 6⟩, .name "x"⟩ true⟩], ⟨1, 1, 0⟩⟩⟩

theorem Module.analyze_straySample :
    (∃ a, straySample.analyze [] false = .ok a ∧
      a.undeclared = [("x", ⟨1, 1, 0⟩), ("y", ⟨2, 1, 3⟩)] ∧
        straySample.analyze [] true = .error ⟨.undeclared "x", "main", ⟨1, 1, 0⟩⟩ ∧
          (a.undeclared.map (·.1)).Nodup) ∧
      ∃ a, entitySample.analyze [] true = .ok a ∧ entitySample.analyze [] false = .ok a := by
  have warned : (straySample.analyze [] false).map Analysis.undeclared =
      .ok [("x", ⟨1, 1, 0⟩), ("y", ⟨2, 1, 3⟩)] := by decide +kernel
  have accepted : (entitySample.analyze [] true).toBool = true := by decide +kernel
  constructor
  · cases analysed : straySample.analyze [] false with
    | error e => rw [analysed] at warned; cases warned
    | ok a =>
      rw [analysed] at warned
      have names : a.undeclared = [("x", ⟨1, 1, 0⟩), ("y", ⟨2, 1, 3⟩)] := Except.ok.inj warned
      obtain ⟨strict, once⟩ := (analyze_strict_of_lenient straySample []).2 a analysed
      exact ⟨a, rfl, names, by rw [strict, names]; rfl, once⟩
  · cases analysed : entitySample.analyze [] true with
    | error e => rw [analysed] at accepted; cases accepted
    | ok a => exact ⟨a, rfl, (analyze_strict_of_lenient entitySample []).1 a analysed⟩

end ScriptEngine
