import ScriptEngine.Proofs.Analysis.Balance

/-!
# What an analysis accepts

The walk of an analysis reaches every part of a tree with the number of loops and entities around
it. Where it succeeds, every form in the tree therefore has the surroundings it is meant for. Imports
are only met in the scope of the module, which declares each of its names once.

* `ensures_infer`, `ensures_analyzeStmt` and the others: one statement for each function of the walk.
* `Module.suits_of_analyze`: a module that is accepted suits the top level.
* `Module.topLevel_of_analyze`: it is code for the top level.
-/

namespace ScriptEngine.Analyzing

/-! ## Statements of a block -/

/-- An import stands at the top level, and where imports may be. Every form inside a statement has
the surroundings it is meant for. -/
structure FitsAt (imports : Prop) (s : Stmt) (p : Spot) : Prop where
  atTop : s.isImport = true → p.atTop = true
  fits : (s.isImport = true → imports) → s.Fits imports p.site

variable {imports : Prop}

/-- What is no import may stand anywhere that suits it. -/
theorem FitsAt.of_fits {s : Stmt} {p : Spot} (plain : s.isImport = false)
    (h : s.Fits imports p.site) : FitsAt imports s p :=
  ⟨fun import' => by simp [plain] at import', fun _ => h⟩

theorem fitAll_of_fits {t : Site} {statements : List Stmt}
    (h : ∀ s ∈ statements, s.Fits imports t) : Stmt.FitAll imports t statements := by
  induction statements with
  | nil => trivial
  | cons s rest ih =>
    exact ⟨h s List.mem_cons_self, ih fun other mem => h other (List.mem_cons_of_mem _ mem)⟩

/-- In a scope inside that of the module there are no imports. -/
theorem fitAll_of_fitsAt {p : Spot} {statements : List Stmt} (inside : p.atTop = false)
    (h : ∀ s ∈ statements, FitsAt imports s p) : Stmt.FitAll imports p.site statements := by
  refine fitAll_of_fits fun s mem => (h s mem).fits fun import' => ?_
  have atTop := (h s mem).atTop import'
  simp [inside] at atTop

/-- The statements of a block that are no functions have the surroundings they are meant for. -/
def EachFits (imports : Prop) (statements : List Stmt) (p : Spot) : Prop :=
  ∀ s ∈ statements, (∀ definition, s.kind ≠ .function definition) → FitsAt imports s p

/-- The functions of a block have the surroundings they are meant for. -/
def BodiesFit (imports : Prop) (statements : List Stmt) (p : Spot) : Prop :=
  ∀ s ∈ statements, ∀ definition, s.kind = .function definition → FitsAt imports s p

/-- Statements fit a spot if the functions among them do and the others do. -/
theorem fitsAt_of_parts {p : Spot} {statements : List Stmt}
    (h : EachFits imports statements p ∧ BodiesFit imports statements p) :
    ∀ s ∈ statements, FitsAt imports s p := by
  intro s mem
  by_cases isFunction : ∃ definition, s.kind = .function definition
  · obtain ⟨definition, same⟩ := isFunction
    exact h.2 s mem definition same
  · exact h.1 s mem fun definition same => isFunction ⟨definition, same⟩

theorem EachFits.cons {p : Spot} {s : Stmt} {rest : List Stmt} (h : FitsAt imports s p)
    (h' : EachFits imports rest p) : EachFits imports (s :: rest) p := by
  intro other mem plain
  rcases List.mem_cons.mp mem with rfl | mem
  · exact h
  · exact h' other mem plain

theorem BodiesFit.cons {p : Spot} {s : Stmt} {rest : List Stmt}
    (h : ∀ definition, s.kind = .function definition → FitsAt imports s p)
    (h' : BodiesFit imports rest p) : BodiesFit imports (s :: rest) p := by
  intro other mem definition same
  rcases List.mem_cons.mp mem with rfl | mem
  · exact h definition same
  · exact h' other mem definition same

/-- A walk over a block declares its functions first, and ensures what the walks over its statements
and its functions ensure. -/
theorem ensures_blockType {statements : List Stmt} {each : Analyzer TypeExpr}
    {bodies : Analyzer Unit} (h : Ensures each (statements.flatMap (·.names))
      (EachFits imports statements))
    (h' : Ensures bodies [] (BodiesFit imports statements)) :
    Ensures (blockType statements each bodies) (Stmt.allNames statements) fun p =>
      ∀ s ∈ statements, FitsAt imports s p := by
  refine ensures_declareFunctions.before fun _ => ?_
  have both := h.append fun tail => h'.bind fun _ => Ensures.ret tail
  rw [List.append_nil] at both
  exact both.imp fun p ensured => fitsAt_of_parts ⟨ensured.1, ensured.2.1⟩

/-- A walk over a block in a scope inside the current one finds no imports. -/
theorem ensures_inScope_blockType {kind : ScopeKind} {statements : List Stmt}
    {each : Analyzer TypeExpr} {bodies : Analyzer Unit}
    (h : Ensures each (statements.flatMap (·.names)) (EachFits imports statements))
    (h' : Ensures bodies [] (BodiesFit imports statements)) :
    Ensures (inScope kind (blockType statements each bodies)) [] fun p =>
      Stmt.FitAll imports p.site statements :=
  (ensures_blockType h h').inScope.imp fun p fits => fitAll_of_fitsAt (p := p.inner) rfl fits

/-- A place that is no name is walked over like any other expression. -/
theorem ensures_checkPlace_of {value : TypeExpr} {id : Nat} {position : Position} {kind : ExprKind}
    (h : Ensures (inferKind id position kind) [] fun p => kind.Fits imports p.site) :
    Ensures (checkPlace value ⟨id, position, kind⟩) [] fun p =>
      Expr.Fits imports p.site ⟨id, position, kind⟩ := by
  cases kind with
  | name name =>
    unfold checkPlace
    exact ensures_writeName
  | _ =>
    unfold checkPlace
    exact (h.bind fun _ => ensures_recordType).imp fun _ both => both.1

/-- A statement that may be left out stands in no other scope. -/
theorem fitsIfAny_of_fitsAt {p : Spot} {statement : Option Stmt} (inside : p.atTop = false)
    (h : ∀ s ∈ statement, FitsAt imports s p) : Stmt.FitsIfAny imports p.site statement := by
  cases statement with
  | none => trivial
  | some s =>
    refine (h s rfl).fits fun import' => ?_
    have atTop := (h s rfl).atTop import'
    simp [inside] at atTop

/-- The walk over a statement that is no function is that of the statement alone. -/
theorem ensures_analyzeEach_cons {statement : Stmt} {rest : List Stmt}
    (h : Ensures (analyzeStmt statement) statement.names (FitsAt imports statement))
    (h' : Ensures (analyzeEach rest) (rest.flatMap (·.names)) (EachFits imports rest)) :
    Ensures (analyzeEach (statement :: rest)) ((statement :: rest).flatMap (·.names))
      (EachFits imports (statement :: rest)) := by
  obtain ⟨position, kind⟩ := statement
  rw [List.flatMap_cons]
  unfold analyzeStmt at h
  cases kind with
  | function definition =>
    unfold analyzeEach
    refine h'.imp fun p fits other mem plain => ?_
    rcases List.mem_cons.mp mem with rfl | mem
    · exact absurd rfl (plain _)
    · exact fits other mem plain
  | expression value terminated =>
    unfold analyzeEach
    unfold analyzeStmtKind at h
    have walk := h.of_discard.append fun type => h'.result (g := fun later =>
      if rest.isEmpty && !terminated && !value.isAssignmentLike then type else later)
    exact walk.imp fun _ both => .cons both.1 both.2
  | _ =>
    unfold analyzeEach
    unfold analyzeStmt
    exact (h.append fun _ => h').imp fun _ both => .cons both.1 both.2

/-- The walk over a function among statements is that of the statement. -/
theorem ensures_analyzeBodies_cons {statement : Stmt} {rest : List Stmt}
    (h : Ensures (analyzeStmt statement) statement.names (FitsAt imports statement))
    (h' : Ensures (analyzeBodies rest) [] (BodiesFit imports rest)) :
    Ensures (analyzeBodies (statement :: rest)) [] (BodiesFit imports (statement :: rest)) := by
  obtain ⟨position, kind⟩ := statement
  cases kind with
  | function definition =>
    unfold analyzeStmt analyzeStmtKind at h
    unfold analyzeBodies
    refine (h.of_discard.bind (Q := BodiesFit imports rest) fun type => ?_).imp
      fun _ both => .cons (fun _ _ => both.1) both.2
    split
    · exact .andThen ensures_retype fun _ => h'
    · exact h'
  | _ =>
    unfold analyzeBodies
    exact h'.imp fun _ fits => .cons (fun _ same => StmtKind.noConfusion same) fits

mutual

theorem ensures_infer (imports : Prop) : ∀ e : Expr, Ensures (infer e) [] fun p => e.Fits imports p.site
  | ⟨id, position, kind⟩ => by
    unfold infer
    refine ((ensures_inferKind imports id position kind).bind fun type =>
      .andThen ensures_recordType fun _ => .ret type).imp fun t h => ?_
    exact h.1

theorem ensures_inferKind (imports : Prop) (id : Nat) (position : Position) :
    ∀ kind : ExprKind, Ensures (inferKind id position kind) [] fun p => kind.Fits imports p.site
  | .literal value => by
    unfold inferKind
    exact .ret _
  | .name name => by
    unfold inferKind
    exact ensures_readName
  | .this | .base => by
    unfold inferKind
    exact ensures_requireEntity.result
  | .external _ => by
    unfold inferKind
    exact .ret _
  | .scoped space name => by
    unfold inferKind
    exact ((ensures_infer imports space).bind fun _ => ensures_scopedType).imp fun _ h => h.1
  | .array items | .tuple items => by
    unfold inferKind
    exact (ensures_inferAll imports items).result
  | .map entries => by
    unfold inferKind
    exact (ensures_inferEntries imports entries).result
  | .entity members | .construct _ members => by
    unfold inferKind
    exact (ensures_inferMembers imports members).inEntity.result
  | .extend base members => by
    unfold inferKind
    exact (ensures_infer imports base).bind fun _ => (ensures_inferMembers imports members).inEntity.result
  | .unary op operand => by
    unfold inferKind
    exact ((ensures_infer imports operand).bind fun _ => ensures_unaryType).imp fun _ h => h.1
  | .binary op left right => by
    unfold inferKind
    refine ((ensures_infer imports left).bind fun _ => (ensures_infer imports right).bind fun _ =>
      ensures_binaryType).imp fun _ h => ?_
    exact ⟨h.1, h.2.1⟩
  | .typeTest value _ => by
    unfold inferKind
    exact ((ensures_infer imports value).bind fun _ => .ret _).imp fun _ h => h.1
  | .update _ _ target => by
    unfold inferKind
    exact ((ensures_checkPlace imports .number target).bind fun _ => .ret _).imp fun _ h => h.1
  | .assign op (.place place) value => by
    unfold inferKind
    refine ((ensures_infer imports value).bind (Q := fun p => place.Fits imports p.site) fun type =>
      ?_).imp fun _ h =>
      ⟨h.2, h.1⟩
    split
    · exact ((ensures_checkPlace imports type place).bind fun _ => .ret _).imp fun _ h => h.1
    · refine ((ensures_infer imports place).bind (Q := fun _ => True) fun current => ?_).imp
        fun _ h => h.1
      refine .andThen ensures_binaryType fun stored => ?_
      exact ((ensures_checkPlace imports stored place).bind fun _ => .ret _).imp fun _ _ => trivial
  | .assign _ (.pattern pattern) value => by
    unfold inferKind
    refine ((ensures_infer imports value).bind fun _ =>
      .andThen ensures_checkPatternNames fun _ => .ret _).imp fun _ h => ?_
    exact ⟨trivial, h.1⟩
  | .conditional condition thenBranch elseBranch => by
    unfold inferKind
    refine ((ensures_infer imports condition).bind fun _ => (ensures_infer imports thenBranch).bind fun _ =>
      (ensures_infer imports elseBranch).bind fun _ => ensures_branchType).imp fun _ h => ?_
    exact ⟨h.1, h.2.1, h.2.2.1⟩
  | .pipe value function => by
    unfold inferKind
    refine ((ensures_infer imports value).bind fun _ => (ensures_infer imports function).bind fun _ =>
      ensures_callType).imp fun _ h => ?_
    exact ⟨h.1, h.2.1⟩
  | .call callee args => by
    unfold inferKind
    refine ((ensures_infer imports callee).bind fun _ => (ensures_inferAll imports args).bind fun _ =>
      ensures_callType).imp fun _ h => ?_
    exact ⟨h.1, h.2.1⟩
  | .member object _ | .tupleIndex object _ => by
    unfold inferKind
    exact (ensures_infer imports object).result
  | .index object index => by
    unfold inferKind
    refine ((ensures_infer imports object).bind fun _ => (ensures_infer imports index).bind fun _ =>
      .ret _).imp fun _ h => ?_
    exact ⟨h.1, h.2.1⟩
  | .function definition => by
    unfold inferKind
    exact ensures_analyzeFunction imports definition
  | .block body => by
    unfold inferKind
    exact ensures_analyzeBoundary imports body
  | .async body => by
    unfold inferKind
    exact (ensures_analyzeBoundary imports body).outsideLoops.result
  | .safe body => by
    unfold inferKind
    exact ((ensures_analyzeBoundary imports body).outsideLoops.bind fun _ => .ret _).imp fun _ h => h.1
  | .lock key body => by
    unfold inferKind
    exact (ensures_inferOption imports key).bind fun _ => (ensures_analyzeBoundary imports body).outsideLoops
  | .matchOn scrutinee arms => by
    unfold inferKind
    exact (ensures_infer imports scrutinee).bind fun type => (ensures_analyzeArms imports true type arms).result

theorem ensures_inferAll (imports : Prop) : ∀ items : List Expr,
    Ensures (inferAll items) [] fun p => Expr.FitAll imports p.site items
  | [] => by
    unfold inferAll
    exact .ret _
  | item :: items => by
    unfold inferAll
    exact (ensures_infer imports item).bind fun _ => (ensures_inferAll imports items).result

theorem ensures_inferOption (imports : Prop) :
    ∀ value : Option Expr, Ensures (inferOption value) [] fun p => Expr.FitsIfAny imports p.site value
  | none => by
    unfold inferOption
    exact .ret _
  | some value => by
    unfold inferOption
    exact ((ensures_infer imports value).bind fun _ => .ret _).imp fun _ h => h.1

theorem ensures_inferEntries (imports : Prop) :
    ∀ entries : List (Expr × Expr),
      Ensures (inferEntries entries) [] fun p => Expr.EntriesFit imports p.site entries
  | [] => by
    unfold inferEntries
    exact .ret _
  | (key, value) :: entries => by
    unfold inferEntries
    exact (ensures_infer imports key).bind fun _ => (ensures_infer imports value).bind fun _ =>
      (ensures_inferEntries imports entries).result

theorem ensures_inferMembers (imports : Prop) :
    ∀ members : List MemberInit, Ensures (inferMembers members) (members.flatMap fun m => [m.name])
      fun p => MemberInit.FitAll imports p.site members
  | [] => by
    unfold inferMembers
    exact .ret _
  | ⟨name, value, position⟩ :: members => by
    unfold inferMembers
    exact (ensures_infer imports value).bind fun _ => ensures_declare.before fun _ =>
      (ensures_inferMembers imports members).result

theorem ensures_checkPlace (imports : Prop) (value : TypeExpr) :
    ∀ place : Expr, Ensures (checkPlace value place) [] fun p => place.Fits imports p.site
  | ⟨id, position, kind⟩ =>
    ensures_checkPlace_of (ensures_inferKind imports id position kind)

theorem ensures_analyzeFunction (imports : Prop) :
    ∀ definition : FunctionDef,
      Ensures (analyzeFunction definition) [] fun p => definition.Fits imports p.site
  | ⟨name, params, body, position⟩ => by
    unfold analyzeFunction
    exact (ensures_declareAll.before fun _ =>
      ensures_analyzeFunctionBody imports body).inScope.outsideLoops.result

theorem ensures_analyzeFunctionBody (imports : Prop) :
    ∀ body : Body, Ensures (analyzeFunctionBody body) [] fun p => body.Fits imports p.site
  | .block body => by
    unfold analyzeFunctionBody
    exact ensures_analyzeBoundary imports body
  | .expr value => by
    unfold analyzeFunctionBody
    exact (ensures_infer imports value).inBoundary.result

theorem ensures_analyzeArms (imports : Prop) (expression : Bool) (scrutinee : TypeExpr) :
    ∀ arms : List Arm,
      Ensures (analyzeArms expression scrutinee arms) [] fun p => Arm.FitAll imports p.site arms
  | [] => by
    unfold analyzeArms
    exact .ret _
  | ⟨pattern, guard, body, position⟩ :: arms => by
    unfold analyzeArms
    exact (((ensures_declarePattern pattern scrutinee).before fun _ =>
      (ensures_inferOption imports guard).bind fun _ =>
        ensures_analyzeArmBody imports expression body).inScope.bind fun _ =>
      (ensures_analyzeArms imports expression scrutinee arms).result).imp
        fun _ h => ⟨h.1.1, h.1.2, h.2⟩

theorem ensures_analyzeArmBody (imports : Prop) (expression : Bool) :
    ∀ body : Body, Ensures (analyzeArmBody expression body) [] fun p => body.Fits imports p.site
  | .block body => by
    unfold analyzeArmBody
    refine .ite (fun _ => ensures_analyzeBoundary imports body) fun _ => ?_
    exact ((ensures_analyzeTransparent imports body).bind fun _ => .ret _).imp fun _ h => h.1
  | .expr value => by
    unfold analyzeArmBody
    refine ((ensures_infer imports value).bind (Q := fun _ => True) fun type => ?_).imp fun _ h => h.1
    refine .ite (fun _ => .ret _) fun _ => ?_
    exact .ite (fun _ => .andThen ensures_complete fun _ => .ret _) fun _ => .ret _

theorem ensures_analyzeTransparent (imports : Prop) :
    ∀ body : Block, Ensures (analyzeTransparent body) [] fun p => body.Fits imports p.site
  | ⟨statements, position⟩ => by
    unfold analyzeTransparent
    refine (Ensures.bind (Q := fun _ => True) (ensures_inScope_blockType
      (ensures_analyzeEach imports statements) (ensures_analyzeBodies imports statements))
      fun type => ?_).imp fun _ h => h.1
    exact .ite (fun _ => ensures_complete) fun _ => .ret _

theorem ensures_analyzeBoundary (imports : Prop) :
    ∀ body : Block, Ensures (analyzeBoundary body) [] fun p => body.Fits imports p.site
  | ⟨statements, position⟩ => by
    unfold analyzeBoundary
    exact (Ensures.bind (Q := fun _ => True) (Ensures.inBoundary (ensures_inScope_blockType
      (ensures_analyzeEach imports statements) (ensures_analyzeBodies imports statements)))
      fun _ => .ret _).imp fun _ h => h.1

theorem ensures_analyzeEach (imports : Prop) :
    ∀ statements : List Stmt, Ensures (analyzeEach statements) (statements.flatMap (·.names))
      (EachFits imports statements)
  | [] => by
    unfold analyzeEach
    exact (Ensures.ret _).imp fun _ _ => by simp [EachFits]
  | statement :: rest =>
    ensures_analyzeEach_cons (ensures_analyzeStmt imports statement)
      (ensures_analyzeEach imports rest)

theorem ensures_analyzeBodies (imports : Prop) :
    ∀ statements : List Stmt, Ensures (analyzeBodies statements) [] (BodiesFit imports statements)
  | [] => by
    unfold analyzeBodies
    exact (Ensures.ret _).imp fun _ _ => by simp [BodiesFit]
  | statement :: rest =>
    ensures_analyzeBodies_cons (ensures_analyzeStmt imports statement)
      (ensures_analyzeBodies imports rest)

theorem ensures_analyzeStmtOption (imports : Prop) :
    ∀ statement : Option Stmt, Ensures (analyzeStmtOption statement)
      (statement.toList.flatMap (·.names)) fun p => ∀ s ∈ statement, FitsAt imports s p
  | none => by
    unfold analyzeStmtOption
    exact (Ensures.ret _).imp fun _ _ => by simp
  | some statement => by
    unfold analyzeStmtOption
    rw [Option.toList_some, List.flatMap_singleton]
    exact (ensures_analyzeStmt imports statement).imp fun _ fits s same =>
      Option.some.inj same ▸ fits

theorem ensures_analyzeTransparentOption (imports : Prop) :
    ∀ body : Option Block,
      Ensures (analyzeTransparentOption body) [] fun p => Block.FitsIfAny imports p.site body
  | none => by
    unfold analyzeTransparentOption
    exact .ret _
  | some body => by
    unfold analyzeTransparentOption
    exact ensures_analyzeTransparent imports body

theorem ensures_analyzeStmt (imports : Prop) :
    ∀ statement : Stmt, Ensures (analyzeStmt statement) statement.names (FitsAt imports statement)
  | ⟨position, kind⟩ => by
    unfold analyzeStmt
    exact ensures_analyzeStmtKind imports position kind

theorem ensures_analyzeStmtKind (imports : Prop) (position : Position) :
    ∀ kind : StmtKind, Ensures (analyzeStmtKind position kind) (Stmt.names ⟨position, kind⟩)
      (FitsAt imports ⟨position, kind⟩)
  | .declare word declarators => by
    unfold analyzeStmtKind
    exact (ensures_analyzeDeclarators imports _ declarators).imp fun _ h => .of_fits rfl h
  | .function definition => by
    unfold analyzeStmtKind
    exact ((ensures_analyzeFunction imports definition).bind fun _ => .ret _).imp
      fun _ h => .of_fits rfl h.1
  | .branch condition thenBranch elseBranch => by
    unfold analyzeStmtKind
    exact ((ensures_infer imports condition).bind fun _ =>
      (ensures_analyzeTransparent imports thenBranch).bind fun _ =>
        ensures_analyzeTransparentOption imports elseBranch).imp fun _ h => .of_fits rfl h
  | .whileLoop condition body | .doWhile body condition => by
    unfold analyzeStmtKind
    exact ((ensures_infer imports condition).bind fun _ =>
      (ensures_analyzeTransparent imports body).inLoop).imp fun _ h => .of_fits rfl h
  | .forLoop start condition update body => by
    unfold analyzeStmtKind
    have walk := (ensures_analyzeStmtOption imports start).append fun _ =>
      (ensures_inferOption imports condition).bind fun _ => (ensures_inferOption imports update).bind
        fun _ => (ensures_analyzeTransparent imports body).inLoop
    exact walk.inScope.imp fun p h =>
      .of_fits rfl ⟨fitsIfAny_of_fitsAt (p := p.inner) rfl h.1, h.2⟩
  | .each item index iterable body => by
    unfold analyzeStmtKind
    have walked := (ensures_analyzeTransparent imports body).inLoop
    refine ((ensures_infer imports iterable).bind (Q := fun p => body.Fits imports p.site.loop)
      fun type => ?_).imp fun _ h => .of_fits rfl h
    cases index with
    | some index =>
      exact (ensures_declare.before fun _ => ensures_declare.before fun _ => walked).inScope
    | none => exact (ensures_declare.before fun _ => walked).inScope
  | .matchOn scrutinee arms => by
    unfold analyzeStmtKind
    exact ((ensures_infer imports scrutinee).bind fun type =>
      (ensures_analyzeArms imports false type arms).bind fun _ => .ret _).imp fun _ h =>
        .of_fits rfl ⟨h.1, h.2.1⟩
  | .returnWith none => by
    unfold analyzeStmtKind
    exact ensures_complete.imp fun _ _ => .of_fits rfl trivial
  | .returnWith (some value) => by
    unfold analyzeStmtKind
    exact ((ensures_infer imports value).bind fun _ => ensures_complete).imp fun _ h =>
      .of_fits rfl h.1
  | .breakLoop | .continueLoop => by
    unfold analyzeStmtKind
    exact ensures_requireLoop.imp fun _ h => .of_fits rfl h
  | .importFrom items source => by
    unfold analyzeStmtKind
    exact (ensures_requireModuleLevel.bind fun _ => ensures_declareAll).imp fun _ h =>
      ⟨fun _ => h.1, fun imports => imports rfl⟩
  | .exportNames _ => by
    unfold analyzeStmtKind
    exact ensures_requireModuleLevel.imp fun _ _ => .of_fits rfl trivial
  | .namespaceBlock name ⟨statements, _⟩ => by
    unfold analyzeStmtKind
    refine (ensures_declare.before (Q := fun p => Stmt.FitAll imports p.site statements)
      fun _ => ?_).imp fun _ h => .of_fits rfl h
    have walked := (ensures_blockType (ensures_analyzeEach imports statements)
      (ensures_analyzeBodies imports statements)).append fun _ => Ensures.ret ()
    refine Ensures.imp (Ensures.inScope (.andThen ensures_nameSpace fun _ => walked)) fun p h => ?_
    exact fitAll_of_fitsAt (p := p.inner) rfl h.1
  | .expression value _ => by
    unfold analyzeStmtKind
    exact ((ensures_infer imports value).bind fun _ => .ret _).imp fun _ h => .of_fits rfl h.1

theorem ensures_analyzeDeclarators (imports : Prop) (assignable : Bool) :
    ∀ declarators : List Declarator, Ensures (analyzeDeclarators assignable declarators)
      (declarators.flatMap (·.target.bindings)) fun p =>
        Declarator.FitAll imports p.site declarators
  | [] => by
    unfold analyzeDeclarators
    exact .ret _
  | ⟨target, none, position⟩ :: rest => by
    unfold analyzeDeclarators
    rw [List.flatMap_cons]
    exact (Ensures.append (P := fun _ => True) (ensures_declarePattern _ _) fun _ =>
      ensures_analyzeDeclarators imports assignable rest)
  | ⟨target, some value, position⟩ :: rest => by
    unfold analyzeDeclarators
    rw [List.flatMap_cons]
    split
    · refine (ensures_declare.before (Q := fun p => value.Fits imports p.site ∧
        Declarator.FitAll imports p.site rest) fun _ => ?_)
      exact (ensures_infer imports value).bind fun _ => .andThen ensures_retype fun _ =>
        ensures_analyzeDeclarators imports assignable rest
    · refine (ensures_infer imports value).bind fun _ => ?_
      exact (ensures_declarePattern _ _).before fun _ =>
        ensures_analyzeDeclarators imports assignable rest

end

end ScriptEngine.Analyzing

namespace ScriptEngine

namespace Analyzing.State

/-- The names of the root are there before the scope of the module. -/
theorem size_foldl_define (kind : SymbolKind) (names : List String) (t : ScopeTable) :
    (names.foldl (fun table name =>
      table.define ScopeTable.root ⟨name, kind, true, .unknown, .nowhere⟩) t).size = t.size := by
  induction names generalizing t with
  | nil => rfl
  | cons name names ih => exact (ih _).trans (ScopeTable.size_modify _)

/-- An analysis begins in the scope of a module that has declared the arguments. -/
theorem start_spec (bindings : List String) :
    (start bindings).HasModule ∧ (start bindings).names = [argsName] := by
  let root : ScopeTable := bindings.foldl (fun table name =>
    table.define ScopeTable.root ⟨name, .external, true, .unknown, .nowhere⟩)
      (builtinNames.foldl (fun table name =>
        table.define ScopeTable.root ⟨name, .builtin, true, .unknown, .nowhere⟩) .empty)
  have size : root.size = moduleScope :=
    (size_foldl_define .external bindings _).trans (size_foldl_define .builtin builtinNames _)
  have there : moduleScope < (root.push ScopeTable.root .module).2.size := by
    rw [ScopeTable.size_push, size]
    exact Nat.lt_succ_self _
  have noNames : (root.push ScopeTable.root .module).2.names moduleScope = [] :=
    ScopeTable.names_push_self size
  refine ⟨Nat.lt_of_lt_of_eq there (ScopeTable.size_modify _).symm, ?_⟩
  refine (ScopeTable.names_define there ?_).trans ?_
  · rw [noNames]
    exact List.not_mem_nil
  · rw [noNames]
    rfl

end Analyzing.State

open Analyzing in
/-- What an analysis that accepts a module has seen at its top level. -/
theorem Module.fitsAt_of_analyze {m : Module} {bindings : List String} {strict : Bool}
    {analysis : Analysis} (h : m.analyze bindings strict = .ok analysis) :
    (∀ (imports : Prop), ∀ s ∈ m.body.statements, FitsAt imports s ⟨.top, true⟩) ∧
      analysis.table.names analysis.moduleScope = m.body.declared ∧ m.body.declared.Nodup := by
  obtain ⟨name, ⟨statements, position⟩⟩ := m
  unfold Module.analyze at h
  cases walk : analyzeStatements statements ⟨name, strict⟩ (.start bindings) with
  | error e =>
    have run : ((analyzeStatements statements).run ⟨name, strict⟩).run
        (.start bindings) = .error e := walk
    simp only [Module.statements, run] at h
    cases h
  | ok result =>
    obtain ⟨type, s⟩ := result
    have ensured (imports : Prop) := ensures_blockType (ensures_analyzeEach imports statements)
      (ensures_analyzeBodies imports statements) _ _ _ _ walk
      (State.start_spec bindings).1
    have declares := (ensured True).2.1
    have names : s.names = argsName :: Stmt.allNames statements := by
      rw [declares.names, (State.start_spec bindings).2]
      rfl
    have run : ((analyzeStatements statements).run ⟨name, strict⟩).run
        (.start bindings) = .ok (type, s) := walk
    simp only [Module.statements, run] at h
    obtain rfl := Except.ok.inj h
    refine ⟨fun imports => (ensured imports).2.2, names, ?_⟩
    have distinct := declares.distinct
    rw [names, (State.start_spec bindings).2] at distinct
    exact distinct (List.nodup_cons.mpr ⟨List.not_mem_nil, .nil⟩)

open Analyzing in
/-- In a module that an analysis accepts, every `break` and `continue` stands in a loop of its body,
and every `this` and `base` in an entity. -/
theorem Module.suits_of_analyze {m : Module} {bindings : List String} {strict : Bool}
    {analysis : Analysis} (h : m.analyze bindings strict = .ok analysis) : m.body.Suits .top := by
  have fits := (fitsAt_of_analyze h).1 True
  obtain ⟨name, ⟨statements, position⟩⟩ := m
  have all : Stmt.FitAll True .top statements :=
    fitAll_of_fits fun s mem => (fits s mem).fits fun _ => trivial
  exact (Stmt.fitAll_iff_suitAll .top statements).mp all

/-- In a module that an analysis accepts, imports stand at the top level only, and no name is
declared there twice. -/
theorem Module.topLevel_of_analyze {m : Module} {bindings : List String} {strict : Bool}
    {analysis : Analysis} (h : m.analyze bindings strict = .ok analysis) : m.body.TopLevel where
  fits s mem := by
    have fits := (fitsAt_of_analyze h).1 False s mem
    cases isImport : s.isImport with
    | true => exact .inl rfl
    | false => exact .inr (fits.fits fun import' => by simp [isImport] at import')
  distinct := (fitsAt_of_analyze h).2.2

/-- What the top level of a module declares is what stands there. -/
theorem Module.declares_iff {m : Module} {bindings : List String} {strict : Bool}
    {analysis : Analysis} (h : m.analyze bindings strict = .ok analysis) {name : String} :
    analysis.declares name = true ↔ name ∈ m.body.declared := by
  rw [← (fitsAt_of_analyze h).2.1, Analysis.declares, ScopeTable.names]
  cases analysis.table.scope? analysis.moduleScope with
  | none => simp
  | some scope => exact Scope.get?_isSome_iff

end ScriptEngine
