import ScriptEngine.Proofs.Analysis.Balance
import ScriptEngine.Proofs.Analysis.Start
import ScriptEngine.Proofs.Tree.Scopes

/-!
# How many scopes an analysis opens

Scopes are never given back: the table of an analysis has as many as were opened. A walk over a tree
opens those of every form each time that it comes there, and it comes twice to the place of a compound
assignment: once for the type of what is there, and once to check that it can be written.

* `Opens`: the steps that open a number of scopes when they succeed.
* `Opens.append`, `Opens.inScope` and the others: one rule for each way to put steps together.
* `opens_infer`, `opens_analyzeStmt` and the others: one statement for each function of the walk.
* `Module.scopes_of_analyze`: how many scopes a module has that is accepted.
-/

namespace ScriptEngine.Analyzing

/-- Whenever a step succeeds it has opened this many scopes. -/
def Opens {α : Type} (x : Analyzer α) (n : Nat) : Prop :=
  ∀ setting s a s', x setting s = .ok (a, s') → s'.table.size = s.table.size + n

namespace Opens

variable {α β : Type} {x y : Analyzer α} {f : α → Analyzer β} {n n' : Nat}

/-- Steps one after another. -/
theorem append (h : Opens x n) (h' : ∀ a, Opens (f a) n') : Opens (x >>= f) (n + n') := by
  intro setting s b s'' run
  obtain ⟨a, s', first, second⟩ := bind_eq_ok run
  rw [h' a setting s' b s'' second, h setting s a s' first, Nat.add_assoc]

/-- A step that opens nothing, before others. -/
theorem andThen (h : Opens x 0) (h' : ∀ a, Opens (f a) n) : Opens (x >>= f) n :=
  Nat.zero_add n ▸ h.append h'

/-- A step before one that opens nothing. -/
theorem before (h : Opens x n) (h' : ∀ a, Opens (f a) 0) : Opens (x >>= f) n :=
  h.append h'

theorem ret (a : α) : Opens (pure a : Analyzer α) 0 := by
  intro setting s b s' run
  cases run
  rfl

theorem getState : Opens (get : Analyzer State) 0 := by
  intro setting s b s' run
  cases run
  rfl

theorem readSetting : Opens (read : Analyzer Setting) 0 := by
  intro setting s b s' run
  cases run
  rfl

/-- A change of the state, in which the number of scopes is the same. -/
theorem modifyState {g : State → State} (size : ∀ s, (g s).table.size = s.table.size) :
    Opens (modify g : Analyzer Unit) 0 := by
  intro setting s b s' run
  cases run
  exact size s

theorem failing (fault : SemanticFault) (position : Position) :
    Opens (fail fault position : Analyzer α) n := by
  intro setting s b s' run
  cases run

theorem ite {c : Prop} [Decidable c] (h : Opens x n) (h' : Opens y n) :
    Opens (if c then x else y) n := by
  split
  · exact h
  · exact h'

theorem visit {f : α → Analyzer Unit} (h : ∀ a, Opens (f a) 0) (items : List α) :
    Opens (items.forM f) 0 := by
  induction items with
  | nil => exact ret ()
  | cons item items ih => exact (h item).andThen fun _ => ih

/-! ### Surroundings -/

theorem inScope {kind : ScopeKind} (h : Opens x n) : Opens (Analyzing.inScope kind x) (n + 1) := by
  intro setting s b s' run
  obtain ⟨inner, work, rfl⟩ := inScope_eq_ok run
  have size := h _ _ _ _ work
  rw [State.inner, ScopeTable.size_push] at size
  exact size.trans (Nat.add_right_comm ..)

theorem inEntity (h : Opens x n) : Opens (Analyzing.inEntity x) (n + 1) :=
  .andThen (.modifyState fun _ => rfl) fun _ =>
    h.inScope.before fun _ => .andThen (.modifyState fun _ => rfl) fun _ => .ret _

theorem inLoop (h : Opens x n) : Opens (Analyzing.inLoop x) n :=
  .andThen (.modifyState fun _ => rfl) fun _ =>
    h.before fun _ => .andThen (.modifyState fun _ => rfl) fun _ => .ret _

theorem outsideLoops (h : Opens x n) : Opens (Analyzing.outsideLoops x) n :=
  .andThen .getState fun _ => .andThen (.modifyState fun _ => rfl) fun _ =>
    h.before fun _ => .andThen (.modifyState fun _ => rfl) fun _ => .ret _

theorem inBoundary (h : Opens x n) : Opens (Analyzing.inBoundary x) n :=
  .andThen (.modifyState fun _ => rfl) fun _ => h.before fun _ =>
    .andThen .getState fun _ => .andThen (.modifyState fun _ => rfl) fun _ => .ret _

end Opens

/-! ## Plain steps -/

theorem opens_warn {warning : Warning} {position : Position} : Opens (warn warning position) 0 :=
  .modifyState fun _ => rfl

theorem opens_recordType {id : Nat} {type : TypeExpr} : Opens (recordType id type) 0 :=
  .modifyState fun _ => rfl

theorem opens_recordMeaning {id : Nat} {ref : SymbolRef} : Opens (recordMeaning id ref) 0 :=
  .modifyState fun _ => rfl

theorem opens_meetWrite {name : String} {scope : ScopeId} {inside : Bool} :
    Opens (meetWrite name scope inside) 0 :=
  .modifyState fun _ => rfl

theorem opens_nameSpace {name : String} : Opens (nameSpace name) 0 :=
  .modifyState fun _ => rfl

theorem opens_retype {name : String} {f : TypeExpr → TypeExpr} : Opens (retype name f) 0 :=
  .modifyState fun _ => ScopeTable.size_retype

theorem opens_complete {type : TypeExpr} : Opens (complete type) 0 := by
  refine .modifyState fun s => ?_
  split <;> rfl

theorem opens_declare {name : String} {kind : SymbolKind} {assignable : Bool} {type : TypeExpr}
    {position : Position} : Opens (declare name kind assignable type position) 0 := by
  intro setting s b s' run
  obtain ⟨_, _, first, run⟩ := bind_eq_ok run
  cases first
  cases declared : s.table.declare s.current ⟨name, kind, assignable, type, position⟩ with
  | ok table =>
    rw [declared] at run
    cases run
    exact (ScopeTable.names_declare declared).1
  | error old =>
    rw [declared] at run
    cases run

mutual

theorem opens_declarePattern {assignable : Bool} {position : Position} :
    ∀ (pattern : Pattern) (type : TypeExpr),
      Opens (declarePattern assignable position pattern type) 0
  | .bind _, _ => by
    unfold declarePattern
    exact opens_declare
  | .tuple items, _ | .array items, _ => by
    unfold declarePattern
    exact opens_declarePatterns items _
  | .wildcard, _ | .rest, _ | .literal _, _ => by
    unfold declarePattern
    exact .ret ()

theorem opens_declarePatterns {assignable : Bool} {position : Position} :
    ∀ (items : List Pattern) (types : List TypeExpr),
      Opens (declarePatterns assignable position items types) 0
  | [], _ => by
    unfold declarePatterns
    exact .ret ()
  | item :: items, types => by
    unfold declarePatterns
    exact (opens_declarePattern item _).andThen fun _ => opens_declarePatterns items _

end

theorem opens_declareFunctions {statements : List Stmt} : Opens (declareFunctions statements) 0 := by
  refine .visit (fun s => ?_) statements
  split
  · exact opens_declare
  · exact .ret ()

theorem opens_requireModuleLevel {word : String} {position : Position} :
    Opens (requireModuleLevel word position) 0 :=
  .andThen .getState fun _ => .ite (.failing _ _) (.ret ())

theorem opens_requireLoop {word : String} {position : Position} :
    Opens (requireLoop word position) 0 :=
  .andThen .getState fun _ => .ite (.failing _ _) (.ret ())

theorem opens_requireEntity {fault : SemanticFault} {position : Position} :
    Opens (requireEntity fault position) 0 :=
  .andThen .getState fun _ => .ite (.failing _ _) (.ret ())

theorem opens_readName {id : Nat} {position : Position} {name : String} :
    Opens (readName id position name) 0 := by
  refine .andThen .getState fun s => .andThen (.modifyState fun _ => rfl) fun _ => ?_
  split
  · exact .andThen opens_recordMeaning fun _ => .ret _
  · refine .ite (.andThen opens_recordMeaning fun _ => .ret _) ?_
    refine .andThen .readSetting fun setting => ?_
    have supplied : Opens (supply name position) 0 :=
      .modifyState fun _ => ScopeTable.size_modify _
    refine .ite (.andThen (.failing _ _) fun _ => ?_) ?_
    all_goals exact .andThen opens_warn fun _ => .andThen supplied fun _ =>
      .andThen opens_recordMeaning fun _ => .ret _

theorem opens_writeName {id : Nat} {position : Position} {name : String} {value : TypeExpr} :
    Opens (writeName id position name value) 0 := by
  refine .andThen .getState fun s => .andThen (.modifyState fun _ => rfl) fun _ => ?_
  split
  · refine .ite ?_ (.ite opens_recordType (.failing _ _))
    exact .andThen opens_recordMeaning fun _ => .andThen opens_retype fun _ =>
      .andThen opens_recordType fun _ => opens_meetWrite
  · exact .ite opens_recordType (.failing _ _)

theorem opens_checkPatternNames {pattern : Pattern} {position : Position} :
    Opens (checkPatternNames pattern position) 0 := by
  refine .visit (fun name => .andThen .getState fun s => ?_) _
  split
  · exact .ite opens_meetWrite (.ite (.failing _ _) (.ret ()))
  · exact .ite (.failing _ _) (.ret ())

theorem opens_binaryType {op : BinaryOp} {left right : TypeExpr} {position : Position} :
    Opens (binaryType op left right position) 0 := by
  unfold binaryType
  split
  iterate 8 exact .ret _
  exact .ite (.ret _) (.ite (.ret _) (.ite (.ite (.ret _) (.ret _))
    (.andThen opens_warn fun _ => .ret _)))

theorem opens_unaryType {op : UnaryOp} {type : TypeExpr} {position : Position} :
    Opens (unaryType op type position) 0 :=
  .ite (.ret _) (.ite (.ret _) (.andThen opens_warn fun _ => .ret _))

theorem opens_callType {callee : TypeExpr} {count : Nat} {position : Position} :
    Opens (callType callee count position) 0 := by
  unfold callType
  split
  · exact .ret _
  · exact .andThen opens_warn fun _ => .ret _

theorem opens_branchType {left right : TypeExpr} {position : Position} :
    Opens (branchType left right position) 0 := by
  unfold branchType
  split
  · exact .ret _
  · exact .andThen opens_warn fun _ => .ret _

theorem opens_scopedType {space : Expr} {name : String} : Opens (scopedType space name) 0 := by
  refine .andThen .getState fun s => ?_
  split <;> exact .ret _

/-! ## The walk -/

/-- A walk over a block opens the scopes of its statements and its functions. -/
theorem opens_blockType {statements : List Stmt} {each : Analyzer TypeExpr}
    {bodies : Analyzer Unit}
    (h : Opens each (Stmt.allPlainScopes 2 statements))
    (h' : Opens bodies (Stmt.allFunctionScopes 2 statements)) :
    Opens (blockType statements each bodies) (Stmt.allScopes 2 statements) := by
  rw [Stmt.allScopes_eq]
  exact .andThen opens_declareFunctions fun _ => h.append fun _ => h'.before fun _ => .ret _

/-- The place of a compound assignment is walked over twice. -/
theorem opens_assign {id : Nat} {position : Position} {op : AssignOp} {place value : Expr}
    (h : Opens (infer value) (value.scopes 2)) (h' : Opens (infer place) (place.scopes 2))
    (h'' : ∀ type, Opens (checkPlace type place) (place.scopes 2)) :
    Opens (inferKind id position (.assign op (.place place) value))
      ((ExprKind.assign op (.place place) value).scopes 2) := by
  unfold inferKind ExprKind.scopes AssignTarget.scopes AssignOp.rounds
  refine h.append fun type => ?_
  cases op.binary? with
  | none =>
    rw [if_neg (by decide), Nat.one_mul]
    exact (h'' type).before fun _ => .ret _
  | some binary =>
    rw [if_pos (by rfl), Nat.two_mul]
    exact h'.append fun current => .andThen opens_binaryType fun stored =>
      (h'' stored).before fun _ => .ret _

mutual

theorem opens_infer : ∀ e : Expr, Opens (infer e) (e.scopes 2)
  | ⟨id, position, kind⟩ => by
    unfold infer
    exact (opens_inferKind id position kind).before fun _ => .andThen opens_recordType fun _ => .ret _

theorem opens_inferKind (id : Nat) (position : Position) :
    ∀ kind : ExprKind, Opens (inferKind id position kind) (kind.scopes 2)
  | .literal _ | .external _ => by
    unfold inferKind
    exact .ret _
  | .name _ => by
    unfold inferKind
    exact opens_readName
  | .this | .base => by
    unfold inferKind
    exact .andThen opens_requireEntity fun _ => .ret _
  | .scoped space _ => by
    unfold inferKind
    exact (opens_infer space).before fun _ => opens_scopedType
  | .array items | .tuple items => by
    unfold inferKind
    exact (opens_inferAll items).before fun _ => .ret _
  | .map entries => by
    unfold inferKind
    exact (opens_inferEntries entries).before fun _ => .ret _
  | .entity members | .construct _ members => by
    unfold inferKind
    exact (opens_inferMembers members).inEntity.before fun _ => .ret _
  | .extend base members => by
    unfold inferKind
    exact (opens_infer base).append fun _ =>
      (opens_inferMembers members).inEntity.before fun _ => .ret _
  | .unary _ operand => by
    unfold inferKind
    exact (opens_infer operand).before fun _ => opens_unaryType
  | .binary _ left right => by
    unfold inferKind
    exact (opens_infer left).append fun _ => (opens_infer right).before fun _ => opens_binaryType
  | .typeTest value _ => by
    unfold inferKind
    exact (opens_infer value).before fun _ => .ret _
  | .update _ _ target => by
    unfold inferKind
    exact (opens_checkPlace .number target).before fun _ => .ret _
  | .assign _ (.place place) value =>
    opens_assign (opens_infer value) (opens_infer place) fun type => opens_checkPlace type place
  | .assign _ (.pattern pattern) value => by
    unfold inferKind
    exact (opens_infer value).before fun _ => .andThen opens_checkPatternNames fun _ => .ret _
  | .conditional condition thenBranch elseBranch => by
    unfold inferKind
    exact (opens_infer condition).append fun _ => (opens_infer thenBranch).append fun _ =>
      (opens_infer elseBranch).before fun _ => opens_branchType
  | .pipe value function => by
    unfold inferKind
    exact (opens_infer value).append fun _ => (opens_infer function).before fun _ => opens_callType
  | .call callee args => by
    unfold inferKind
    exact (opens_infer callee).append fun _ => (opens_inferAll args).before fun _ => opens_callType
  | .member object _ | .tupleIndex object _ => by
    unfold inferKind
    exact (opens_infer object).before fun _ => .ret _
  | .index object index => by
    unfold inferKind
    exact (opens_infer object).append fun _ => (opens_infer index).before fun _ => .ret _
  | .function definition => by
    unfold inferKind
    exact opens_analyzeFunction definition
  | .block body => by
    unfold inferKind
    exact opens_analyzeBoundary body
  | .async body | .safe body => by
    unfold inferKind
    exact (opens_analyzeBoundary body).outsideLoops.before fun _ => .ret _
  | .lock key body => by
    unfold inferKind
    exact (opens_inferOption key).append fun _ => (opens_analyzeBoundary body).outsideLoops
  | .matchOn scrutinee arms => by
    unfold inferKind
    exact (opens_infer scrutinee).append fun type =>
      (opens_analyzeArms true type arms).before fun _ => .ret _

theorem opens_inferAll : ∀ items : List Expr, Opens (inferAll items) (Expr.allScopes 2 items)
  | [] => by
    unfold inferAll
    exact .ret _
  | item :: items => by
    unfold inferAll
    exact (opens_infer item).append fun _ => (opens_inferAll items).before fun _ => .ret _

theorem opens_inferOption :
    ∀ value : Option Expr, Opens (inferOption value) (Expr.scopesIfAny 2 value)
  | none => by
    unfold inferOption
    exact .ret _
  | some value => by
    unfold inferOption
    exact (opens_infer value).before fun _ => .ret _

theorem opens_inferEntries : ∀ entries : List (Expr × Expr),
    Opens (inferEntries entries) (Expr.entryScopes 2 entries)
  | [] => by
    unfold inferEntries
    exact .ret _
  | (key, value) :: entries => by
    unfold inferEntries
    exact (opens_infer key).append fun _ => (opens_infer value).append fun _ =>
      (opens_inferEntries entries).before fun _ => .ret _

theorem opens_inferMembers : ∀ members : List MemberInit,
    Opens (inferMembers members) (MemberInit.allScopes 2 members)
  | [] => by
    unfold inferMembers
    exact .ret _
  | ⟨_, value, _⟩ :: members => by
    unfold inferMembers
    exact (opens_infer value).append fun _ => .andThen opens_declare fun _ =>
      (opens_inferMembers members).before fun _ => .ret _

theorem opens_checkPlace (value : TypeExpr) :
    ∀ place : Expr, Opens (checkPlace value place) (place.scopes 2)
  | ⟨id, position, kind⟩ => by
    have walk := opens_inferKind id position kind
    cases kind with
    | name name =>
      unfold checkPlace
      exact opens_writeName
    | _ =>
      unfold checkPlace
      exact walk.before fun _ => opens_recordType

theorem opens_analyzeFunction : ∀ definition : FunctionDef,
    Opens (analyzeFunction definition) (definition.scopes 2)
  | ⟨_, params, body, _⟩ => by
    unfold analyzeFunction
    exact (Opens.andThen (.visit (fun _ => opens_declare) params) fun _ =>
      opens_analyzeFunctionBody body).inScope.outsideLoops.before fun _ => .ret _

theorem opens_analyzeFunctionBody :
    ∀ body : Body, Opens (analyzeFunctionBody body) (body.scopes 2)
  | .block body => by
    unfold analyzeFunctionBody
    exact opens_analyzeBoundary body
  | .expr value => by
    unfold analyzeFunctionBody
    exact (opens_infer value).inBoundary.before fun _ => .ret _

theorem opens_analyzeArms (expression : Bool) (scrutinee : TypeExpr) :
    ∀ arms : List Arm, Opens (analyzeArms expression scrutinee arms) (Arm.allScopes 2 arms)
  | [] => by
    unfold analyzeArms
    exact .ret _
  | ⟨pattern, guard, body, _⟩ :: arms => by
    unfold analyzeArms
    exact (Opens.andThen (opens_declarePattern pattern scrutinee) fun _ =>
      (opens_inferOption guard).append fun _ => opens_analyzeArmBody expression body).inScope.append
        fun _ => (opens_analyzeArms expression scrutinee arms).before fun _ => .ret _

theorem opens_analyzeArmBody (expression : Bool) :
    ∀ body : Body, Opens (analyzeArmBody expression body) (body.scopes 2)
  | .block body => by
    unfold analyzeArmBody
    exact .ite (opens_analyzeBoundary body)
      ((opens_analyzeTransparent body).before fun _ => .ret _)
  | .expr value => by
    unfold analyzeArmBody
    refine (opens_infer value).before fun type => .ite (.ret _) ?_
    exact .ite (.andThen opens_complete fun _ => .ret _) (.ret _)

theorem opens_analyzeTransparent :
    ∀ body : Block, Opens (analyzeTransparent body) (body.scopes 2)
  | ⟨statements, _⟩ => by
    unfold analyzeTransparent
    exact (opens_blockType (opens_analyzeEach statements)
      (opens_analyzeBodies statements)).inScope.before fun _ => .ite opens_complete (.ret _)

theorem opens_analyzeBoundary : ∀ body : Block, Opens (analyzeBoundary body) (body.scopes 2)
  | ⟨statements, _⟩ => by
    unfold analyzeBoundary
    exact (opens_blockType (opens_analyzeEach statements)
      (opens_analyzeBodies statements)).inScope.inBoundary.before fun _ => .ret _

theorem opens_analyzeEach : ∀ statements : List Stmt,
    Opens (analyzeEach statements) (Stmt.allPlainScopes 2 statements)
  | [] => by
    unfold analyzeEach
    exact .ret _
  | ⟨position, kind⟩ :: rest => by
    have walk := opens_analyzeStmt ⟨position, kind⟩
    have later := opens_analyzeEach rest
    rw [Stmt.allPlainScopes]
    cases kind with
    | function definition =>
      unfold analyzeEach
      exact (Nat.zero_add _).symm ▸ later
    | expression value terminated =>
      unfold analyzeEach
      exact (opens_infer value).append fun _ => later.before fun _ => .ret _
    | _ =>
      unfold analyzeEach
      exact walk.append fun _ => later

theorem opens_analyzeBodies : ∀ statements : List Stmt,
    Opens (analyzeBodies statements) (Stmt.allFunctionScopes 2 statements)
  | [] => by
    unfold analyzeBodies
    exact .ret _
  | ⟨position, kind⟩ :: rest => by
    have later := opens_analyzeBodies rest
    rw [Stmt.allFunctionScopes]
    cases kind with
    | function definition =>
      unfold analyzeBodies
      refine (opens_analyzeFunction definition).append fun type => ?_
      split
      · exact .andThen opens_retype fun _ => later
      · exact later
    | _ =>
      unfold analyzeBodies
      exact (Nat.zero_add _).symm ▸ later

theorem opens_analyzeStmtOption :
    ∀ statement : Option Stmt, Opens (analyzeStmtOption statement) (Stmt.scopesIfAny 2 statement)
  | none => by
    unfold analyzeStmtOption
    exact .ret _
  | some statement => by
    unfold analyzeStmtOption
    exact opens_analyzeStmt statement

theorem opens_analyzeTransparentOption :
    ∀ body : Option Block, Opens (analyzeTransparentOption body) (Block.scopesIfAny 2 body)
  | none => by
    unfold analyzeTransparentOption
    exact .ret _
  | some body => by
    unfold analyzeTransparentOption
    exact opens_analyzeTransparent body

theorem opens_analyzeStmt : ∀ statement : Stmt, Opens (analyzeStmt statement) (statement.scopes 2)
  | ⟨position, kind⟩ => by
    unfold analyzeStmt
    exact opens_analyzeStmtKind position kind

theorem opens_analyzeStmtKind (position : Position) :
    ∀ kind : StmtKind, Opens (analyzeStmtKind position kind) (kind.scopes 2)
  | .declare word declarators => by
    unfold analyzeStmtKind
    exact opens_analyzeDeclarators _ declarators
  | .function definition => by
    unfold analyzeStmtKind
    exact (opens_analyzeFunction definition).before fun _ => .ret _
  | .branch condition thenBranch elseBranch => by
    unfold analyzeStmtKind
    exact (opens_infer condition).append fun _ => (opens_analyzeTransparent thenBranch).append
      fun _ => opens_analyzeTransparentOption elseBranch
  | .whileLoop condition body | .doWhile body condition => by
    unfold analyzeStmtKind
    exact (opens_infer condition).append fun _ => (opens_analyzeTransparent body).inLoop
  | .forLoop start condition update body => by
    unfold analyzeStmtKind
    exact ((opens_analyzeStmtOption start).append fun _ => (opens_inferOption condition).append
      fun _ => (opens_inferOption update).append fun _ =>
        (opens_analyzeTransparent body).inLoop).inScope
  | .each item index iterable body => by
    unfold analyzeStmtKind
    refine (opens_infer iterable).append fun type =>
      (Opens.andThen opens_declare fun _ => ?_).inScope
    have walk := (opens_analyzeTransparent body).inLoop
    cases index with
    | some index => exact .andThen opens_declare fun _ => walk
    | none => exact walk
  | .matchOn scrutinee arms => by
    unfold analyzeStmtKind
    exact (opens_infer scrutinee).append fun type =>
      (opens_analyzeArms false type arms).before fun _ => .ret _
  | .returnWith none => by
    unfold analyzeStmtKind
    exact opens_complete
  | .returnWith (some value) => by
    unfold analyzeStmtKind
    exact (opens_infer value).before fun _ => opens_complete
  | .breakLoop | .continueLoop => by
    unfold analyzeStmtKind
    exact opens_requireLoop
  | .importFrom items _ => by
    unfold analyzeStmtKind
    exact .andThen opens_requireModuleLevel fun _ => .visit (fun _ => opens_declare) items
  | .exportNames _ => by
    unfold analyzeStmtKind
    exact opens_requireModuleLevel
  | .namespaceBlock _ ⟨statements, _⟩ => by
    unfold analyzeStmtKind
    refine .andThen opens_declare fun _ => Opens.inScope (n := Stmt.allScopes 2 statements) ?_
    refine .andThen opens_nameSpace fun _ => ?_
    exact (opens_blockType (opens_analyzeEach statements)
      (opens_analyzeBodies statements)).before fun _ => .ret _
  | .expression value _ => by
    unfold analyzeStmtKind
    exact (opens_infer value).before fun _ => .ret _

theorem opens_analyzeDeclarators (assignable : Bool) : ∀ declarators : List Declarator,
    Opens (analyzeDeclarators assignable declarators) (Declarator.allScopes 2 declarators)
  | [] => by
    unfold analyzeDeclarators
    exact .ret _
  | ⟨target, none, _⟩ :: rest => by
    have later := opens_analyzeDeclarators assignable rest
    unfold analyzeDeclarators
    rw [Declarator.allScopes, Expr.scopesIfAny, Nat.zero_add]
    exact .andThen (opens_declarePattern _ _) fun _ => later
  | ⟨target, some value, _⟩ :: rest => by
    have later := opens_analyzeDeclarators assignable rest
    unfold analyzeDeclarators
    split
    · exact .andThen opens_declare fun _ => (opens_infer value).append fun _ =>
        .andThen opens_retype fun _ => later
    · exact (opens_infer value).append fun _ => .andThen (opens_declarePattern _ _) fun _ => later

end

end ScriptEngine.Analyzing

namespace ScriptEngine.Module

open Analyzing

/-- A module that is accepted has the root, its own scope and those of the forms in its tree, which are
those of a single walk exactly if no compound assignment writes to a place that has scopes. -/
theorem scopes_of_analyze {m : Module} {bindings : List String} {strict : Bool} {a : Analysis}
    (analysed : m.analyze bindings strict = .ok a) :
    a.table.size = 2 + m.scopes 2 ∧
      (a.table.size = 2 + m.scopes 1 ↔ ∀ e ∈ m.exprs, e.WritesPlainly) := by
  rw [analyze_eq] at analysed
  cases walk : analyzeStatements m.statements ⟨m.name, strict⟩ (.start bindings) with
  | error e => rw [walk] at analysed; cases analysed
  | ok result =>
    obtain ⟨type, s⟩ := result
    rw [walk] at analysed
    cases analysed
    have opened := opens_blockType (opens_analyzeEach _) (opens_analyzeBodies _) _ _ _ _ walk
    have size : s.table.size = 2 + m.scopes 2 := by
      rw [opened, State.start_size]
      rfl
    refine ⟨size, ?_⟩
    rw [← m.scopes_two_eq_iff]
    exact size ▸ Nat.add_left_cancel_iff

/-- The text `var a = [1]; a[…] += …;` with an index and a value. -/
def compoundSample (index value : ExprKind) : Module :=
  ⟨"main", ⟨[
    ⟨.nowhere, .declare .varWord [⟨.bind "a", some ⟨1, .nowhere, .array
      [⟨0, .nowhere, .literal (.number 1)⟩]⟩, .nowhere⟩]⟩,
    ⟨.nowhere, .expression ⟨6, .nowhere, .assign .add
      (.place ⟨4, .nowhere, .index ⟨2, .nowhere, .name "a"⟩ ⟨3, .nowhere, index⟩⟩)
      ⟨5, .nowhere, value⟩⟩ true⟩], .nowhere⟩⟩

/-- The block `{}`. -/
def emptyBlock : ExprKind := .block ⟨[], .nowhere⟩

theorem scopes_of_compoundSample : ∃ a,
    (compoundSample (.literal .null) emptyBlock).analyze [] true = .ok a ∧ a.table.size = 3 := by
  cases analysed : (compoundSample (.literal .null) emptyBlock).analyze [] true with
  | error e =>
    have accepted : ((compoundSample (.literal .null) emptyBlock).analyze [] true).toBool = true := by
      decide +kernel
    rw [analysed] at accepted
    cases accepted
  | ok a => exact ⟨a, rfl, (scopes_of_analyze analysed).1⟩

/-- The block in the place is walked over twice, which makes a scope more than the forms have. -/
theorem more_scopes_of_compoundSample :
    ((compoundSample emptyBlock (.literal .null)).analyze [] true).toOption.map (·.table.size) =
      some 4 ∧ 2 + (compoundSample emptyBlock (.literal .null)).scopes 1 = 3 := by
  decide +kernel

end ScriptEngine.Module
