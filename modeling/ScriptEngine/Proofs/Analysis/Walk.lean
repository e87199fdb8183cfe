import ScriptEngine.Analysis.Infer
import ScriptEngine.Proofs.Tree.Parts

/-!
# The walk of an analysis

What is true of two analyses side by side, and of the parts of a tree that both walk over, follows
from what is true of single steps. The two may know different things of the same names; then they
infer different types.

* `Judgement`: what may be said of two steps side by side and of some parts.
* `Judgement.Lawful`: what it takes for it to be true of a whole walk.
* `Judgement.Lawful.infer`, `Judgement.Lawful.analyzeStmt` and the others: one statement for each
  function of the walk.
-/

namespace ScriptEngine.Analyzing

/-- What may be said of two steps of analyses side by side, which walk over some parts of a tree. -/
structure Judgement where
  /-- The two come to the same results. -/
  alike : Prop
  /-- What is said of two steps and of the parts that they walk over. -/
  holds : {α : Type} → Analyzer α → Analyzer α → List Part → Prop
  /-- What is said of two steps that are taken in the scope of an entity itself. -/
  inside : {α : Type} → Analyzer α → Analyzer α → List Part → Prop

/-- A step that comes to one result and adds some warnings, whatever is known. None of them is about a
name that nothing declares. -/
structure Remarks {α : Type} (x : Analyzer α) (a : α) (remarks : Array Diagnostic) : Prop where
  run : ∀ setting s, x setting s = .ok (a, { s with warnings := s.warnings ++ remarks })
  declared : ∀ remark ∈ remarks, ∀ name, remark.warning ≠ .undeclared name

/-- A step that only lets through where the current scope and the numbers of open entities and loops
are right, whatever the setting is. -/
def Checks (x : Analyzer Unit) : Prop :=
  ∀ setting s s', x setting s = .ok ((), s') → s' = s ∧
    ∀ (setting' : Setting) (t : State), t.current = s.current → t.entityDepth = s.entityDepth →
      t.loopDepth = s.loopDepth → x setting' t = .ok ((), t)

/-- What it takes for a judgement to be true of a whole walk. -/
structure Judgement.Lawful (J : Judgement) : Prop where
  ret : ∀ {α : Type} {a a' : α}, (J.alike → a = a') → J.holds (pure a) (pure a') []
  bind : ∀ {α β : Type} {x x' : Analyzer α} {f f' : α → Analyzer β} {ps qs : List Part},
    J.holds x x' ps → (∀ a a', (J.alike → a = a') → J.holds (f a) (f' a') qs) →
      J.holds (x >>= f) (x' >>= f') (ps ++ qs)
  /-- The order of the parts does not matter, nor how often they are walked over. -/
  parts : ∀ {α : Type} {x x' : Analyzer α} {ps qs : List Part}, (∀ p, p ∈ ps ↔ p ∈ qs) →
    J.holds x x' ps → J.holds x x' qs
  /-- The value of a place that is written may be used, too. -/
  again : ∀ {α : Type} {x x' : Analyzer α} {e : Expr} {ps : List Part}, .place e ∈ ps →
    J.holds x x' (.value e :: ps) → J.holds x x' ps
  remark : ∀ {α : Type} {x x' : Analyzer α}, (∃ a remarks, Remarks x a remarks) →
    (∃ a remarks, Remarks x' a remarks) → (J.alike → x = x') → J.holds x x' []
  check : ∀ {x : Analyzer Unit}, Checks x → J.holds x x []
  scopedType : ∀ (space : Expr) (name : String), J.holds (scopedType space name)
    (scopedType space name) []
  nameSpace : ∀ name : String, J.holds (nameSpace name) (nameSpace name) []
  complete : ∀ {type type' : TypeExpr}, (J.alike → type = type') →
    J.holds (complete type) (complete type') []
  retype : ∀ (name : String) {f f' : TypeExpr → TypeExpr}, (J.alike → f = f') →
    J.holds (retype name f) (retype name f') []
  declare : ∀ (name : String) {kind kind' : SymbolKind} (assignable : Bool) {type type' : TypeExpr}
    (position : Position), kind ≠ .unknown → kind' ≠ .unknown → kind ≠ .member → kind' ≠ .member →
      (J.alike → kind = kind' ∧ type = type') →
        J.holds (declare name kind assignable type position)
          (declare name kind' assignable type' position) []
  /-- The type of a part that is no name is kept. -/
  keep : ∀ (part : Part) {e : Expr} {type type' : TypeExpr}, part.expr? = some e →
    (∀ name, e.kind ≠ .name name) → (J.alike → type = type') →
      J.holds (recordType e.id type) (recordType e.id type') [part]
  /-- A name is read. -/
  name : ∀ {e : Expr} {name : String}, e.kind = .name name → J.holds (infer e) (infer e) [.value e]
  /-- A name is written. -/
  write : ∀ {e : Expr} {name : String} {type type' : TypeExpr}, e.kind = .name name →
    (J.alike → type = type') → J.holds (writeName e.id e.position name type)
      (writeName e.id e.position name type') [.place e]
  /-- The names of a pattern are written. -/
  pattern : ∀ (p : Pattern) (position : Position), J.holds (checkPatternNames p position)
    (checkPatternNames p position) [.pattern p]
  /-- A scope that is not that of an entity. -/
  inScope : ∀ {α : Type} (kind : ScopeKind) {x x' : Analyzer α} {ps : List Part},
    kind ≠ .entity → J.holds x x' ps → J.holds (inScope kind x) (inScope kind x') ps
  /-- Every step may be taken in the scope of an entity. -/
  enter : ∀ {α : Type} {x x' : Analyzer α} {ps : List Part}, J.holds x x' ps → J.inside x x' ps
  insideBind : ∀ {α β : Type} {x x' : Analyzer α} {f f' : α → Analyzer β} {ps qs : List Part},
    J.inside x x' ps → (∀ a a', (J.alike → a = a') → J.inside (f a) (f' a') qs) →
      J.inside (x >>= f) (x' >>= f') (ps ++ qs)
  /-- A member is declared. -/
  member : ∀ (name : String) {type type' : TypeExpr} (position : Position),
    (J.alike → type = type') → J.inside (Analyzing.declare name .member true type position)
      (Analyzing.declare name .member true type' position) []
  inEntity : ∀ {α : Type} {x x' : Analyzer α} {ps : List Part},
    J.inside x x' ps → J.holds (inEntity x) (inEntity x') ps
  inLoop : ∀ {α : Type} {x x' : Analyzer α} {ps : List Part},
    J.holds x x' ps → J.holds (inLoop x) (inLoop x') ps
  outsideLoops : ∀ {α : Type} {x x' : Analyzer α} {ps : List Part},
    J.holds x x' ps → J.holds (outsideLoops x) (outsideLoops x') ps
  inBoundary : ∀ {α : Type} {x x' : Analyzer α} {ps : List Part},
    J.holds x x' ps → J.holds (inBoundary x) (inBoundary x') ps

/-! ## Remarks and checks -/

theorem remarks_pure {α : Type} (a : α) : Remarks (pure a) a #[] where
  run _ s := by
    show Except.ok (a, s) = _
    rw [Array.append_empty]
  declared remark mem := absurd mem (Array.not_mem_empty remark)

theorem remarks_warn {α : Type} {warning : Warning} (declared : ∀ name, warning ≠ .undeclared name)
    (position : Position) (a : α) :
    Remarks (do warn warning position; return a) a #[⟨warning, position⟩] where
  run _ _ := rfl
  declared remark mem := by
    obtain rfl : remark = ⟨warning, position⟩ := by simpa using mem
    exact declared

theorem exists_remarks_binaryType (op : BinaryOp) (left right : TypeExpr) (position : Position) :
    ∃ a remarks, Remarks (binaryType op left right position) a remarks := by
  unfold binaryType
  split
  iterate 8 exact ⟨_, _, remarks_pure _⟩
  split
  · exact ⟨_, _, remarks_pure _⟩
  · split
    · exact ⟨_, _, remarks_pure _⟩
    · split
      · split <;> exact ⟨_, _, remarks_pure _⟩
      · exact ⟨_, _, remarks_warn (fun _ => Warning.noConfusion) _ _⟩

theorem exists_remarks_unaryType (op : UnaryOp) (type : TypeExpr) (position : Position) :
    ∃ a remarks, Remarks (unaryType op type position) a remarks := by
  unfold unaryType
  split
  · exact ⟨_, _, remarks_pure _⟩
  · split
    · exact ⟨_, _, remarks_pure _⟩
    · exact ⟨_, _, remarks_warn (fun _ => Warning.noConfusion) _ _⟩

theorem exists_remarks_callType (callee : TypeExpr) (count : Nat) (position : Position) :
    ∃ a remarks, Remarks (callType callee count position) a remarks := by
  unfold callType
  split
  · exact ⟨_, _, remarks_pure _⟩
  · exact ⟨_, _, remarks_warn (fun _ => Warning.noConfusion) _ _⟩

theorem exists_remarks_branchType (left right : TypeExpr) (position : Position) :
    ∃ a remarks, Remarks (branchType left right position) a remarks := by
  unfold branchType
  split
  · exact ⟨_, _, remarks_pure _⟩
  · exact ⟨_, _, remarks_warn (fun _ => Warning.noConfusion) _ _⟩

/-- A condition on what is known, at whose failure a module is rejected. -/
theorem checks_of_condition (c : State → Bool) (fault : SemanticFault) (position : Position)
    (same : ∀ s t : State, t.current = s.current → t.entityDepth = s.entityDepth →
      t.loopDepth = s.loopDepth → c t = c s) :
    Checks (do if c (← get) then fail fault position) := by
  intro setting s s' run
  have passed (setting : Setting) (s : State) (clear : c s = false) :
      (do if c (← get) then fail fault position : Analyzer Unit) setting s = .ok ((), s) := by
    show (if c s = true then (fail fault position : Analyzer Unit) else pure ()) setting s = _
    rw [if_neg (by simp [clear])]
    rfl
  cases now : c s with
  | true =>
    have failed : (if c s = true then (fail fault position : Analyzer Unit) else pure ()) setting s =
        .ok ((), s') := run
    rw [if_pos now] at failed
    cases failed
  | false =>
    rw [passed setting s now] at run
    cases run
    exact ⟨rfl, fun setting' t current entities loops =>
      passed setting' t ((same s t current entities loops).trans now)⟩

theorem checks_requireModuleLevel (word : String) (position : Position) :
    Checks (requireModuleLevel word position) :=
  checks_of_condition (·.current != moduleScope) _ _ fun _ _ current _ _ => by rw [current]

theorem checks_requireEntity (fault : SemanticFault) (position : Position) :
    Checks (requireEntity fault position) :=
  checks_of_condition (·.entityDepth == 0) _ _ fun _ _ _ entities _ => by rw [entities]

theorem checks_requireLoop (word : String) (position : Position) :
    Checks (requireLoop word position) :=
  checks_of_condition (·.loopDepth == 0) _ _ fun _ _ _ _ loops => by rw [loops]

/-! ## Sequences -/

namespace Judgement.Lawful

variable {J : Judgement} {α β : Type} {x x' : Analyzer α} {f f' : α → Analyzer β}
  {ps qs : List Part}

/-- A step before others that walk over no parts. -/
theorem finish (law : J.Lawful) (h : J.holds x x' ps)
    (h' : ∀ a a', (J.alike → a = a') → J.holds (f a) (f' a') []) :
    J.holds (x >>= f) (x' >>= f') ps :=
  List.append_nil ps ▸ law.bind h h'

/-- A step that walks over no parts before others. -/
theorem before (law : J.Lawful) (h : J.holds x x' [])
    (h' : ∀ a a', (J.alike → a = a') → J.holds (f a) (f' a') qs) :
    J.holds (x >>= f) (x' >>= f') qs :=
  law.bind h h'

/-- Steps before a result. -/
theorem result (law : J.Lawful) {g g' : α → β} (h : J.holds x x' ps)
    (same : ∀ a a', (J.alike → a = a') → J.alike → g a = g' a') :
    J.holds (do return g (← x)) (do return g' (← x')) ps :=
  law.finish h fun a a' equal => law.ret (same a a' equal)

theorem forM {ι : Type} (law : J.Lawful) {f : ι → Analyzer Unit} (h : ∀ i, J.holds (f i) (f i) [])
    (items : List ι) : J.holds (items.forM f) (items.forM f) [] := by
  induction items with
  | nil => exact law.ret fun _ => rfl
  | cons item items ih => exact law.before (h item) fun _ _ _ => ih

end Judgement.Lawful

/-! ## Declarations -/

namespace Judgement.Lawful

variable {J : Judgement}

theorem declareAll {ι : Type} (law : J.Lawful) (name : ι → String) {kind : SymbolKind}
    (assignable : Bool) (type : TypeExpr) (position : Position) (known : kind ≠ .unknown)
    (plain : kind ≠ .member) (items : List ι) :
    J.holds (items.forM fun item => Analyzing.declare (name item) kind assignable type position)
      (items.forM fun item => Analyzing.declare (name item) kind assignable type position) [] :=
  law.forM (fun _ => law.declare _ _ _ known known plain plain fun _ => ⟨rfl, rfl⟩) items

theorem declareFunctions (law : J.Lawful) (statements : List Stmt) :
    J.holds (Analyzing.declareFunctions statements) (Analyzing.declareFunctions statements) [] := by
  refine law.forM (fun s => ?_) statements
  split
  · exact law.declare _ _ _ (by decide) (by decide) (by decide) (by decide) fun _ => ⟨rfl, rfl⟩
  · exact law.ret fun _ => rfl

mutual

theorem declarePattern (law : J.Lawful) (assignable : Bool) (position : Position) :
    ∀ (p : Pattern) {type type' : TypeExpr}, (J.alike → type = type') →
      J.holds (Analyzing.declarePattern assignable position p type)
        (Analyzing.declarePattern assignable position p type') []
  | .bind name, type, type', same => by
    unfold Analyzing.declarePattern
    refine law.declare _ _ _ ?_ ?_ ?_ ?_ fun alike => ?_
    · split <;> decide
    · split <;> decide
    · split <;> decide
    · split <;> decide
    · rw [same alike]
      exact ⟨rfl, rfl⟩
  | .tuple items, _, _, same | .array items, _, _, same => by
    unfold Analyzing.declarePattern
    exact law.declarePatterns assignable position items fun alike => by rw [same alike]
  | .wildcard, _, _, _ | .rest, _, _, _ | .literal _, _, _, _ => by
    unfold Analyzing.declarePattern
    exact law.ret fun _ => rfl

theorem declarePatterns (law : J.Lawful) (assignable : Bool) (position : Position) :
    ∀ (items : List Pattern) {types types' : List TypeExpr}, (J.alike → types = types') →
      J.holds (Analyzing.declarePatterns assignable position items types)
        (Analyzing.declarePatterns assignable position items types') []
  | [], _, _, _ => by
    unfold Analyzing.declarePatterns
    exact law.ret fun _ => rfl
  | item :: items, _, _, same => by
    unfold Analyzing.declarePatterns
    exact law.before (law.declarePattern assignable position item fun alike => by rw [same alike])
      fun _ _ _ => law.declarePatterns assignable position items fun alike => by rw [same alike]

end

/-! ## Parts of the walk -/

/-- An expression that is no name is walked over, and its type is kept. -/
theorem infer_of (law : J.Lawful) {id : Nat} {position : Position} {kind : ExprKind}
    (h : (∀ name, kind ≠ .name name) →
      J.holds (inferKind id position kind) (inferKind id position kind) kind.parts) :
    J.holds (infer ⟨id, position, kind⟩) (infer ⟨id, position, kind⟩)
      (Expr.parts ⟨id, position, kind⟩) := by
  by_cases named : ∃ name, kind = .name name
  · obtain ⟨name, rfl⟩ := named
    exact law.name rfl
  · have plain : ∀ name, kind ≠ .name name := fun name same => named ⟨name, same⟩
    unfold infer Expr.parts
    exact law.bind (h plain) fun type type' same => law.finish
      (law.keep (.value ⟨id, position, kind⟩) rfl plain same) fun _ _ _ => law.ret same

/-- A place that is no name is walked over, and its type is kept. -/
theorem checkPlace_of (law : J.Lawful) {type type' : TypeExpr} (same : J.alike → type = type')
    {id : Nat} {position : Position} {kind : ExprKind}
    (h : (∀ name, kind ≠ .name name) →
      J.holds (inferKind id position kind) (inferKind id position kind) kind.parts) :
    J.holds (checkPlace type ⟨id, position, kind⟩) (checkPlace type' ⟨id, position, kind⟩)
      (Expr.placeParts ⟨id, position, kind⟩) := by
  by_cases named : ∃ name, kind = .name name
  · obtain ⟨name, rfl⟩ := named
    unfold checkPlace
    exact law.write (e := ⟨id, position, .name name⟩) rfl same
  · have plain : ∀ name, kind ≠ .name name := fun name same => named ⟨name, same⟩
    have unfolded (type : TypeExpr) : checkPlace type ⟨id, position, kind⟩ = (do
        let type ← inferKind id position kind
        recordType id type) := by
      rw [checkPlace]
      exact plain
    rw [unfolded, unfolded]
    unfold Expr.placeParts
    exact law.bind (h plain) fun _ _ same =>
      law.keep (.place ⟨id, position, kind⟩) rfl plain same

/-- A walk over the statements of a block goes over those that are no functions first. -/
theorem blockType (law : J.Lawful) {statements : List Stmt} {each : Analyzer TypeExpr}
    {bodies : Analyzer Unit} (h : J.holds each each (statements.flatMap (·.plainParts)))
    (h' : J.holds bodies bodies (statements.flatMap (·.functionParts))) :
    J.holds (Analyzing.blockType statements each bodies) (Analyzing.blockType statements each bodies)
      (Stmt.allParts statements) := by
  refine law.parts (fun _ => Stmt.mem_allParts.symm) ?_
  exact law.before (law.declareFunctions statements) fun _ _ _ =>
    law.bind h fun _ _ same => law.finish h' fun _ _ _ => law.ret same

/-- The walk over a statement that is no function is that of the statement alone. -/
theorem analyzeEach_cons (law : J.Lawful) {statement : Stmt} {rest : List Stmt}
    (h : J.holds (analyzeStmt statement) (analyzeStmt statement) statement.parts)
    (value : ∀ e terminated, statement.kind = .expression e terminated →
      J.holds (infer e) (infer e) e.parts)
    (h' : J.holds (analyzeEach rest) (analyzeEach rest) (rest.flatMap (·.plainParts))) :
    J.holds (analyzeEach (statement :: rest)) (analyzeEach (statement :: rest))
      ((statement :: rest).flatMap (·.plainParts)) := by
  obtain ⟨position, kind⟩ := statement
  rw [List.flatMap_cons]
  unfold Stmt.parts at h
  cases kind with
  | function definition =>
    unfold analyzeEach
    exact h'
  | expression e terminated =>
    unfold analyzeEach
    exact law.bind (value e terminated rfl) fun _ _ same => law.result h' fun _ _ same' alike => by
      rw [same alike, same' alike]
  | _ =>
    unfold analyzeEach
    exact law.bind h fun _ _ _ => h'

/-- The walk over a function among statements is that of the function alone. -/
theorem analyzeBodies_cons (law : J.Lawful) {statement : Stmt} {rest : List Stmt}
    (function : ∀ definition, statement.kind = .function definition →
      J.holds (analyzeFunction definition) (analyzeFunction definition) definition.parts)
    (h' : J.holds (analyzeBodies rest) (analyzeBodies rest) (rest.flatMap (·.functionParts))) :
    J.holds (analyzeBodies (statement :: rest)) (analyzeBodies (statement :: rest))
      ((statement :: rest).flatMap (·.functionParts)) := by
  obtain ⟨position, kind⟩ := statement
  rw [List.flatMap_cons]
  cases kind with
  | function definition =>
    unfold analyzeBodies
    refine law.bind (function definition rfl) fun type type' same => ?_
    cases definition.name with
    | some name => exact law.before (law.retype name fun alike => by rw [same alike]) fun _ _ _ => h'
    | none => exact h'
  | _ =>
    simp only [analyzeBodies]
    exact h'

/-! ## The walk -/

mutual

theorem infer (law : J.Lawful) : ∀ e : Expr, J.holds (infer e) (infer e) e.parts
  | ⟨id, position, kind⟩ => law.infer_of (law.inferKind id position kind)

theorem inferKind (law : J.Lawful) (id : Nat) (position : Position) :
    ∀ kind : ExprKind, (∀ name, kind ≠ .name name) →
      J.holds (inferKind id position kind) (inferKind id position kind) kind.parts
  | .literal _, _ | .external _, _ => by
    unfold Analyzing.inferKind ExprKind.parts
    exact law.ret fun _ => rfl
  | .name name, plain => absurd rfl (plain name)
  | .this, _ | .base, _ => by
    unfold Analyzing.inferKind ExprKind.parts
    exact law.before (law.check (checks_requireEntity _ _)) fun _ _ _ => law.ret fun _ => rfl
  | .scoped space name, _ => by
    unfold Analyzing.inferKind ExprKind.parts
    exact law.finish (law.infer space) fun _ _ _ => law.scopedType space name
  | .array items, _ | .tuple items, _ => by
    unfold Analyzing.inferKind ExprKind.parts
    exact law.result (law.inferAll items) fun _ _ same alike => by rw [same alike]
  | .map entries, _ => by
    unfold Analyzing.inferKind ExprKind.parts
    exact law.result (law.inferEntries entries) fun _ _ same alike => by rw [same alike]
  | .entity members, _ | .construct _ members, _ => by
    unfold Analyzing.inferKind ExprKind.parts
    exact law.result (law.inEntity (law.inferMembers members)) fun _ _ same alike => by
      rw [same alike]
  | .extend base members, _ => by
    unfold Analyzing.inferKind ExprKind.parts
    exact law.bind (law.infer base) fun _ _ same =>
      law.result (law.inEntity (law.inferMembers members)) fun _ _ same' alike => by
        rw [same alike, same' alike]
  | .unary op operand, _ => by
    unfold Analyzing.inferKind ExprKind.parts
    exact law.finish (law.infer operand) fun _ _ same =>
      law.remark (exists_remarks_unaryType _ _ _) (exists_remarks_unaryType _ _ _) fun alike => by
        rw [same alike]
  | .binary op left right, _ => by
    unfold Analyzing.inferKind ExprKind.parts
    exact law.bind (law.infer left) fun _ _ same => law.finish (law.infer right) fun _ _ same' =>
      law.remark (exists_remarks_binaryType _ _ _ _) (exists_remarks_binaryType _ _ _ _)
        fun alike => by rw [same alike, same' alike]
  | .typeTest value _, _ => by
    unfold Analyzing.inferKind ExprKind.parts
    exact law.result (law.infer value) fun _ _ _ _ => rfl
  | .update _ _ target, _ => by
    unfold Analyzing.inferKind ExprKind.parts
    exact law.result (law.checkPlace (fun _ => rfl) target) fun _ _ _ _ => rfl
  | .assign op (.place place) value, _ => by
    unfold Analyzing.inferKind ExprKind.parts AssignTarget.parts
    cases op.binary? with
    | none =>
      exact law.bind (law.infer value) fun _ _ same =>
        law.finish (law.checkPlace same place) fun _ _ _ => law.ret same
    | some binary =>
      -- The place is walked over twice: for its value, and to be written.
      have written : .place place ∈ place.placeParts := by
        obtain ⟨id, position, kind⟩ := place
        simp [Expr.placeParts]
      have twice (p : Part) : p ∈ value.parts ++ (place.parts ++ place.placeParts) ↔
          p ∈ .value place :: (value.parts ++ place.placeParts) := by
        obtain ⟨id, position, kind⟩ := place
        simp only [Expr.parts, Expr.placeParts, List.mem_append, List.mem_cons, List.not_mem_nil]
        grind
      refine law.again (List.mem_append_right _ written) (law.parts twice ?_)
      exact law.bind (law.infer value) fun _ _ same => law.bind (law.infer place) fun _ _ same' =>
        law.before (law.remark (exists_remarks_binaryType _ _ _ _) (exists_remarks_binaryType _ _ _ _)
          fun alike => by rw [same alike, same' alike]) fun _ _ stored =>
            law.finish (law.checkPlace stored place) fun _ _ _ => law.ret stored
  | .assign _ (.pattern pattern) value, _ => by
    unfold Analyzing.inferKind ExprKind.parts AssignTarget.parts
    exact law.bind (law.infer value) fun _ _ same =>
      law.finish (law.pattern pattern position) fun _ _ _ => law.ret same
  | .conditional condition thenBranch elseBranch, _ => by
    unfold Analyzing.inferKind ExprKind.parts
    exact law.bind (law.infer condition) fun _ _ _ => law.bind (law.infer thenBranch)
      fun _ _ same => law.finish (law.infer elseBranch) fun _ _ same' =>
        law.remark (exists_remarks_branchType _ _ _) (exists_remarks_branchType _ _ _)
          fun alike => by rw [same alike, same' alike]
  | .pipe value function, _ => by
    unfold Analyzing.inferKind ExprKind.parts
    exact law.bind (law.infer value) fun _ _ _ => law.finish (law.infer function) fun _ _ same =>
      law.remark (exists_remarks_callType _ _ _) (exists_remarks_callType _ _ _) fun alike => by
        rw [same alike]
  | .call callee args, _ => by
    unfold Analyzing.inferKind ExprKind.parts
    exact law.bind (law.infer callee) fun _ _ same => law.finish (law.inferAll args) fun _ _ _ =>
      law.remark (exists_remarks_callType _ _ _) (exists_remarks_callType _ _ _) fun alike => by
        rw [same alike]
  | .member object _, _ | .tupleIndex object _, _ => by
    unfold Analyzing.inferKind ExprKind.parts
    exact law.result (law.infer object) fun _ _ same alike => by rw [same alike]
  | .index object index, _ => by
    unfold Analyzing.inferKind ExprKind.parts
    exact law.bind (law.infer object) fun _ _ same => law.result (law.infer index)
      fun _ _ _ alike => by rw [same alike]
  | .function definition, _ => by
    unfold Analyzing.inferKind ExprKind.parts
    exact law.analyzeFunction definition
  | .block body, _ => by
    unfold Analyzing.inferKind ExprKind.parts
    exact law.analyzeBoundary body
  | .async body, _ => by
    unfold Analyzing.inferKind ExprKind.parts
    exact law.result (law.outsideLoops (law.analyzeBoundary body)) fun _ _ same alike => by
      rw [same alike]
  | .safe body, _ => by
    unfold Analyzing.inferKind ExprKind.parts
    exact law.result (law.outsideLoops (law.analyzeBoundary body)) fun _ _ _ _ => rfl
  | .lock key body, _ => by
    unfold Analyzing.inferKind ExprKind.parts
    exact law.bind (law.inferOption key) fun _ _ _ => law.outsideLoops (law.analyzeBoundary body)
  | .matchOn scrutinee arms, _ => by
    unfold Analyzing.inferKind ExprKind.parts
    exact law.bind (law.infer scrutinee) fun _ _ same =>
      law.result (law.analyzeArms true same arms) fun _ _ same' alike => by rw [same' alike]

theorem inferAll (law : J.Lawful) :
    ∀ items : List Expr, J.holds (inferAll items) (inferAll items) (Expr.allParts items)
  | [] => by
    unfold Analyzing.inferAll Expr.allParts
    exact law.ret fun _ => rfl
  | item :: items => by
    unfold Analyzing.inferAll Expr.allParts
    exact law.bind (law.infer item) fun _ _ same => law.result (law.inferAll items)
      fun _ _ same' alike => by rw [same alike, same' alike]

theorem inferOption (law : J.Lawful) :
    ∀ value : Option Expr, J.holds (inferOption value) (inferOption value) (Expr.partsIfAny value)
  | none => by
    unfold Analyzing.inferOption Expr.partsIfAny
    exact law.ret fun _ => rfl
  | some value => by
    unfold Analyzing.inferOption Expr.partsIfAny
    exact law.result (law.infer value) fun _ _ _ _ => rfl

theorem inferEntries (law : J.Lawful) :
    ∀ entries : List (Expr × Expr), J.holds (inferEntries entries) (inferEntries entries)
      (Expr.entryParts entries)
  | [] => by
    unfold Analyzing.inferEntries Expr.entryParts
    exact law.ret fun _ => rfl
  | (key, value) :: entries => by
    unfold Analyzing.inferEntries Expr.entryParts
    exact law.bind (law.infer key) fun _ _ _ => law.bind (law.infer value) fun _ _ same =>
      law.result (law.inferEntries entries) fun _ _ same' alike => by rw [same alike, same' alike]

theorem inferMembers (law : J.Lawful) :
    ∀ members : List MemberInit, J.inside (inferMembers members) (inferMembers members)
      (MemberInit.allParts members)
  | [] => by
    unfold Analyzing.inferMembers MemberInit.allParts
    exact law.enter (law.ret fun _ => rfl)
  | ⟨name, value, position⟩ :: members => by
    unfold Analyzing.inferMembers MemberInit.allParts
    refine law.insideBind (law.enter (law.infer value)) fun _ _ same => ?_
    refine law.insideBind (law.member name position same) fun _ _ _ => ?_
    refine List.append_nil (MemberInit.allParts members) ▸ ?_
    exact law.insideBind (law.inferMembers members) fun _ _ same' => law.enter (law.ret fun alike => by
      rw [same alike, same' alike])

theorem checkPlace (law : J.Lawful) {type type' : TypeExpr} (same : J.alike → type = type') :
    ∀ place : Expr, J.holds (checkPlace type place) (checkPlace type' place) place.placeParts
  | ⟨id, position, kind⟩ => law.checkPlace_of same (law.inferKind id position kind)

theorem analyzeFunction (law : J.Lawful) :
    ∀ definition : FunctionDef, J.holds (analyzeFunction definition) (analyzeFunction definition)
      definition.parts
  | ⟨_, params, body, position⟩ => by
    unfold Analyzing.analyzeFunction FunctionDef.parts
    exact law.result (law.outsideLoops (law.inScope .function (by decide) (law.before
      (law.declareAll (fun param => param) true .unknown position (by decide) (by decide) params)
      fun _ _ _ => law.analyzeFunctionBody body))) fun _ _ same alike => by rw [same alike]

theorem analyzeFunctionBody (law : J.Lawful) :
    ∀ body : Body, J.holds (analyzeFunctionBody body) (analyzeFunctionBody body) body.parts
  | .block body => by
    unfold Analyzing.analyzeFunctionBody Body.parts
    exact law.analyzeBoundary body
  | .expr value => by
    unfold Analyzing.analyzeFunctionBody Body.parts
    exact law.result (law.inBoundary (law.infer value)) fun _ _ same alike => by rw [same alike]

theorem analyzeArms (law : J.Lawful) (expression : Bool) {type type' : TypeExpr}
    (same : J.alike → type = type') :
    ∀ arms : List Arm, J.holds (analyzeArms expression type arms) (analyzeArms expression type' arms)
      (Arm.allParts arms)
  | [] => by
    unfold Analyzing.analyzeArms Arm.allParts
    exact law.ret fun _ => rfl
  | ⟨pattern, guard, body, position⟩ :: arms => by
    unfold Analyzing.analyzeArms Arm.allParts
    exact law.bind (law.inScope .block (by decide) (law.before
      (law.declarePattern true position pattern same) fun _ _ _ =>
        law.bind (law.inferOption guard) fun _ _ _ => law.analyzeArmBody expression body))
          fun _ _ same' =>
          law.result (law.analyzeArms expression same arms) fun _ _ others alike => by
            rw [same' alike, others alike]

theorem analyzeArmBody (law : J.Lawful) (expression : Bool) :
    ∀ body : Body, J.holds (analyzeArmBody expression body) (analyzeArmBody expression body)
      body.parts
  | .block body => by
    unfold Analyzing.analyzeArmBody Body.parts
    split
    · exact law.analyzeBoundary body
    · exact law.finish (law.analyzeTransparent body) fun _ _ _ => law.ret fun _ => rfl
  | .expr value => by
    unfold Analyzing.analyzeArmBody Body.parts
    refine law.finish (law.infer value) fun _ _ same => ?_
    split
    · exact law.ret same
    · split
      · exact law.before (law.complete same) fun _ _ _ => law.ret fun _ => rfl
      · exact law.ret fun _ => rfl

theorem analyzeTransparent (law : J.Lawful) :
    ∀ body : Block, J.holds (analyzeTransparent body) (analyzeTransparent body) body.parts
  | ⟨statements, position⟩ => by
    unfold Analyzing.analyzeTransparent Block.parts
    refine law.finish (law.inScope .block (by decide) (law.blockType (law.analyzeEach statements)
      (law.analyzeBodies statements))) fun _ _ same => ?_
    split
    · exact law.complete same
    · exact law.ret fun _ => rfl

theorem analyzeBoundary (law : J.Lawful) :
    ∀ body : Block, J.holds (analyzeBoundary body) (analyzeBoundary body) body.parts
  | ⟨statements, position⟩ => by
    unfold Analyzing.analyzeBoundary Block.parts
    exact law.result (law.inBoundary (law.inScope .block (by decide) (law.blockType
      (law.analyzeEach statements) (law.analyzeBodies statements)))) fun _ _ same alike => by
        rw [same alike]

theorem analyzeEach (law : J.Lawful) :
    ∀ statements : List Stmt, J.holds (analyzeEach statements) (analyzeEach statements)
      (statements.flatMap (·.plainParts))
  | [] => by
    unfold Analyzing.analyzeEach
    exact law.ret fun _ => rfl
  | ⟨position, kind⟩ :: rest => by
    refine law.analyzeEach_cons (law.analyzeStmt ⟨position, kind⟩) (fun e terminated same => ?_)
      (law.analyzeEach rest)
    match kind, same with
    | .expression e _, rfl => exact law.infer e

theorem analyzeBodies (law : J.Lawful) :
    ∀ statements : List Stmt, J.holds (analyzeBodies statements) (analyzeBodies statements)
      (statements.flatMap (·.functionParts))
  | [] => by
    unfold Analyzing.analyzeBodies
    exact law.ret fun _ => rfl
  | ⟨_, kind⟩ :: rest => by
    refine law.analyzeBodies_cons (fun definition same => ?_) (law.analyzeBodies rest)
    match kind, same with
    | .function definition, rfl => exact law.analyzeFunction definition

theorem analyzeStmtOption (law : J.Lawful) :
    ∀ statement : Option Stmt, J.holds (analyzeStmtOption statement) (analyzeStmtOption statement)
      (Stmt.partsIfAny statement)
  | none => by
    unfold Analyzing.analyzeStmtOption Stmt.partsIfAny
    exact law.ret fun _ => rfl
  | some statement => by
    unfold Analyzing.analyzeStmtOption Stmt.partsIfAny
    exact law.analyzeStmt statement

theorem analyzeTransparentOption (law : J.Lawful) :
    ∀ body : Option Block, J.holds (analyzeTransparentOption body) (analyzeTransparentOption body)
      (Block.partsIfAny body)
  | none => by
    unfold Analyzing.analyzeTransparentOption Block.partsIfAny
    exact law.ret fun _ => rfl
  | some body => by
    unfold Analyzing.analyzeTransparentOption Block.partsIfAny
    exact law.analyzeTransparent body

theorem analyzeStmt (law : J.Lawful) :
    ∀ statement : Stmt, J.holds (analyzeStmt statement) (analyzeStmt statement) statement.parts
  | ⟨position, kind⟩ => by
    unfold Analyzing.analyzeStmt Stmt.parts
    exact law.analyzeStmtKind position kind

theorem analyzeStmtKind (law : J.Lawful) (position : Position) :
    ∀ kind : StmtKind, J.holds (analyzeStmtKind position kind) (analyzeStmtKind position kind)
      kind.parts
  | .declare word declarators => by
    unfold Analyzing.analyzeStmtKind StmtKind.parts
    exact law.analyzeDeclarators _ declarators
  | .function definition => by
    unfold Analyzing.analyzeStmtKind StmtKind.parts
    exact law.result (law.analyzeFunction definition) fun _ _ _ _ => rfl
  | .branch condition thenBranch elseBranch => by
    unfold Analyzing.analyzeStmtKind StmtKind.parts
    exact law.bind (law.infer condition) fun _ _ _ => law.bind (law.analyzeTransparent thenBranch)
      fun _ _ _ => law.analyzeTransparentOption elseBranch
  | .whileLoop condition body | .doWhile body condition => by
    unfold Analyzing.analyzeStmtKind StmtKind.parts
    exact law.bind (law.infer condition) fun _ _ _ => law.inLoop (law.analyzeTransparent body)
  | .forLoop start condition update body => by
    unfold Analyzing.analyzeStmtKind StmtKind.parts
    exact law.inScope .block (by decide) (law.bind (law.analyzeStmtOption start) fun _ _ _ =>
      law.bind (law.inferOption condition) fun _ _ _ => law.bind (law.inferOption update)
        fun _ _ _ => law.inLoop (law.analyzeTransparent body))
  | .each item index iterable body => by
    unfold Analyzing.analyzeStmtKind StmtKind.parts
    refine law.bind (law.infer iterable) fun _ _ same => law.inScope .block (by decide) (law.before
      (law.declare item true position (by decide) (by decide) (by decide) (by decide) fun alike =>
        ⟨rfl, by rw [same alike]⟩) fun _ _ _ => ?_)
    have walked := law.inLoop (law.analyzeTransparent body)
    cases index with
    | some index =>
      exact law.before (law.declare index true position (by decide) (by decide) (by decide) (by decide)
        fun _ => ⟨rfl, rfl⟩)
        fun _ _ _ => walked
    | none => exact walked
  | .matchOn scrutinee arms => by
    unfold Analyzing.analyzeStmtKind StmtKind.parts
    exact law.bind (law.infer scrutinee) fun _ _ same =>
      law.result (law.analyzeArms false same arms) fun _ _ _ _ => rfl
  | .returnWith none => by
    unfold Analyzing.analyzeStmtKind StmtKind.parts Expr.partsIfAny
    exact law.complete fun _ => rfl
  | .returnWith (some value) => by
    unfold Analyzing.analyzeStmtKind StmtKind.parts Expr.partsIfAny
    exact law.finish (law.infer value) fun _ _ same => law.complete same
  | .breakLoop | .continueLoop => by
    unfold Analyzing.analyzeStmtKind StmtKind.parts
    exact law.check (checks_requireLoop _ _)
  | .importFrom items _ => by
    unfold Analyzing.analyzeStmtKind StmtKind.parts
    exact law.before (law.check (checks_requireModuleLevel _ _)) fun _ _ _ =>
      law.declareAll ImportItem.localName true .unknown position (by decide) (by decide) items
  | .exportNames _ => by
    unfold Analyzing.analyzeStmtKind StmtKind.parts
    exact law.check (checks_requireModuleLevel _ _)
  | .namespaceBlock name ⟨statements, _⟩ => by
    unfold Analyzing.analyzeStmtKind StmtKind.parts Block.parts
    exact law.before (law.declare name false position (by decide) (by decide) (by decide) (by decide)
      fun _ => ⟨rfl, rfl⟩)
      fun _ _ _ => law.inScope .space (by decide) (law.before (law.nameSpace name) fun _ _ _ =>
        law.result (law.blockType (law.analyzeEach statements) (law.analyzeBodies statements))
          fun _ _ _ _ => rfl)
  | .expression value _ => by
    unfold Analyzing.analyzeStmtKind StmtKind.parts
    exact law.result (law.infer value) fun _ _ _ _ => rfl

theorem analyzeDeclarators (law : J.Lawful) (assignable : Bool) :
    ∀ declarators : List Declarator, J.holds (analyzeDeclarators assignable declarators)
      (analyzeDeclarators assignable declarators) (Declarator.allParts declarators)
  | [] => by
    unfold Analyzing.analyzeDeclarators Declarator.allParts
    exact law.ret fun _ => rfl
  | ⟨target, none, position⟩ :: rest => by
    unfold Analyzing.analyzeDeclarators Declarator.allParts Expr.partsIfAny
    exact law.before (law.declarePattern assignable position target fun _ => rfl) fun _ _ _ =>
      law.analyzeDeclarators assignable rest
  | ⟨target, some value, position⟩ :: rest => by
    unfold Analyzing.analyzeDeclarators Declarator.allParts Expr.partsIfAny
    split
    · exact law.before (law.declare _ assignable position (by decide) (by decide) (by decide)
        (by decide) fun _ => ⟨rfl, rfl⟩) fun _ _ _ => law.bind (law.infer value) fun _ _ same =>
          law.before (law.retype _ fun alike => by rw [same alike]) fun _ _ _ =>
            law.analyzeDeclarators assignable rest
    · exact law.bind (law.infer value) fun _ _ same => law.before
        (law.declarePattern assignable position _ same) fun _ _ _ =>
          law.analyzeDeclarators assignable rest

end

/-- The walk over a module. -/
theorem analyzeStatements (law : J.Lawful) (m : Module) :
    J.holds (analyzeStatements m.statements) (analyzeStatements m.statements) m.parts :=
  law.blockType (law.analyzeEach m.statements) (law.analyzeBodies m.statements)

end Judgement.Lawful

end ScriptEngine.Analyzing
