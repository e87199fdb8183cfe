import ScriptEngine.Tree.Basic

/-!
# Trees without positions and numbers

A tree says of each of its parts where that stood in the text, and gives each expression a number.
Neither belongs to what the tree means. `Expr.bare`, `Block.bare` and the others wipe them out.
-/

namespace ScriptEngine

mutual

/-- An expression without positions and numbers. -/
def Expr.bare : Expr → Expr
  | ⟨_, _, kind⟩ => ⟨0, .nowhere, kind.bare⟩

/-- `Expr.bare` for the parts of an expression. -/
def ExprKind.bare : ExprKind → ExprKind
  | .literal value => .literal value
  | .name name => .name name
  | .this => .this
  | .base => .base
  | .external name => .external name
  | .scoped space name => .scoped space.bare name
  | .array items => .array (Expr.bareAll items)
  | .map entries => .map (Expr.bareEntries entries)
  | .tuple items => .tuple (Expr.bareAll items)
  | .entity members => .entity (MemberInit.bareAll members)
  | .extend base members => .extend base.bare (MemberInit.bareAll members)
  | .construct className members => .construct className (MemberInit.bareAll members)
  | .unary op operand => .unary op operand.bare
  | .binary op left right => .binary op left.bare right.bare
  | .typeTest value typeName => .typeTest value.bare typeName
  | .update op before target => .update op before target.bare
  | .assign op target value => .assign op target.bare value.bare
  | .conditional condition thenBranch elseBranch =>
    .conditional condition.bare thenBranch.bare elseBranch.bare
  | .pipe value function => .pipe value.bare function.bare
  | .call callee args => .call callee.bare (Expr.bareAll args)
  | .member object name => .member object.bare name
  | .tupleIndex object index => .tupleIndex object.bare index
  | .index object index => .index object.bare index.bare
  | .function definition => .function definition.bare
  | .block body => .block body.bare
  | .async body => .async body.bare
  | .safe body => .safe body.bare
  | .lock key body => .lock (Expr.bareAny key) body.bare
  | .matchOn scrutinee arms => .matchOn scrutinee.bare (Arm.bareAll arms)

/-- `Expr.bare` for each of some expressions. -/
def Expr.bareAll : List Expr → List Expr
  | [] => []
  | e :: es => e.bare :: Expr.bareAll es

/-- `Expr.bare` for an expression that may be left out. -/
def Expr.bareAny : Option Expr → Option Expr
  | none => none
  | some e => some e.bare

/-- `Expr.bare` for the keys and values of map entries. -/
def Expr.bareEntries : List (Expr × Expr) → List (Expr × Expr)
  | [] => []
  | (key, value) :: entries => (key.bare, value.bare) :: Expr.bareEntries entries

/-- A member without positions and numbers. -/
def MemberInit.bare : MemberInit → MemberInit
  | ⟨name, value, _⟩ => ⟨name, value.bare, .nowhere⟩

/-- `MemberInit.bare` for each of some members. -/
def MemberInit.bareAll : List MemberInit → List MemberInit
  | [] => []
  | member :: members => member.bare :: MemberInit.bareAll members

/-- The left side of an assignment without positions and numbers. -/
def AssignTarget.bare : AssignTarget → AssignTarget
  | .place target => .place target.bare
  | .pattern pattern => .pattern pattern

/-- A function without positions and numbers. -/
def FunctionDef.bare : FunctionDef → FunctionDef
  | ⟨name, params, body, _⟩ => ⟨name, params, body.bare, .nowhere⟩

/-- A body without positions and numbers. -/
def Body.bare : Body → Body
  | .block body => .block body.bare
  | .expr value => .expr value.bare

/-- An arm without positions and numbers. -/
def Arm.bare : Arm → Arm
  | ⟨pattern, guard, body, _⟩ => ⟨pattern, Expr.bareAny guard, body.bare, .nowhere⟩

/-- `Arm.bare` for each of some arms. -/
def Arm.bareAll : List Arm → List Arm
  | [] => []
  | arm :: arms => arm.bare :: Arm.bareAll arms

/-- A block without positions and numbers. -/
def Block.bare : Block → Block
  | ⟨statements, _⟩ => ⟨Stmt.bareAll statements, .nowhere⟩

/-- `Block.bare` for a block that may be left out. -/
def Block.bareAny : Option Block → Option Block
  | none => none
  | some b => some b.bare

/-- A statement without positions and numbers. -/
def Stmt.bare : Stmt → Stmt
  | ⟨_, kind⟩ => ⟨.nowhere, kind.bare⟩

/-- `Stmt.bare` for each of some statements. -/
def Stmt.bareAll : List Stmt → List Stmt
  | [] => []
  | s :: statements => s.bare :: Stmt.bareAll statements

/-- `Stmt.bare` for a statement that may be left out. -/
def Stmt.bareAny : Option Stmt → Option Stmt
  | none => none
  | some s => some s.bare

/-- `Stmt.bare` for the parts of a statement. -/
def StmtKind.bare : StmtKind → StmtKind
  | .declare word declarators => .declare word (Declarator.bareAll declarators)
  | .function definition => .function definition.bare
  | .branch condition thenBranch elseBranch =>
    .branch condition.bare thenBranch.bare (Block.bareAny elseBranch)
  | .whileLoop condition body => .whileLoop condition.bare body.bare
  | .doWhile body condition => .doWhile body.bare condition.bare
  | .forLoop start condition update body =>
    .forLoop (Stmt.bareAny start) (Expr.bareAny condition) (Expr.bareAny update)
      body.bare
  | .each item index iterable body => .each item index iterable.bare body.bare
  | .matchOn scrutinee arms => .matchOn scrutinee.bare (Arm.bareAll arms)
  | .returnWith value => .returnWith (Expr.bareAny value)
  | .breakLoop => .breakLoop
  | .continueLoop => .continueLoop
  | .importFrom items source => .importFrom items source
  | .exportNames names => .exportNames names
  | .namespaceBlock name body => .namespaceBlock name body.bare
  | .expression value terminated => .expression value.bare terminated

/-- A declarator without positions and numbers. -/
def Declarator.bare : Declarator → Declarator
  | ⟨target, value, _⟩ => ⟨target, Expr.bareAny value, .nowhere⟩

/-- `Declarator.bare` for each of some declarators. -/
def Declarator.bareAll : List Declarator → List Declarator
  | [] => []
  | declarator :: declarators => declarator.bare :: Declarator.bareAll declarators

end

/-! ## Lists and options -/

@[simp] theorem Expr.bareAll_eq (es : List Expr) : Expr.bareAll es = es.map Expr.bare := by
  induction es with
  | nil => rfl
  | cons e es ih => rw [bareAll, ih, List.map_cons]

@[simp] theorem Expr.bareAny_eq (e : Option Expr) : Expr.bareAny e = e.map Expr.bare := by
  cases e <;> rfl

/-- The keys and values of an entry without positions and numbers. -/
def Expr.bareEntry (entry : Expr × Expr) : Expr × Expr := (entry.1.bare, entry.2.bare)

@[simp] theorem Expr.bareEntries_eq (entries : List (Expr × Expr)) :
    Expr.bareEntries entries = entries.map Expr.bareEntry := by
  induction entries with
  | nil => rfl
  | cons entry entries ih => rw [bareEntries, ih, List.map_cons, bareEntry]

@[simp] theorem MemberInit.bareAll_eq (members : List MemberInit) :
    MemberInit.bareAll members = members.map MemberInit.bare := by
  induction members with
  | nil => rfl
  | cons member members ih => rw [bareAll, ih, List.map_cons]

@[simp] theorem Arm.bareAll_eq (arms : List Arm) : Arm.bareAll arms = arms.map Arm.bare := by
  induction arms with
  | nil => rfl
  | cons arm arms ih => rw [bareAll, ih, List.map_cons]

@[simp] theorem Block.bareAny_eq (b : Option Block) : Block.bareAny b = b.map Block.bare := by
  cases b <;> rfl

@[simp] theorem Stmt.bareAll_eq (statements : List Stmt) :
    Stmt.bareAll statements = statements.map Stmt.bare := by
  induction statements with
  | nil => rfl
  | cons s statements ih => rw [bareAll, ih, List.map_cons]

@[simp] theorem Stmt.bareAny_eq (s : Option Stmt) : Stmt.bareAny s = s.map Stmt.bare := by
  cases s <;> rfl

@[simp] theorem Declarator.bareAll_eq (declarators : List Declarator) :
    Declarator.bareAll declarators = declarators.map Declarator.bare := by
  induction declarators with
  | nil => rfl
  | cons declarator declarators ih => rw [bareAll, ih, List.map_cons]

/-! ## Parts in lists and options -/

theorem Declarator.bare_mk (target : Pattern) (value : Option Expr) (position : Position) :
    Declarator.bare ⟨target, value, position⟩ = ⟨target, value.map Expr.bare, .nowhere⟩ := by
  simp only [bare, Expr.bareAny_eq]

theorem Arm.bare_mk (pattern : Pattern) (guard : Option Expr) (body : Body) (position : Position) :
    Arm.bare ⟨pattern, guard, body, position⟩ =
      ⟨pattern, guard.map Expr.bare, body.bare, .nowhere⟩ := by
  simp only [bare, Expr.bareAny_eq]

theorem Block.bare_mk (statements : List Stmt) (position : Position) :
    Block.bare ⟨statements, position⟩ = ⟨statements.map Stmt.bare, .nowhere⟩ := by
  simp only [bare, Stmt.bareAll_eq]

theorem Block.bare_singleton (kind : StmtKind) (position position' : Position) :
    Block.bare ⟨[⟨position, kind⟩], position'⟩ = ⟨[⟨.nowhere, kind.bare⟩], .nowhere⟩ := by
  simp only [bare, Stmt.bareAll, Stmt.bare]

theorem StmtKind.bare_forLoop (start : Option Stmt) (condition update : Option Expr)
    (body : Block) : (StmtKind.forLoop start condition update body).bare =
      .forLoop (start.map Stmt.bare) (condition.map Expr.bare) (update.map Expr.bare)
        body.bare := by
  simp only [bare, Stmt.bareAny_eq, Expr.bareAny_eq]

/-! ## What can be seen without positions -/

theorem Expr.isPlace_bare (e : Expr) : e.bare.isPlace = e.isPlace := by
  obtain ⟨id, position, kind⟩ := e
  cases kind <;> simp only [bare, ExprKind.bare, isPlace]

theorem MemberInit.name_bare (member : MemberInit) : member.bare.name = member.name := by
  obtain ⟨name, value, position⟩ := member
  rw [bare]

end ScriptEngine
