import ScriptEngine.Analysis.Basic
import ScriptEngine.Proofs.Tree.Site

/-!
# Where imports may stand

Imports are meant for the top level of a module. Code that stands anywhere else is to have none
inside.

* `Expr.Fits`, `Stmt.Fits` and the others: each form inside a part of a tree has the surroundings it
  is meant for, and there is no import inside unless there may be some.
* `Block.fits_iff_suits`: code with imports anywhere.
* `Stmt.names`, `Stmt.functionNames`: what a statement declares in the frame it stands in.
* `Block.TopLevel`: code with imports at the top level only, which declares every name once.
-/

namespace ScriptEngine

mutual

/-- Every form inside an expression has the surroundings it is meant for. -/
def Expr.Fits (imports : Prop) (s : Site) : Expr → Prop
  | ⟨_, _, kind⟩ => kind.Fits imports s

/-- Every form inside an expression of this kind has the surroundings it is meant for. -/
def ExprKind.Fits (imports : Prop) (s : Site) : ExprKind → Prop
  | .literal _ | .name _ | .external _ => True
  | .this | .base => s.inEntity = true
  | .scoped space _ => space.Fits imports s
  | .array items | .tuple items => Expr.FitAll imports s items
  | .map entries => Expr.EntriesFit imports s entries
  | .entity members | .construct _ members => MemberInit.FitAll imports s.entity members
  | .extend base members => base.Fits imports s ∧ MemberInit.FitAll imports s.entity members
  | .unary _ operand => operand.Fits imports s
  | .binary _ left right => left.Fits imports s ∧ right.Fits imports s
  | .typeTest value _ => value.Fits imports s
  | .update _ _ target => target.Fits imports s
  | .assign _ target value => target.Fits imports s ∧ value.Fits imports s
  | .conditional condition thenBranch elseBranch =>
    condition.Fits imports s ∧ thenBranch.Fits imports s ∧ elseBranch.Fits imports s
  | .pipe value function => value.Fits imports s ∧ function.Fits imports s
  | .call callee args => callee.Fits imports s ∧ Expr.FitAll imports s args
  | .member object _ | .tupleIndex object _ => object.Fits imports s
  | .index object index => object.Fits imports s ∧ index.Fits imports s
  | .function definition => definition.Fits imports s
  | .block body => body.Fits imports s
  | .async body | .safe body => body.Fits imports s.body
  | .lock key body => Expr.FitsIfAny imports s key ∧ body.Fits imports s.body
  | .matchOn scrutinee arms => scrutinee.Fits imports s ∧ Arm.FitAll imports s arms

/-- `Expr.Fits` for each of some expressions. -/
def Expr.FitAll (imports : Prop) (s : Site) : List Expr → Prop
  | [] => True
  | e :: es => e.Fits imports s ∧ Expr.FitAll imports s es

/-- `Expr.Fits` for an expression that may be left out. -/
def Expr.FitsIfAny (imports : Prop) (s : Site) : Option Expr → Prop
  | none => True
  | some e => e.Fits imports s

/-- `Expr.Fits` for the keys and values of map entries. -/
def Expr.EntriesFit (imports : Prop) (s : Site) : List (Expr × Expr) → Prop
  | [] => True
  | (key, value) :: entries =>
    key.Fits imports s ∧ value.Fits imports s ∧ Expr.EntriesFit imports s entries

/-- `Expr.Fits` for the values of members. -/
def MemberInit.FitAll (imports : Prop) (s : Site) : List MemberInit → Prop
  | [] => True
  | ⟨_, value, _⟩ :: members => value.Fits imports s ∧ MemberInit.FitAll imports s members

/-- Every form inside the left side of an assignment has the surroundings it is meant for. -/
def AssignTarget.Fits (imports : Prop) (s : Site) : AssignTarget → Prop
  | .place place => place.Fits imports s
  | .pattern _ => True

/-- Every form inside a function has the surroundings it is meant for. -/
def FunctionDef.Fits (imports : Prop) (s : Site) : FunctionDef → Prop
  | ⟨_, _, body, _⟩ => body.Fits imports s.body

/-- Every form inside a body has the surroundings it is meant for. -/
def Body.Fits (imports : Prop) (s : Site) : Body → Prop
  | .block body => body.Fits imports s
  | .expr value => value.Fits imports s

/-- Every form inside the guards and bodies of arms has the surroundings it is meant for. -/
def Arm.FitAll (imports : Prop) (s : Site) : List Arm → Prop
  | [] => True
  | ⟨_, guard, body, _⟩ :: arms =>
    Expr.FitsIfAny imports s guard ∧ body.Fits imports s ∧ Arm.FitAll imports s arms

/-- Every form inside a block has the surroundings it is meant for. -/
def Block.Fits (imports : Prop) (s : Site) : Block → Prop
  | ⟨statements, _⟩ => Stmt.FitAll imports s statements

/-- `Block.Fits` for a block that may be left out. -/
def Block.FitsIfAny (imports : Prop) (s : Site) : Option Block → Prop
  | none => True
  | some b => b.Fits imports s

/-- Every form inside a statement has the surroundings it is meant for. -/
def Stmt.Fits (imports : Prop) (s : Site) : Stmt → Prop
  | ⟨_, kind⟩ => kind.Fits imports s

/-- `Stmt.Fits` for each of some statements. -/
def Stmt.FitAll (imports : Prop) (s : Site) : List Stmt → Prop
  | [] => True
  | statement :: statements => statement.Fits imports s ∧ Stmt.FitAll imports s statements

/-- `Stmt.Fits` for a statement that may be left out. -/
def Stmt.FitsIfAny (imports : Prop) (s : Site) : Option Stmt → Prop
  | none => True
  | some statement => statement.Fits imports s

/-- Every form inside a statement of this kind has the surroundings it is meant for. -/
def StmtKind.Fits (imports : Prop) (s : Site) : StmtKind → Prop
  | .declare _ declarators => Declarator.FitAll imports s declarators
  | .function definition => definition.Fits imports s
  | .branch condition thenBranch elseBranch =>
    condition.Fits imports s ∧ thenBranch.Fits imports s ∧ Block.FitsIfAny imports s elseBranch
  | .whileLoop condition body | .doWhile body condition =>
    condition.Fits imports s ∧ body.Fits imports s.loop
  | .forLoop start condition update body =>
    Stmt.FitsIfAny imports s start ∧ Expr.FitsIfAny imports s condition ∧
      Expr.FitsIfAny imports s update ∧ body.Fits imports s.loop
  | .each _ _ iterable body => iterable.Fits imports s ∧ body.Fits imports s.loop
  | .matchOn scrutinee arms => scrutinee.Fits imports s ∧ Arm.FitAll imports s arms
  | .returnWith value => Expr.FitsIfAny imports s value
  | .breakLoop | .continueLoop => s.inLoop = true
  | .importFrom _ _ => imports
  | .exportNames _ => True
  | .namespaceBlock _ body => body.Fits imports s
  | .expression value _ => value.Fits imports s

/-- Every form inside the values of declarations has the surroundings it is meant for. -/
def Declarator.FitAll (imports : Prop) (s : Site) : List Declarator → Prop
  | [] => True
  | ⟨_, value, _⟩ :: declarators =>
    Expr.FitsIfAny imports s value ∧ Declarator.FitAll imports s declarators

end

/-! ## Code with imports anywhere -/

mutual

theorem Expr.fits_iff_suits (s : Site) : ∀ e : Expr, e.Fits True s ↔ e.Suits s
  | ⟨_, _, kind⟩ => kind.fits_iff_suits s

theorem ExprKind.fits_iff_suits (s : Site) : ∀ kind : ExprKind, kind.Fits True s ↔ kind.Suits s
  | .literal _ | .name _ | .external _ | .this | .base => .rfl
  | .scoped space _ => space.fits_iff_suits s
  | .array items | .tuple items => Expr.fitAll_iff_suitAll s items
  | .map entries => Expr.entriesFit_iff s entries
  | .entity members | .construct _ members => MemberInit.fitAll_iff_suitAll s.entity members
  | .extend base members =>
    and_congr (base.fits_iff_suits s) (MemberInit.fitAll_iff_suitAll s.entity members)
  | .unary _ operand => operand.fits_iff_suits s
  | .binary _ left right => and_congr (left.fits_iff_suits s) (right.fits_iff_suits s)
  | .typeTest value _ => value.fits_iff_suits s
  | .update _ _ target => target.fits_iff_suits s
  | .assign _ target value => and_congr (target.fits_iff_suits s) (value.fits_iff_suits s)
  | .conditional condition thenBranch elseBranch =>
    and_congr (condition.fits_iff_suits s)
      (and_congr (thenBranch.fits_iff_suits s) (elseBranch.fits_iff_suits s))
  | .pipe value function => and_congr (value.fits_iff_suits s) (function.fits_iff_suits s)
  | .call callee args => and_congr (callee.fits_iff_suits s) (Expr.fitAll_iff_suitAll s args)
  | .member object _ | .tupleIndex object _ => object.fits_iff_suits s
  | .index object index => and_congr (object.fits_iff_suits s) (index.fits_iff_suits s)
  | .function definition => definition.fits_iff_suits s
  | .block body => body.fits_iff_suits s
  | .async body | .safe body => body.fits_iff_suits s.body
  | .lock key body => and_congr (Expr.fitsIfAny_iff s key) (body.fits_iff_suits s.body)
  | .matchOn scrutinee arms =>
    and_congr (scrutinee.fits_iff_suits s) (Arm.fitAll_iff_suitAll s arms)

theorem Expr.fitAll_iff_suitAll (s : Site) :
    ∀ es : List Expr, Expr.FitAll True s es ↔ Expr.SuitAll s es
  | [] => .rfl
  | e :: es => and_congr (e.fits_iff_suits s) (Expr.fitAll_iff_suitAll s es)

theorem Expr.fitsIfAny_iff (s : Site) :
    ∀ e : Option Expr, Expr.FitsIfAny True s e ↔ Expr.SuitsIfAny s e
  | none => .rfl
  | some e => e.fits_iff_suits s

theorem Expr.entriesFit_iff (s : Site) :
    ∀ entries : List (Expr × Expr), Expr.EntriesFit True s entries ↔ Expr.EntriesSuit s entries
  | [] => .rfl
  | (key, value) :: entries =>
    and_congr (key.fits_iff_suits s)
      (and_congr (value.fits_iff_suits s) (Expr.entriesFit_iff s entries))

theorem MemberInit.fitAll_iff_suitAll (s : Site) :
    ∀ members : List MemberInit, MemberInit.FitAll True s members ↔ MemberInit.SuitAll s members
  | [] => .rfl
  | ⟨_, value, _⟩ :: members =>
    and_congr (value.fits_iff_suits s) (MemberInit.fitAll_iff_suitAll s members)

theorem AssignTarget.fits_iff_suits (s : Site) :
    ∀ target : AssignTarget, target.Fits True s ↔ target.Suits s
  | .place place => place.fits_iff_suits s
  | .pattern _ => .rfl

theorem FunctionDef.fits_iff_suits (s : Site) :
    ∀ definition : FunctionDef, definition.Fits True s ↔ definition.Suits s
  | ⟨_, _, body, _⟩ => body.fits_iff_suits s.body

theorem Body.fits_iff_suits (s : Site) : ∀ body : Body, body.Fits True s ↔ body.Suits s
  | .block body => body.fits_iff_suits s
  | .expr value => value.fits_iff_suits s

theorem Arm.fitAll_iff_suitAll (s : Site) :
    ∀ arms : List Arm, Arm.FitAll True s arms ↔ Arm.SuitAll s arms
  | [] => .rfl
  | ⟨_, guard, body, _⟩ :: arms =>
    and_congr (Expr.fitsIfAny_iff s guard)
      (and_congr (body.fits_iff_suits s) (Arm.fitAll_iff_suitAll s arms))

theorem Block.fits_iff_suits (s : Site) : ∀ body : Block, body.Fits True s ↔ body.Suits s
  | ⟨statements, _⟩ => Stmt.fitAll_iff_suitAll s statements

theorem Block.fitsIfAny_iff (s : Site) :
    ∀ body : Option Block, Block.FitsIfAny True s body ↔ Block.SuitsIfAny s body
  | none => .rfl
  | some body => body.fits_iff_suits s

theorem Stmt.fits_iff_suits (s : Site) :
    ∀ statement : Stmt, statement.Fits True s ↔ statement.Suits s
  | ⟨_, kind⟩ => kind.fits_iff_suits s

theorem Stmt.fitAll_iff_suitAll (s : Site) :
    ∀ statements : List Stmt, Stmt.FitAll True s statements ↔ Stmt.SuitAll s statements
  | [] => .rfl
  | statement :: statements =>
    and_congr (statement.fits_iff_suits s) (Stmt.fitAll_iff_suitAll s statements)

theorem Stmt.fitsIfAny_iff (s : Site) :
    ∀ statement : Option Stmt, Stmt.FitsIfAny True s statement ↔ Stmt.SuitsIfAny s statement
  | none => .rfl
  | some statement => statement.fits_iff_suits s

theorem StmtKind.fits_iff_suits (s : Site) :
    ∀ kind : StmtKind, kind.Fits True s ↔ kind.Suits s
  | .declare _ declarators => Declarator.fitAll_iff_suitAll s declarators
  | .function definition => definition.fits_iff_suits s
  | .branch condition thenBranch elseBranch =>
    and_congr (condition.fits_iff_suits s)
      (and_congr (thenBranch.fits_iff_suits s) (Block.fitsIfAny_iff s elseBranch))
  | .whileLoop condition body | .doWhile body condition =>
    and_congr (condition.fits_iff_suits s) (body.fits_iff_suits s.loop)
  | .forLoop start condition update body =>
    and_congr (Stmt.fitsIfAny_iff s start) (and_congr (Expr.fitsIfAny_iff s condition)
      (and_congr (Expr.fitsIfAny_iff s update) (body.fits_iff_suits s.loop)))
  | .each _ _ iterable body =>
    and_congr (iterable.fits_iff_suits s) (body.fits_iff_suits s.loop)
  | .matchOn scrutinee arms =>
    and_congr (scrutinee.fits_iff_suits s) (Arm.fitAll_iff_suitAll s arms)
  | .returnWith value => Expr.fitsIfAny_iff s value
  | .breakLoop | .continueLoop | .importFrom _ _ | .exportNames _ => .rfl
  | .namespaceBlock _ body => body.fits_iff_suits s
  | .expression value _ => value.fits_iff_suits s

theorem Declarator.fitAll_iff_suitAll (s : Site) :
    ∀ declarators : List Declarator,
      Declarator.FitAll True s declarators ↔ Declarator.SuitAll s declarators
  | [] => .rfl
  | ⟨_, value, _⟩ :: declarators =>
    and_congr (Expr.fitsIfAny_iff s value) (Declarator.fitAll_iff_suitAll s declarators)

end

/-! ## The top level -/

/-- Whether a statement is an import. -/
def Stmt.isImport (s : Stmt) : Bool :=
  match s.kind with
  | .importFrom _ _ => true
  | _ => false

/-- What a statement imports, and the module that it imports from. -/
def Stmt.import? (s : Stmt) : Option (List ImportItem × String) :=
  match s.kind with
  | .importFrom items source => some (items, source)
  | _ => none

/-- The names that a statement declares in its turn in the frame it stands in. -/
def Stmt.names (s : Stmt) : List String :=
  match s.kind with
  | .declare _ declarators => declarators.flatMap (·.target.bindings)
  | .importFrom items _ => items.map (·.localName)
  | .namespaceBlock name _ => [name]
  | _ => []

/-- The name of a function that is declared before the first statement of its block. -/
def Stmt.functionNames (s : Stmt) : List String :=
  match s.kind with
  | .function definition => definition.name.toList
  | _ => []

/-- The names that statements declare in the frame they stand in, in this order. -/
def Stmt.allNames (statements : List Stmt) : List String :=
  statements.flatMap (·.functionNames) ++ statements.flatMap (·.names)

/-- The names of the top level of a module: those that it declares, and that of the arguments. -/
def Block.declared (b : Block) : List String := argsName :: Stmt.allNames b.statements

/-- The top level of a module: imports stand nowhere else, and no name is declared twice or stands
for the arguments. -/
structure Block.TopLevel (b : Block) : Prop where
  fits : ∀ s ∈ b.statements, s.isImport = true ∨ s.Fits False .top
  distinct : b.declared.Nodup

end ScriptEngine
