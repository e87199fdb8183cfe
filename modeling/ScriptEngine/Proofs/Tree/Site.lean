import ScriptEngine.Tree.Basic

/-!
# Where the parts of a tree stand

Some forms are only meant for certain surroundings: `break` and `continue` for a loop of the same
body, `this` and `base` for the members of an entity.

* `Site`: what stands around a part of a tree.
* `Expr.Suits`, `Stmt.Suits` and the others: whether each of these forms inside a part has the
  surroundings it is meant for, when the part itself stands at a site.
-/

namespace ScriptEngine

/-- What stands around a part of a tree: a loop of the same body, and an entity. -/
structure Site where
  inLoop : Bool
  inEntity : Bool
deriving Repr, DecidableEq, Inhabited

namespace Site

/-- The top level of a module. -/
def top : Site := ⟨false, false⟩

/-- The body of a loop. -/
def loop (s : Site) : Site := { s with inLoop := true }

/-- A body of its own, which no loop outside can be left from. -/
def body (s : Site) : Site := { s with inLoop := false }

/-- The members of an entity. -/
def entity (s : Site) : Site := { s with inEntity := true }

end Site

mutual

/-- Every form inside an expression has the surroundings it is meant for. -/
def Expr.Suits (s : Site) : Expr → Prop
  | ⟨_, _, kind⟩ => kind.Suits s

/-- Every form inside an expression of this kind has the surroundings it is meant for. -/
def ExprKind.Suits (s : Site) : ExprKind → Prop
  | .literal _ | .name _ | .external _ => True
  | .this | .base => s.inEntity = true
  | .scoped space _ => space.Suits s
  | .array items | .tuple items => Expr.SuitAll s items
  | .map entries => Expr.EntriesSuit s entries
  | .entity members | .construct _ members => MemberInit.SuitAll s.entity members
  | .extend base members => base.Suits s ∧ MemberInit.SuitAll s.entity members
  | .unary _ operand => operand.Suits s
  | .binary _ left right => left.Suits s ∧ right.Suits s
  | .typeTest value _ => value.Suits s
  | .update _ _ target => target.Suits s
  | .assign _ target value => target.Suits s ∧ value.Suits s
  | .conditional condition thenBranch elseBranch =>
    condition.Suits s ∧ thenBranch.Suits s ∧ elseBranch.Suits s
  | .pipe value function => value.Suits s ∧ function.Suits s
  | .call callee args => callee.Suits s ∧ Expr.SuitAll s args
  | .member object _ | .tupleIndex object _ => object.Suits s
  | .index object index => object.Suits s ∧ index.Suits s
  | .function definition => definition.Suits s
  | .block body => body.Suits s
  | .async body | .safe body => body.Suits s.body
  | .lock key body => Expr.SuitsIfAny s key ∧ body.Suits s.body
  | .matchOn scrutinee arms => scrutinee.Suits s ∧ Arm.SuitAll s arms

/-- `Expr.Suits` for each of some expressions. -/
def Expr.SuitAll (s : Site) : List Expr → Prop
  | [] => True
  | e :: es => e.Suits s ∧ Expr.SuitAll s es

/-- `Expr.Suits` for an expression that may be left out. -/
def Expr.SuitsIfAny (s : Site) : Option Expr → Prop
  | none => True
  | some e => e.Suits s

/-- `Expr.Suits` for the keys and values of map entries. -/
def Expr.EntriesSuit (s : Site) : List (Expr × Expr) → Prop
  | [] => True
  | (key, value) :: entries => key.Suits s ∧ value.Suits s ∧ Expr.EntriesSuit s entries

/-- `Expr.Suits` for the values of members. -/
def MemberInit.SuitAll (s : Site) : List MemberInit → Prop
  | [] => True
  | ⟨_, value, _⟩ :: members => value.Suits s ∧ MemberInit.SuitAll s members

/-- Every form inside the left side of an assignment has the surroundings it is meant for. -/
def AssignTarget.Suits (s : Site) : AssignTarget → Prop
  | .place place => place.Suits s
  | .pattern _ => True

/-- Every form inside a function has the surroundings it is meant for. -/
def FunctionDef.Suits (s : Site) : FunctionDef → Prop
  | ⟨_, _, body, _⟩ => body.Suits s.body

/-- Every form inside a body has the surroundings it is meant for. -/
def Body.Suits (s : Site) : Body → Prop
  | .block body => body.Suits s
  | .expr value => value.Suits s

/-- Every form inside the guards and bodies of arms has the surroundings it is meant for. -/
def Arm.SuitAll (s : Site) : List Arm → Prop
  | [] => True
  | ⟨_, guard, body, _⟩ :: arms => Expr.SuitsIfAny s guard ∧ body.Suits s ∧ Arm.SuitAll s arms

/-- Every form inside a block has the surroundings it is meant for. -/
def Block.Suits (s : Site) : Block → Prop
  | ⟨statements, _⟩ => Stmt.SuitAll s statements

/-- `Block.Suits` for a block that may be left out. -/
def Block.SuitsIfAny (s : Site) : Option Block → Prop
  | none => True
  | some b => b.Suits s

/-- Every form inside a statement has the surroundings it is meant for. -/
def Stmt.Suits (s : Site) : Stmt → Prop
  | ⟨_, kind⟩ => kind.Suits s

/-- `Stmt.Suits` for each of some statements. -/
def Stmt.SuitAll (s : Site) : List Stmt → Prop
  | [] => True
  | statement :: statements => statement.Suits s ∧ Stmt.SuitAll s statements

/-- `Stmt.Suits` for a statement that may be left out. -/
def Stmt.SuitsIfAny (s : Site) : Option Stmt → Prop
  | none => True
  | some statement => statement.Suits s

/-- Every form inside a statement of this kind has the surroundings it is meant for. -/
def StmtKind.Suits (s : Site) : StmtKind → Prop
  | .declare _ declarators => Declarator.SuitAll s declarators
  | .function definition => definition.Suits s
  | .branch condition thenBranch elseBranch =>
    condition.Suits s ∧ thenBranch.Suits s ∧ Block.SuitsIfAny s elseBranch
  | .whileLoop condition body | .doWhile body condition => condition.Suits s ∧ body.Suits s.loop
  | .forLoop start condition update body =>
    Stmt.SuitsIfAny s start ∧ Expr.SuitsIfAny s condition ∧ Expr.SuitsIfAny s update ∧
      body.Suits s.loop
  | .each _ _ iterable body => iterable.Suits s ∧ body.Suits s.loop
  | .matchOn scrutinee arms => scrutinee.Suits s ∧ Arm.SuitAll s arms
  | .returnWith value => Expr.SuitsIfAny s value
  | .breakLoop | .continueLoop => s.inLoop = true
  | .importFrom _ _ | .exportNames _ => True
  | .namespaceBlock _ body => body.Suits s
  | .expression value _ => value.Suits s

/-- Every form inside the values of declarations has the surroundings it is meant for. -/
def Declarator.SuitAll (s : Site) : List Declarator → Prop
  | [] => True
  | ⟨_, value, _⟩ :: declarators => Expr.SuitsIfAny s value ∧ Declarator.SuitAll s declarators

end

end ScriptEngine
