import ScriptEngine.Tree.Basic

/-!
# The parts of a tree

An analysis walks over the expressions whose values are used, the places that are written, and the
patterns that values are assigned by.

* `Part`: one of these.
* `Expr.parts`, `Stmt.parts` and the others: those inside a part of a tree, each once.
* `Module.parts`, `Module.exprs`: those of a module, and the expressions among them.
* `Stmt.mem_allParts`: the functions of a block and its other statements have all its parts.
-/

namespace ScriptEngine

/-- What an analysis walks over. -/
inductive Part
  /-- An expression whose value is used. -/
  | value (e : Expr)
  /-- The place that an assignment or a step writes to. -/
  | place (e : Expr)
  /-- The pattern that a value is assigned by. -/
  | pattern (p : Pattern)

namespace Part

/-- The expression that a part is. -/
def expr? : Part → Option Expr
  | .value e | .place e => some e
  | .pattern _ => none

/-- A name is written to by a part. -/
def Writes (name : String) : Part → Prop
  | .value _ => False
  | .place e => e.kind = .name name
  | .pattern p => name ∈ p.bindings

end Part

mutual

/-- The parts of an expression whose value is used. -/
def Expr.parts : Expr → List Part
  | ⟨id, position, kind⟩ => kind.parts ++ [.value ⟨id, position, kind⟩]

/-- The parts of a place that is written. -/
def Expr.placeParts : Expr → List Part
  | ⟨id, position, kind⟩ => kind.parts ++ [.place ⟨id, position, kind⟩]

/-- The parts inside an expression of this kind. -/
def ExprKind.parts : ExprKind → List Part
  | .literal _ | .name _ | .this | .base | .external _ => []
  | .scoped space _ => space.parts
  | .array items | .tuple items => Expr.allParts items
  | .map entries => Expr.entryParts entries
  | .entity members | .construct _ members => MemberInit.allParts members
  | .extend base members => base.parts ++ MemberInit.allParts members
  | .unary _ operand => operand.parts
  | .binary _ left right => left.parts ++ right.parts
  | .typeTest value _ => value.parts
  | .update _ _ target => target.placeParts
  | .assign _ target value => value.parts ++ target.parts
  | .conditional condition thenBranch elseBranch =>
    condition.parts ++ (thenBranch.parts ++ elseBranch.parts)
  | .pipe value function => value.parts ++ function.parts
  | .call callee args => callee.parts ++ Expr.allParts args
  | .member object _ | .tupleIndex object _ => object.parts
  | .index object index => object.parts ++ index.parts
  | .function definition => definition.parts
  | .block body | .async body | .safe body => body.parts
  | .lock key body => Expr.partsIfAny key ++ body.parts
  | .matchOn scrutinee arms => scrutinee.parts ++ Arm.allParts arms

/-- The parts of expressions. -/
def Expr.allParts : List Expr → List Part
  | [] => []
  | item :: items => item.parts ++ Expr.allParts items

/-- The parts of an expression that may be left out. -/
def Expr.partsIfAny : Option Expr → List Part
  | none => []
  | some value => value.parts

/-- The parts of the keys and values of map entries. -/
def Expr.entryParts : List (Expr × Expr) → List Part
  | [] => []
  | (key, value) :: entries => key.parts ++ (value.parts ++ Expr.entryParts entries)

/-- The parts of the values of members. -/
def MemberInit.allParts : List MemberInit → List Part
  | [] => []
  | ⟨_, value, _⟩ :: members => value.parts ++ MemberInit.allParts members

/-- The parts of the left side of an assignment. -/
def AssignTarget.parts : AssignTarget → List Part
  | .place place => place.placeParts
  | .pattern pattern => [.pattern pattern]

/-- The parts of a function. -/
def FunctionDef.parts : FunctionDef → List Part
  | ⟨_, _, body, _⟩ => body.parts

/-- The parts of a body. -/
def Body.parts : Body → List Part
  | .block body => body.parts
  | .expr value => value.parts

/-- The parts of the guards and bodies of arms. -/
def Arm.allParts : List Arm → List Part
  | [] => []
  | ⟨_, guard, body, _⟩ :: arms => Expr.partsIfAny guard ++ body.parts ++ Arm.allParts arms

/-- The parts of a block. -/
def Block.parts : Block → List Part
  | ⟨statements, _⟩ => Stmt.allParts statements

/-- The parts of a block that may be left out. -/
def Block.partsIfAny : Option Block → List Part
  | none => []
  | some body => body.parts

/-- The parts of a statement. -/
def Stmt.parts : Stmt → List Part
  | ⟨_, kind⟩ => kind.parts

/-- The parts of statements. -/
def Stmt.allParts : List Stmt → List Part
  | [] => []
  | statement :: rest => statement.parts ++ Stmt.allParts rest

/-- The parts of a statement that may be left out. -/
def Stmt.partsIfAny : Option Stmt → List Part
  | none => []
  | some statement => statement.parts

/-- The parts of a statement of this kind. -/
def StmtKind.parts : StmtKind → List Part
  | .declare _ declarators => Declarator.allParts declarators
  | .function definition => definition.parts
  | .branch condition thenBranch elseBranch =>
    condition.parts ++ (thenBranch.parts ++ Block.partsIfAny elseBranch)
  | .whileLoop condition body | .doWhile body condition => condition.parts ++ body.parts
  | .forLoop start condition update body =>
    Stmt.partsIfAny start ++
      (Expr.partsIfAny condition ++ (Expr.partsIfAny update ++ body.parts))
  | .each _ _ iterable body => iterable.parts ++ body.parts
  | .matchOn scrutinee arms => scrutinee.parts ++ Arm.allParts arms
  | .returnWith value => Expr.partsIfAny value
  | .breakLoop | .continueLoop | .importFrom _ _ | .exportNames _ => []
  | .namespaceBlock _ body => body.parts
  | .expression value _ => value.parts

/-- The parts of the values of declarations. -/
def Declarator.allParts : List Declarator → List Part
  | [] => []
  | ⟨_, value, _⟩ :: declarators => Expr.partsIfAny value ++ Declarator.allParts declarators

end

/-- The parts of a module. -/
def Module.parts (m : Module) : List Part := Stmt.allParts m.statements

/-- The expressions of a module. -/
def Module.exprs (m : Module) : List Expr := m.parts.filterMap Part.expr?

/-! ## The statements of a block -/

/-- The parts of a statement that is a function. -/
def Stmt.functionParts (s : Stmt) : List Part :=
  match s.kind with
  | .function definition => definition.parts
  | _ => []

/-- The parts of a statement that is no function. -/
def Stmt.plainParts (s : Stmt) : List Part :=
  match s.kind with
  | .function _ => []
  | kind => kind.parts

/-- The functions of a block and its other statements have all its parts. -/
theorem Stmt.mem_allParts {statements : List Stmt} {part : Part} :
    part ∈ Stmt.allParts statements ↔
      part ∈ statements.flatMap (·.plainParts) ++ statements.flatMap (·.functionParts) := by
  induction statements with
  | nil => simp [allParts]
  | cons s rest ih =>
    have split : part ∈ s.parts ↔ part ∈ s.plainParts ∨ part ∈ s.functionParts := by
      obtain ⟨position, kind⟩ := s
      cases kind <;> simp [parts, plainParts, functionParts, StmtKind.parts]
    simp only [allParts, List.flatMap_cons, List.mem_append] at ih ⊢
    rw [ih, split, or_or_or_comm]

end ScriptEngine
