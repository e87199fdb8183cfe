import ScriptEngine.Text.Quoted
import ScriptEngine.Tree.Basic

/-!
# Outlines of syntax trees

The outline of a module shows one node a line, each below the one it belongs to and two blanks
further in.
-/

namespace ScriptEngine

/-! ## Words of the outline -/

/-- The word for the kind of a declaration. -/
def BindingWord.label : BindingWord → String
  | .letWord => "Let"
  | .varWord => "Var"

/-- The word for an operator in front of an operand. -/
def UnaryOp.label : UnaryOp → String
  | .negate => "Negate"
  | .plus => "Plus"
  | .not => "Not"
  | .bitNot => "BitNot"

/-- The word for the operator of an assignment. -/
def AssignOp.label : AssignOp → String
  | .assign => "Assign"
  | .add => "Add"
  | .subtract => "Subtract"
  | .multiply => "Multiply"
  | .divide => "Divide"
  | .modulo => "Modulo"

/-- The word for a step up or down. -/
def UpdateOp.label : UpdateOp → String
  | .increment => "Increment"
  | .decrement => "Decrement"

/-- The word for the type of a type test. -/
def TypeName.label : TypeName → String
  | .number => "Number"
  | .string => "String"
  | .bool => "Bool"
  | .unit => "Unit"
  | .null => "Null"
  | .array => "Array"
  | .tuple => "Tuple"
  | .map => "Map"
  | .object => "Object"
  | .function => "Function"
  | .promise => "Promise"
  | .external => "External"

/-- The source form of a literal. -/
def Literal.text : Literal → String
  | .number value => Decimal.plain value
  | .string value => Text.quoted value
  | .bool true => "true"
  | .bool false => "false"
  | .null => "null"
  | .unit => "()"

mutual
/-- The source form of a pattern. -/
def Pattern.text : Pattern → String
  | .wildcard => "_"
  | .rest => ".."
  | .bind name => name
  | .literal value => value.text
  | .tuple items => "(" ++ ", ".intercalate (Pattern.texts items) ++ ")"
  | .array items => "[" ++ ", ".intercalate (Pattern.texts items) ++ "]"

/-- The source forms of patterns. -/
def Pattern.texts : List Pattern → List String
  | [] => []
  | item :: items => item.text :: Pattern.texts items
end

/-- The source form of an imported name. -/
def ImportItem.text (item : ImportItem) : String :=
  match item.localName? with
  | some other => item.name ++ " as " ++ other
  | none => item.name

namespace Outline

/-- A line of the outline. -/
def line (depth : Nat) (text : String) : String :=
  String.ofList (List.replicate (2 * depth) ' ') ++ text ++ "\n"

mutual

/-- The lines of an expression and what is inside it. -/
def expr (depth : Nat) : Expr → String
  | ⟨_, _, kind⟩ => exprKind depth kind

/-- The lines of what an expression is. -/
def exprKind (depth : Nat) : ExprKind → String
  | .literal value => line depth ("Literal " ++ value.text)
  | .name name => line depth ("Identifier " ++ name)
  | .this => line depth "This"
  | .base => line depth "Base"
  | .external name => line depth ("External " ++ name)
  | .scoped space name => line depth ("ScopedName ::" ++ name) ++ expr (depth + 1) space
  | .array items => line depth "ArrayLiteral" ++ exprs (depth + 1) items
  | .map pairs => line depth "MapLiteral" ++ entries (depth + 1) pairs
  | .tuple items => line depth "TupleLiteral" ++ exprs (depth + 1) items
  | .entity inits => line depth "EntityLiteral" ++ members (depth + 1) inits
  | .extend base inits =>
    line depth "EntityExtend" ++ expr (depth + 1) base ++ members (depth + 1) inits
  | .construct name inits => line depth ("Construct " ++ name) ++ members (depth + 1) inits
  | .unary op operand => line depth ("Unary " ++ op.label) ++ expr (depth + 1) operand
  | .binary op left right =>
    line depth ("Binary " ++ op.symbol) ++ expr (depth + 1) left ++ expr (depth + 1) right
  | .typeTest value name => line depth ("TypeTest <: " ++ name.label) ++ expr (depth + 1) value
  | .update op before target =>
    line depth ("Update " ++ op.label ++ if before then " prefix" else " postfix") ++
      expr (depth + 1) target
  | .assign op target value =>
    line depth ("Assign " ++ op.label) ++ assignTarget (depth + 1) target ++ expr (depth + 1) value
  | .conditional condition thenBranch elseBranch =>
    line depth "Conditional" ++ expr (depth + 1) condition ++ expr (depth + 1) thenBranch ++
      expr (depth + 1) elseBranch
  | .pipe value function =>
    line depth "Pipe" ++ expr (depth + 1) value ++ expr (depth + 1) function
  | .call callee args => line depth "Call" ++ expr (depth + 1) callee ++ exprs (depth + 1) args
  | .member object name => line depth ("Member ." ++ name) ++ expr (depth + 1) object
  | .tupleIndex object index =>
    line depth ("TupleIndex ." ++ Decimal.natText index) ++ expr (depth + 1) object
  | .index object index =>
    line depth "Index" ++ expr (depth + 1) object ++ expr (depth + 1) index
  | .function ⟨_, params, inner, _⟩ =>
    line depth ("Function (" ++ ", ".intercalate params ++ ")") ++ body (depth + 1) inner
  | .block inner => line depth "BlockExpression" ++ block (depth + 1) inner
  | .async inner => line depth "Async" ++ block (depth + 1) inner
  | .safe inner => line depth "Safe" ++ block (depth + 1) inner
  | .lock key inner => line depth "Lock" ++ exprOption (depth + 1) key ++ block (depth + 1) inner
  | .matchOn scrutinee cases =>
    line depth "Match" ++ expr (depth + 1) scrutinee ++ arms (depth + 1) cases

/-- The lines of expressions. -/
def exprs (depth : Nat) : List Expr → String
  | [] => ""
  | item :: items => expr depth item ++ exprs depth items

/-- The lines of an expression that may be missing. -/
def exprOption (depth : Nat) : Option Expr → String
  | none => ""
  | some value => expr depth value

/-- The lines of map entries: a value stands below its key. -/
def entries (depth : Nat) : List (Expr × Expr) → String
  | [] => ""
  | (key, value) :: rest => expr depth key ++ expr (depth + 1) value ++ entries depth rest

/-- The lines of the members of an entity. -/
def members (depth : Nat) : List MemberInit → String
  | [] => ""
  | ⟨name, value, _⟩ :: rest =>
    line depth (name ++ ":") ++ expr (depth + 1) value ++ members depth rest

/-- The lines of the left side of an assignment. -/
def assignTarget (depth : Nat) : AssignTarget → String
  | .place place => expr depth place
  | .pattern pattern => line depth pattern.text

/-- The lines of the body of a function or of an arm. -/
def body (depth : Nat) : Body → String
  | .block inner => block depth inner
  | .expr value => expr depth value

/-- The lines of the arms of a match. -/
def arms (depth : Nat) : List Arm → String
  | [] => ""
  | ⟨pattern, guard, inner, _⟩ :: rest =>
    line depth ("Arm " ++ pattern.text ++ if guard.isSome then " if" else "") ++
      exprOption (depth + 1) guard ++ body (depth + 1) inner ++ arms depth rest

/-- The lines of a block. -/
def block (depth : Nat) : Block → String
  | ⟨statements, _⟩ => line depth "Block" ++ stmts (depth + 1) statements

/-- The lines of a block that may be missing. -/
def blockOption (depth : Nat) : Option Block → String
  | none => ""
  | some inner => block depth inner

/-- The lines of a statement and what is inside it. -/
def stmt (depth : Nat) : Stmt → String
  | ⟨_, kind⟩ => stmtKind depth kind

/-- The lines of a statement that may be missing. -/
def stmtOption (depth : Nat) : Option Stmt → String
  | none => ""
  | some inner => stmt depth inner

/-- The lines of statements. -/
def stmts (depth : Nat) : List Stmt → String
  | [] => ""
  | item :: items => stmt depth item ++ stmts depth items

/-- The lines of what a statement is. -/
def stmtKind (depth : Nat) : StmtKind → String
  | .declare word items => line depth ("Declare " ++ word.label) ++ declarators (depth + 1) items
  | .function ⟨name, params, inner, _⟩ =>
    line depth ("FunctionDeclare " ++ name.getD "<anonymous>" ++ "(" ++ ", ".intercalate params ++
      ")") ++ body (depth + 1) inner
  | .branch condition thenBranch elseBranch =>
    line depth "If" ++ expr (depth + 1) condition ++ block (depth + 1) thenBranch ++
      blockOption (depth + 1) elseBranch
  | .whileLoop condition inner =>
    line depth "While" ++ expr (depth + 1) condition ++ block (depth + 1) inner
  | .doWhile inner condition =>
    line depth "DoWhile" ++ expr (depth + 1) condition ++ block (depth + 1) inner
  | .forLoop start condition update inner =>
    line depth "For" ++ stmtOption (depth + 1) start ++ exprOption (depth + 1) condition ++
      exprOption (depth + 1) update ++ block (depth + 1) inner
  | .each item none iterable inner =>
    line depth ("Each " ++ item) ++ expr (depth + 1) iterable ++ block (depth + 1) inner
  | .each item (some index) iterable inner =>
    line depth ("Each (" ++ item ++ ", " ++ index ++ ")") ++ expr (depth + 1) iterable ++
      block (depth + 1) inner
  | .matchOn scrutinee cases =>
    line depth "Match" ++ expr (depth + 1) scrutinee ++ arms (depth + 1) cases
  | .returnWith value => line depth "Return" ++ exprOption (depth + 1) value
  | .breakLoop => line depth "Break"
  | .continueLoop => line depth "Continue"
  | .importFrom items module =>
    line depth ("Import " ++ ", ".intercalate (items.map ImportItem.text) ++ " from " ++ module)
  | .exportNames names => line depth ("Export " ++ ", ".intercalate names)
  | .namespaceBlock name inner => line depth ("Namespace " ++ name) ++ block (depth + 1) inner
  | .expression value terminated =>
    line depth (if terminated then "ExpressionStatement" else "ExpressionStatement (tail)") ++
      expr (depth + 1) value

/-- The lines of the parts of a declaration. -/
def declarators (depth : Nat) : List Declarator → String
  | [] => ""
  | ⟨target, value, _⟩ :: rest =>
    line depth target.text ++ exprOption (depth + 1) value ++ declarators depth rest

end

end Outline

/-- The outline of a module. -/
def Module.outline (m : Module) : String :=
  "Program\n" ++ Outline.stmts 1 m.statements

end ScriptEngine
