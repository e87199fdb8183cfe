import ScriptEngine.Json.Basic
import ScriptEngine.Tree.Outline

/-!
# Syntax trees as JSON documents

The document of a tree shows every node with its place. A node that is one of several kinds is an
object with the name of its kind as the only key. Numbers are written as texts, so that none loses
digits. Notes can be added to the documents of expressions.
-/

namespace ScriptEngine

/-- The name of an operator in documents. -/
def BinaryOp.label : BinaryOp → String
  | .add => "Add"
  | .subtract => "Subtract"
  | .multiply => "Multiply"
  | .divide => "Divide"
  | .modulo => "Modulo"
  | .equal => "Equal"
  | .notEqual => "NotEqual"
  | .less => "Less"
  | .lessEqual => "LessEqual"
  | .greater => "Greater"
  | .greaterEqual => "GreaterEqual"
  | .and => "And"
  | .or => "Or"
  | .bitAnd => "BitAnd"
  | .bitOr => "BitOr"
  | .bitXor => "BitXor"
  | .shiftLeft => "ShiftLeft"

namespace Document

/-- What the document of an expression has beside its kind and place, by the number of the
expression. -/
abbrev Notes := Nat → List (String × Json)

/-- A place: line, column and offset. -/
def place (p : Position) : Json :=
  .string (Decimal.natText p.line ++ ":" ++ Decimal.natText p.column ++ ":" ++
    Decimal.natText p.offset)

/-- A node under the name of its kind. -/
def node (kind : String) (content : Json) : Json := .object [(kind, content)]

/-- A node with several named parts, under the name of its kind. -/
def parts (kind : String) (members : List (String × Json)) : Json := node kind (.object members)

/-- A part that may be missing. -/
def maybe {α : Type} (f : α → Json) : Option α → Json
  | some value => f value
  | none => .null

/-- Texts as an array. -/
def texts (items : List String) : Json := .array (items.map .string)

/-- A whole number. -/
def count (n : Nat) : Json := .number (Float.ofNat n)

/-- A literal. A number too large to be one has no text. -/
def literal : Literal → Json
  | .number value =>
    node "Number" (if value.isFinite then .string (Decimal.plain value) else .null)
  | .string value => node "String" (.string value)
  | .bool value => node "Bool" (.bool value)
  | .null => .string "Null"
  | .unit => .string "Unit"

mutual

/-- The document of a pattern. -/
def pattern : Pattern → Json
  | .wildcard => .string "Wildcard"
  | .rest => .string "Rest"
  | .bind name => node "Bind" (.string name)
  | .literal value => node "Literal" (literal value)
  | .tuple items => node "Tuple" (.array (patterns items))
  | .array items => node "Array" (.array (patterns items))

/-- The documents of patterns. -/
def patterns : List Pattern → List Json
  | [] => []
  | item :: items => pattern item :: patterns items

end

/-- An imported name. -/
def importItem (item : ImportItem) : Json :=
  .object [("name", .string item.name), ("alias", maybe .string item.localName?)]

mutual

/-- The document of an expression. -/
def expr (notes : Notes) : Expr → Json
  | ⟨id, position, kind⟩ =>
    .object ([("kind", exprKind notes kind), ("position", place position)] ++ notes id)

/-- The document of what an expression is. -/
def exprKind (notes : Notes) : ExprKind → Json
  | .literal value => node "Literal" (literal value)
  | .name name => node "Identifier" (.string name)
  | .this => .string "This"
  | .base => .string "Base"
  | .external name => node "External" (.string name)
  | .scoped space name =>
    parts "Scoped" [("namespace", expr notes space), ("name", .string name)]
  | .array items => node "Array" (.array (exprs notes items))
  | .map pairs => node "Map" (.array (entries notes pairs))
  | .tuple items => node "Tuple" (.array (exprs notes items))
  | .entity inits => node "Entity" (.array (members notes inits))
  | .extend base inits =>
    parts "Extend" [("base", expr notes base), ("members", .array (members notes inits))]
  | .construct name inits =>
    parts "Construct" [("class", .string name), ("members", .array (members notes inits))]
  | .unary op operand =>
    parts "Unary" [("op", .string op.label), ("operand", expr notes operand)]
  | .binary op left right =>
    parts "Binary" [("op", .string op.label), ("left", expr notes left),
      ("right", expr notes right)]
  | .typeTest value name =>
    parts "TypeTest" [("value", expr notes value), ("type_name", .string name.label)]
  | .update op before target =>
    parts "Update" [("op", .string op.label), ("prefix", .bool before),
      ("target", expr notes target)]
  | .assign op target value =>
    parts "Assign" [("op", .string op.label), ("target", assignTarget notes target),
      ("value", expr notes value)]
  | .conditional condition thenBranch elseBranch =>
    parts "Conditional" [("condition", expr notes condition),
      ("then_branch", expr notes thenBranch), ("else_branch", expr notes elseBranch)]
  | .pipe value function =>
    parts "Pipe" [("value", expr notes value), ("function", expr notes function)]
  | .call callee args =>
    parts "Call" [("callee", expr notes callee), ("args", .array (exprs notes args))]
  | .member object name =>
    parts "Member" [("object", expr notes object), ("name", .string name)]
  | .tupleIndex object index =>
    parts "TupleIndex" [("object", expr notes object), ("index", count index)]
  | .index object index =>
    parts "Index" [("object", expr notes object), ("index", expr notes index)]
  | .function definition => node "Function" (function notes definition)
  | .block inner => node "Block" (block notes inner)
  | .async inner => node "Async" (block notes inner)
  | .safe inner => node "Safe" (block notes inner)
  | .lock key inner => parts "Lock" [("key", exprOption notes key), ("body", block notes inner)]
  | .matchOn scrutinee cases =>
    parts "Match" [("scrutinee", expr notes scrutinee), ("arms", .array (arms notes cases))]

/-- The documents of expressions. -/
def exprs (notes : Notes) : List Expr → List Json
  | [] => []
  | item :: items => expr notes item :: exprs notes items

/-- The document of an expression that may be missing. -/
def exprOption (notes : Notes) : Option Expr → Json
  | none => .null
  | some value => expr notes value

/-- The documents of the entries of a map. -/
def entries (notes : Notes) : List (Expr × Expr) → List Json
  | [] => []
  | (key, value) :: rest => .array [expr notes key, expr notes value] :: entries notes rest

/-- The documents of the members of an entity. -/
def members (notes : Notes) : List MemberInit → List Json
  | [] => []
  | ⟨name, value, position⟩ :: rest =>
    .object [("name", .string name), ("value", expr notes value), ("position", place position)] ::
      members notes rest

/-- The document of the left side of an assignment. -/
def assignTarget (notes : Notes) : AssignTarget → Json
  | .place place => node "Place" (expr notes place)
  | .pattern target => node "Pattern" (pattern target)

/-- The document of a function. -/
def function (notes : Notes) : FunctionDef → Json
  | ⟨name, params, inner, position⟩ =>
    .object [("name", maybe .string name), ("params", texts params), ("body", body notes inner),
      ("position", place position)]

/-- The document of the body of a function or of an arm. -/
def body (notes : Notes) : Body → Json
  | .block inner => node "Block" (block notes inner)
  | .expr value => node "Expr" (expr notes value)

/-- The documents of the arms of a match. -/
def arms (notes : Notes) : List Arm → List Json
  | [] => []
  | ⟨shape, guard, inner, position⟩ :: rest =>
    .object [("pattern", pattern shape), ("guard", exprOption notes guard),
      ("body", body notes inner), ("position", place position)] :: arms notes rest

/-- The document of a block. -/
def block (notes : Notes) : Block → Json
  | ⟨statements, position⟩ =>
    .object [("statements", .array (stmts notes statements)), ("position", place position)]

/-- The document of a block that may be missing. -/
def blockOption (notes : Notes) : Option Block → Json
  | none => .null
  | some inner => block notes inner

/-- The document of a statement. -/
def stmt (notes : Notes) : Stmt → Json
  | ⟨position, kind⟩ =>
    .object [("kind", stmtKind notes kind), ("position", place position)]

/-- The document of a statement that may be missing. -/
def stmtOption (notes : Notes) : Option Stmt → Json
  | none => .null
  | some inner => stmt notes inner

/-- The documents of statements. -/
def stmts (notes : Notes) : List Stmt → List Json
  | [] => []
  | item :: items => stmt notes item :: stmts notes items

/-- The document of what a statement is. -/
def stmtKind (notes : Notes) : StmtKind → Json
  | .declare word items =>
    parts "Declare"
      [("kind", .string word.label), ("declarators", .array (declarators notes items))]
  | .function definition => node "Function" (function notes definition)
  | .branch condition thenBranch elseBranch =>
    parts "If" [("condition", expr notes condition), ("then_branch", block notes thenBranch),
      ("else_branch", blockOption notes elseBranch)]
  | .whileLoop condition inner =>
    parts "While" [("condition", expr notes condition), ("body", block notes inner)]
  | .doWhile inner condition =>
    parts "DoWhile" [("body", block notes inner), ("condition", expr notes condition)]
  | .forLoop start condition update inner =>
    parts "For" [("init", stmtOption notes start), ("condition", exprOption notes condition),
      ("update", exprOption notes update), ("body", block notes inner)]
  | .each item index iterable inner =>
    parts "Each" [("item", .string item), ("index", maybe .string index),
      ("iterable", expr notes iterable), ("body", block notes inner)]
  | .matchOn scrutinee cases =>
    parts "Match" [("scrutinee", expr notes scrutinee), ("arms", .array (arms notes cases))]
  | .returnWith value => node "Return" (exprOption notes value)
  | .breakLoop => .string "Break"
  | .continueLoop => .string "Continue"
  | .importFrom items module =>
    parts "Import" [("items", .array (items.map importItem)), ("module", .string module)]
  | .exportNames names => node "Export" (texts names)
  | .namespaceBlock name inner =>
    parts "Namespace" [("name", .string name), ("body", block notes inner)]
  | .expression value terminated =>
    parts "Expression" [("expr", expr notes value), ("terminated", .bool terminated)]

/-- The documents of the parts of a declaration. -/
def declarators (notes : Notes) : List Declarator → List Json
  | [] => []
  | ⟨target, value, position⟩ :: rest =>
    .object [("target", pattern target), ("value", exprOption notes value),
      ("position", place position)] :: declarators notes rest

end

end Document

/-- The document of the statements of a module. -/
def Module.document (m : Module) (notes : Document.Notes) : Json :=
  .array (Document.stmts notes m.statements)

end ScriptEngine
