import ScriptEngine.Tree.Operator

/-!
# Syntax trees

The tree of a module: statements, expressions, and the patterns that take values apart. Every
expression carries a number that is its own within the module, by which an analysis refers to it.
-/

namespace ScriptEngine

/-- Values written as themselves. -/
inductive Literal
  | number (value : Float)
  | string (value : String)
  | bool (value : Bool)
  | null
  | unit
deriving Repr, DecidableEq, Inhabited

/-- The shape that a value is taken apart by. -/
inductive Pattern
  | wildcard
  /-- Any number of items, in a list of items. -/
  | rest
  | bind (name : String)
  | literal (value : Literal)
  | tuple (items : List Pattern)
  | array (items : List Pattern)
deriving Repr, Inhabited

namespace Pattern

/-- The mark for any number of items. -/
def isRest : Pattern → Bool
  | .rest => true
  | _ => false

/-- A plain name. -/
def isBind : Pattern → Bool
  | .bind _ => true
  | _ => false

mutual
/-- The names that a pattern binds, in the order they are written. -/
def bindings : Pattern → List String
  | .bind name => [name]
  | .tuple items | .array items => bindingsOfAll items
  | .wildcard | .rest | .literal _ => []

/-- The names that a list of patterns binds. -/
def bindingsOfAll : List Pattern → List String
  | [] => []
  | item :: items => item.bindings ++ bindingsOfAll items
end

end Pattern

/-- Whether a declaration uses `let` or `var`. -/
inductive BindingWord
  | letWord
  | varWord
deriving Repr, DecidableEq, Inhabited

/-- An imported name and the name it gets. -/
structure ImportItem where
  name : String
  localName? : Option String
deriving Repr, DecidableEq, Inhabited

/-- The name that an import has in the importing module. -/
def ImportItem.localName (item : ImportItem) : String :=
  item.localName?.getD item.name

mutual

/-- An expression. -/
structure Expr where
  id : Nat
  position : Position
  kind : ExprKind

/-- What an expression is. -/
inductive ExprKind where
  | literal (value : Literal)
  | name (name : String)
  | this
  | base
  /-- A name of the host, looked up where it is used: `ext::name`. -/
  | external (name : String)
  /-- A name inside a namespace: `ns::name`. -/
  | scoped (space : Expr) (name : String)
  | array (items : List Expr)
  | map (entries : List (Expr × Expr))
  | tuple (items : List Expr)
  | entity (members : List MemberInit)
  /-- An entity over another one: `base::` and members in braces. -/
  | extend (base : Expr) (members : List MemberInit)
  /-- An object of a host class. -/
  | construct (className : String) (members : List MemberInit)
  | unary (op : UnaryOp) (operand : Expr)
  | binary (op : BinaryOp) (left right : Expr)
  | typeTest (value : Expr) (typeName : TypeName)
  | update (op : UpdateOp) (before : Bool) (target : Expr)
  | assign (op : AssignOp) (target : AssignTarget) (value : Expr)
  | conditional (condition thenBranch elseBranch : Expr)
  /-- A function applied from the right: `value >> function`. -/
  | pipe (value function : Expr)
  | call (callee : Expr) (args : List Expr)
  | member (object : Expr) (name : String)
  | tupleIndex (object : Expr) (index : Nat)
  | index (object index : Expr)
  | function (definition : FunctionDef)
  | block (body : Block)
  | async (body : Block)
  | safe (body : Block)
  | lock (key : Option Expr) (body : Block)
  | matchOn (scrutinee : Expr) (arms : List Arm)

/-- A member of an entity and its first value. -/
structure MemberInit where
  name : String
  value : Expr
  position : Position

/-- The left side of an assignment. -/
inductive AssignTarget where
  | place (place : Expr)
  | pattern (pattern : Pattern)

/-- A function: its name, if it has one, its parameters and its body. -/
structure FunctionDef where
  name : Option String
  params : List String
  body : Body
  position : Position

/-- The body of a function or of a match arm. -/
inductive Body where
  | block (body : Block)
  | expr (value : Expr)

/-- One case of a match. -/
structure Arm where
  pattern : Pattern
  guard : Option Expr
  body : Body
  position : Position

/-- Statements between braces, or those of a whole module. -/
structure Block where
  statements : List Stmt
  position : Position

/-- A statement. -/
structure Stmt where
  position : Position
  kind : StmtKind

/-- What a statement is. -/
inductive StmtKind where
  | declare (word : BindingWord) (declarators : List Declarator)
  | function (definition : FunctionDef)
  | branch (condition : Expr) (thenBranch : Block) (elseBranch : Option Block)
  | whileLoop (condition : Expr) (body : Block)
  | doWhile (body : Block) (condition : Expr)
  | forLoop (start : Option Stmt) (condition update : Option Expr) (body : Block)
  | each (item : String) (index : Option String) (iterable : Expr) (body : Block)
  | matchOn (scrutinee : Expr) (arms : List Arm)
  | returnWith (value : Option Expr)
  | breakLoop
  | continueLoop
  | importFrom (items : List ImportItem) (module : String)
  | exportNames (names : List String)
  | namespaceBlock (name : String) (body : Block)
  | expression (value : Expr) (terminated : Bool)

/-- One name or pattern of a declaration. -/
structure Declarator where
  target : Pattern
  value : Option Expr
  position : Position

end

instance : Inhabited Expr := ⟨⟨0, .nowhere, .this⟩⟩
instance : Inhabited ExprKind := ⟨.this⟩
instance : Inhabited Block := ⟨⟨[], .nowhere⟩⟩
instance : Inhabited Body := ⟨.block default⟩
instance : Inhabited StmtKind := ⟨.breakLoop⟩
instance : Inhabited Stmt := ⟨⟨.nowhere, .breakLoop⟩⟩
instance : Inhabited FunctionDef := ⟨⟨none, [], default, .nowhere⟩⟩

/-- Whether a statement declares names in the frame it stands in. -/
def Stmt.declares (s : Stmt) : Bool :=
  match s.kind with
  | .declare .. | .function _ | .importFrom .. | .namespaceBlock .. => true
  | _ => false

/-- Whether a block declares names of its own. -/
def Block.declares (b : Block) : Bool := b.statements.any (·.declares)

/-- What may stand left of an assignment or be stepped up and down. -/
def Expr.isPlace (e : Expr) : Bool :=
  match e.kind with
  | .name _ | .member .. | .index .. | .tupleIndex .. => true
  | _ => false

/-- Assignments and steps never complete a body as its last value. -/
def Expr.isAssignmentLike (e : Expr) : Bool :=
  match e.kind with
  | .assign .. | .update .. => true
  | _ => false

/-- The last expression of a block, when no semicolon ends it. -/
def Block.tail? (b : Block) : Option Expr :=
  match b.statements.getLast? with
  | some ⟨_, .expression value false⟩ => some value
  | _ => none

/-- A named module and its statements. -/
structure Module where
  name : String
  body : Block
deriving Inhabited

namespace Module

/-- The statements of a module. -/
def statements (m : Module) : List Stmt :=
  m.body.statements

/-- The imports of a module: items, exporting module and place. -/
def imports (m : Module) : List (List ImportItem × String × Position) :=
  m.statements.filterMap fun s =>
    match s.kind with
    | .importFrom items source => some (items, source, s.position)
    | _ => none

/-- The exported names of a module with the place of their export. -/
def exports (m : Module) : List (String × Position) :=
  m.statements.flatMap fun s =>
    match s.kind with
    | .exportNames names => names.map fun name => (name, s.position)
    | _ => []

end Module

end ScriptEngine
