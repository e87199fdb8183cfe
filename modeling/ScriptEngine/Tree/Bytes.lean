import ScriptEngine.Bytes.Codec
import ScriptEngine.Tree.Basic

/-!
# Syntax trees as bytes

Every node is written with its parts in order; a node that is one of several kinds begins with the
number of its kind. Expressions, statements, blocks and functions carry a number of their own in
front. Nothing refers to those of statements, blocks and functions: they are written as zero.
-/

namespace ScriptEngine.TreeBytes

open Codec

/-! ## Leaves -/

/-- The operators between two operands in the order of their numbers. -/
def binaryOps : List BinaryOp :=
  [.add, .subtract, .multiply, .divide, .modulo, .equal, .notEqual, .less, .lessEqual, .greater,
   .greaterEqual, .and, .or, .bitAnd, .bitOr, .bitXor, .shiftLeft]

/-- The operators in front of an operand in the order of their numbers. -/
def unaryOps : List UnaryOp := [.negate, .plus, .not, .bitNot]

/-- The operators of assignments in the order of their numbers. -/
def assignOps : List AssignOp := [.assign, .add, .subtract, .multiply, .divide, .modulo]

/-- The steps up and down in the order of their numbers. -/
def updateOps : List UpdateOp := [.increment, .decrement]

/-- The types of type tests in the order of their numbers. -/
def typeNames : List TypeName :=
  [.number, .string, .bool, .unit, .null, .array, .tuple, .map, .object, .function, .promise,
   .external]

/-- The words of declarations in the order of their numbers. -/
def bindingWords : List BindingWord := [.letWord, .varWord]

/-- Places: the line, the column and the offset. -/
def position : Codec Position where
  write p := count.write p.line ++ count.write p.column ++ count.write p.offset
  read := do return ⟨← count.read, ← count.read, ← count.read⟩

/-- Literals. -/
def literal : Codec Literal where
  write
    | .number value => tag.write 0 ++ float.write value
    | .string value => tag.write 1 ++ text.write value
    | .bool value => tag.write 2 ++ bool.write value
    | .null => tag.write 3
    | .unit => tag.write 4
  read := do
    match ← tag.read with
    | 0 => return .number (← float.read)
    | 1 => return .string (← text.read)
    | 2 => return .bool (← bool.read)
    | 3 => return .null
    | 4 => return .unit
    | _ => failure

/-- Imported names. -/
def importItem : Codec ImportItem where
  write item := text.write item.name ++ (option text).write item.localName?
  read := do return ⟨← text.read, ← (option text).read⟩

/-- The number of a node that nothing refers to. -/
def nodeNumber : Codec Unit where
  write _ := tag.write 0
  read := do
    let _ ← tag.read

/-! ## Writing -/

mutual

/-- The bytes of a pattern. -/
def writePattern : Pattern → List UInt8
  | .wildcard => tag.write 0
  | .rest => tag.write 1
  | .bind name => tag.write 2 ++ text.write name
  | .literal value => tag.write 3 ++ literal.write value
  | .tuple items => tag.write 4 ++ count.write items.length ++ writePatterns items
  | .array items => tag.write 5 ++ count.write items.length ++ writePatterns items

/-- The bytes of patterns, one after another. -/
def writePatterns : List Pattern → List UInt8
  | [] => []
  | item :: items => writePattern item ++ writePatterns items

end

mutual

/-- The bytes of an expression. -/
def writeExpr : Expr → List UInt8
  | ⟨id, place, kind⟩ => tag.write id ++ position.write place ++ writeExprKind kind

/-- The bytes of what an expression is. -/
def writeExprKind : ExprKind → List UInt8
  | .literal value => tag.write 0 ++ literal.write value
  | .name name => tag.write 1 ++ text.write name
  | .this => tag.write 2
  | .base => tag.write 3
  | .external name => tag.write 4 ++ text.write name
  | .scoped space name => tag.write 5 ++ writeExpr space ++ text.write name
  | .array items => tag.write 6 ++ count.write items.length ++ writeExprs items
  | .map entries => tag.write 7 ++ count.write entries.length ++ writeEntries entries
  | .tuple items => tag.write 8 ++ count.write items.length ++ writeExprs items
  | .entity members => tag.write 9 ++ count.write members.length ++ writeMembers members
  | .extend base members =>
    tag.write 10 ++ writeExpr base ++ count.write members.length ++ writeMembers members
  | .construct className members =>
    tag.write 11 ++ text.write className ++ count.write members.length ++ writeMembers members
  | .unary op operand => tag.write 12 ++ (choice unaryOps).write op ++ writeExpr operand
  | .binary op left right =>
    tag.write 13 ++ (choice binaryOps).write op ++ writeExpr left ++ writeExpr right
  | .typeTest value typeName =>
    tag.write 14 ++ writeExpr value ++ (choice typeNames).write typeName
  | .update op before target =>
    tag.write 15 ++ (choice updateOps).write op ++ bool.write before ++ writeExpr target
  | .assign op target value =>
    tag.write 16 ++ (choice assignOps).write op ++ writeTarget target ++ writeExpr value
  | .conditional condition thenBranch elseBranch =>
    tag.write 17 ++ writeExpr condition ++ writeExpr thenBranch ++ writeExpr elseBranch
  | .pipe value function => tag.write 18 ++ writeExpr value ++ writeExpr function
  | .call callee args =>
    tag.write 19 ++ writeExpr callee ++ count.write args.length ++ writeExprs args
  | .member object name => tag.write 20 ++ writeExpr object ++ text.write name
  | .tupleIndex object index => tag.write 21 ++ writeExpr object ++ count.write index
  | .index object index => tag.write 22 ++ writeExpr object ++ writeExpr index
  | .function definition => tag.write 23 ++ writeFunction definition
  | .block body => tag.write 24 ++ writeBlock body
  | .async body => tag.write 25 ++ writeBlock body
  | .safe body => tag.write 26 ++ writeBlock body
  | .lock key body => tag.write 27 ++ writeExprOption key ++ writeBlock body
  | .matchOn scrutinee arms =>
    tag.write 28 ++ writeExpr scrutinee ++ count.write arms.length ++ writeArms arms

/-- The bytes of expressions, one after another. -/
def writeExprs : List Expr → List UInt8
  | [] => []
  | item :: items => writeExpr item ++ writeExprs items

/-- The bytes of an expression that may be missing. -/
def writeExprOption : Option Expr → List UInt8
  | none => bool.write false
  | some value => bool.write true ++ writeExpr value

/-- The bytes of the entries of a map, one after another. -/
def writeEntries : List (Expr × Expr) → List UInt8
  | [] => []
  | (key, value) :: rest => writeExpr key ++ writeExpr value ++ writeEntries rest

/-- The bytes of the members of an entity, one after another. -/
def writeMembers : List MemberInit → List UInt8
  | [] => []
  | ⟨name, value, place⟩ :: rest =>
    text.write name ++ writeExpr value ++ position.write place ++ writeMembers rest

/-- The bytes of the left side of an assignment. -/
def writeTarget : AssignTarget → List UInt8
  | .place place => tag.write 0 ++ writeExpr place
  | .pattern pattern => tag.write 1 ++ writePattern pattern

/-- The bytes of a function. -/
def writeFunction : FunctionDef → List UInt8
  | ⟨name, params, body, place⟩ =>
    nodeNumber.write () ++ (option text).write name ++ (list text).write params ++ writeBody body ++
      position.write place

/-- The bytes of the body of a function or of an arm. -/
def writeBody : Body → List UInt8
  | .block body => tag.write 0 ++ writeBlock body
  | .expr value => tag.write 1 ++ writeExpr value

/-- The bytes of the arms of a match, one after another. -/
def writeArms : List Arm → List UInt8
  | [] => []
  | ⟨pattern, guard, body, place⟩ :: rest =>
    writePattern pattern ++ writeExprOption guard ++ writeBody body ++ position.write place ++
      writeArms rest

/-- The bytes of a block. -/
def writeBlock : Block → List UInt8
  | ⟨statements, place⟩ =>
    nodeNumber.write () ++ count.write statements.length ++ writeStmts statements ++
      position.write place

/-- The bytes of a block that may be missing. -/
def writeBlockOption : Option Block → List UInt8
  | none => bool.write false
  | some body => bool.write true ++ writeBlock body

/-- The bytes of a statement. -/
def writeStmt : Stmt → List UInt8
  | ⟨place, kind⟩ => nodeNumber.write () ++ position.write place ++ writeStmtKind kind

/-- The bytes of statements, one after another. -/
def writeStmts : List Stmt → List UInt8
  | [] => []
  | item :: items => writeStmt item ++ writeStmts items

/-- The bytes of a statement that may be missing. -/
def writeStmtOption : Option Stmt → List UInt8
  | none => bool.write false
  | some s => bool.write true ++ writeStmt s

/-- The bytes of what a statement is. -/
def writeStmtKind : StmtKind → List UInt8
  | .declare word declarators =>
    tag.write 0 ++ (choice bindingWords).write word ++ count.write declarators.length ++
      writeDeclarators declarators
  | .function definition => tag.write 1 ++ writeFunction definition
  | .branch condition thenBranch elseBranch =>
    tag.write 2 ++ writeExpr condition ++ writeBlock thenBranch ++ writeBlockOption elseBranch
  | .whileLoop condition body => tag.write 3 ++ writeExpr condition ++ writeBlock body
  | .doWhile body condition => tag.write 4 ++ writeBlock body ++ writeExpr condition
  | .forLoop start condition update body =>
    tag.write 5 ++ writeStmtOption start ++ writeExprOption condition ++ writeExprOption update ++
      writeBlock body
  | .each item index iterable body =>
    tag.write 6 ++ text.write item ++ (option text).write index ++ writeExpr iterable ++
      writeBlock body
  | .matchOn scrutinee arms =>
    tag.write 7 ++ writeExpr scrutinee ++ count.write arms.length ++ writeArms arms
  | .returnWith value => tag.write 8 ++ writeExprOption value
  | .breakLoop => tag.write 9
  | .continueLoop => tag.write 10
  | .importFrom items source =>
    tag.write 11 ++ (list importItem).write items ++ text.write source
  | .exportNames names => tag.write 12 ++ (list text).write names
  | .namespaceBlock name body => tag.write 13 ++ text.write name ++ writeBlock body
  | .expression value terminated => tag.write 14 ++ writeExpr value ++ bool.write terminated

/-- The bytes of the parts of a declaration, one after another. -/
def writeDeclarators : List Declarator → List UInt8
  | [] => []
  | ⟨target, value, place⟩ :: rest =>
    writePattern target ++ writeExprOption value ++ position.write place ++ writeDeclarators rest

end

/-! ## Reading

The fuel bounds how deep nodes are nested. -/

/-- As many items as the count in front of them says. -/
def many {α : Type} (read : ByteReader α) : ByteReader (List α) := do
  readItems read (← count.read)

/-- Something that may be missing. -/
def maybe {α : Type} (read : ByteReader α) : ByteReader (Option α) := do
  if ← bool.read then return some (← read) else return none

/-- Reads a pattern. -/
def readPattern : Nat → ByteReader Pattern
  | 0 => failure
  | fuel + 1 => do
    match ← tag.read with
    | 0 => return .wildcard
    | 1 => return .rest
    | 2 => return .bind (← text.read)
    | 3 => return .literal (← literal.read)
    | 4 => return .tuple (← many (readPattern fuel))
    | 5 => return .array (← many (readPattern fuel))
    | _ => failure

mutual

/-- Reads an expression. -/
def readExpr : Nat → ByteReader Expr
  | 0 => failure
  | fuel + 1 => do return ⟨← tag.read, ← position.read, ← readExprKind fuel⟩

/-- Reads what an expression is. -/
def readExprKind : Nat → ByteReader ExprKind
  | 0 => failure
  | fuel + 1 => do
    match ← tag.read with
    | 0 => return .literal (← literal.read)
    | 1 => return .name (← text.read)
    | 2 => return .this
    | 3 => return .base
    | 4 => return .external (← text.read)
    | 5 => return .scoped (← readExpr fuel) (← text.read)
    | 6 => return .array (← many (readExpr fuel))
    | 7 => return .map (← many do return (← readExpr fuel, ← readExpr fuel))
    | 8 => return .tuple (← many (readExpr fuel))
    | 9 => return .entity (← many (readMember fuel))
    | 10 => return .extend (← readExpr fuel) (← many (readMember fuel))
    | 11 => return .construct (← text.read) (← many (readMember fuel))
    | 12 => return .unary (← (choice unaryOps).read) (← readExpr fuel)
    | 13 => return .binary (← (choice binaryOps).read) (← readExpr fuel) (← readExpr fuel)
    | 14 => return .typeTest (← readExpr fuel) (← (choice typeNames).read)
    | 15 => return .update (← (choice updateOps).read) (← bool.read) (← readExpr fuel)
    | 16 => return .assign (← (choice assignOps).read) (← readTarget fuel) (← readExpr fuel)
    | 17 => return .conditional (← readExpr fuel) (← readExpr fuel) (← readExpr fuel)
    | 18 => return .pipe (← readExpr fuel) (← readExpr fuel)
    | 19 => return .call (← readExpr fuel) (← many (readExpr fuel))
    | 20 => return .member (← readExpr fuel) (← text.read)
    | 21 => return .tupleIndex (← readExpr fuel) (← count.read)
    | 22 => return .index (← readExpr fuel) (← readExpr fuel)
    | 23 => return .function (← readFunction fuel)
    | 24 => return .block (← readBlock fuel)
    | 25 => return .async (← readBlock fuel)
    | 26 => return .safe (← readBlock fuel)
    | 27 => return .lock (← maybe (readExpr fuel)) (← readBlock fuel)
    | 28 => return .matchOn (← readExpr fuel) (← many (readArm fuel))
    | _ => failure

/-- Reads a member of an entity. -/
def readMember : Nat → ByteReader MemberInit
  | 0 => failure
  | fuel + 1 => do return ⟨← text.read, ← readExpr fuel, ← position.read⟩

/-- Reads the left side of an assignment. -/
def readTarget : Nat → ByteReader AssignTarget
  | 0 => failure
  | fuel + 1 => do
    match ← tag.read with
    | 0 => return .place (← readExpr fuel)
    | 1 => return .pattern (← readPattern fuel)
    | _ => failure

/-- Reads a function. -/
def readFunction : Nat → ByteReader FunctionDef
  | 0 => failure
  | fuel + 1 => do
    nodeNumber.read
    return ⟨← (option text).read, ← (list text).read, ← readBody fuel, ← position.read⟩

/-- Reads the body of a function or of an arm. -/
def readBody : Nat → ByteReader Body
  | 0 => failure
  | fuel + 1 => do
    match ← tag.read with
    | 0 => return .block (← readBlock fuel)
    | 1 => return .expr (← readExpr fuel)
    | _ => failure

/-- Reads an arm of a match. -/
def readArm : Nat → ByteReader Arm
  | 0 => failure
  | fuel + 1 => do
    return ⟨← readPattern fuel, ← maybe (readExpr fuel), ← readBody fuel, ← position.read⟩

/-- Reads a block. -/
def readBlock : Nat → ByteReader Block
  | 0 => failure
  | fuel + 1 => do
    nodeNumber.read
    return ⟨← many (readStmt fuel), ← position.read⟩

/-- Reads a statement. -/
def readStmt : Nat → ByteReader Stmt
  | 0 => failure
  | fuel + 1 => do
    nodeNumber.read
    return ⟨← position.read, ← readStmtKind fuel⟩

/-- Reads what a statement is. -/
def readStmtKind : Nat → ByteReader StmtKind
  | 0 => failure
  | fuel + 1 => do
    match ← tag.read with
    | 0 => return .declare (← (choice bindingWords).read) (← many (readDeclarator fuel))
    | 1 => return .function (← readFunction fuel)
    | 2 => return .branch (← readExpr fuel) (← readBlock fuel) (← maybe (readBlock fuel))
    | 3 => return .whileLoop (← readExpr fuel) (← readBlock fuel)
    | 4 => return .doWhile (← readBlock fuel) (← readExpr fuel)
    | 5 =>
      return .forLoop (← maybe (readStmt fuel)) (← maybe (readExpr fuel)) (← maybe (readExpr fuel))
        (← readBlock fuel)
    | 6 =>
      return .each (← text.read) (← (option text).read) (← readExpr fuel) (← readBlock fuel)
    | 7 => return .matchOn (← readExpr fuel) (← many (readArm fuel))
    | 8 => return .returnWith (← maybe (readExpr fuel))
    | 9 => return .breakLoop
    | 10 => return .continueLoop
    | 11 => return .importFrom (← (list importItem).read) (← text.read)
    | 12 => return .exportNames (← (list text).read)
    | 13 => return .namespaceBlock (← text.read) (← readBlock fuel)
    | 14 => return .expression (← readExpr fuel) (← bool.read)
    | _ => failure

/-- Reads a part of a declaration. -/
def readDeclarator : Nat → ByteReader Declarator
  | 0 => failure
  | fuel + 1 => do
    return ⟨← readPattern fuel, ← maybe (readExpr fuel), ← position.read⟩

end

/-- Blocks. A node takes at least one byte, so that no nodes are nested deeper than there are
bytes. -/
def block : Codec Block where
  write := writeBlock
  read := do readBlock (← get).length

/-- Modules. -/
def module : Codec Module where
  write m := text.write m.name ++ block.write m.body
  read := do return ⟨← text.read, ← block.read⟩

end ScriptEngine.TreeBytes
