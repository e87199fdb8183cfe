import ScriptEngine.Analysis.Context

/-!
# Analysis of a module

One walk over the tree declares names, finds what they mean and infers the types of expressions.
The functions of a block can be used before their declaration, and their bodies are analysed after
the other statements of the block.
-/

namespace ScriptEngine.Analyzing

/-! ## Names -/

/-- Declares the functions of a block. -/
def declareFunctions (statements : List Stmt) : Analyzer Unit :=
  statements.forM fun s =>
    match s.kind with
    | .function ⟨some name, params, _, position⟩ =>
      declare name .function false (.functionOf params.length .unknown) position
    | _ => pure ()

/-- The meaning of a name that is read. Inside an entity a name that nothing declares may be one of
its members; elsewhere only a run can supply it, and it is warned of once. -/
def readName (id : Nat) (position : Position) (name : String) : Analyzer TypeExpr := do
  let s ← get
  meet id name
  match s.table.lookup s.current name with
  | some (scope, entry) =>
    recordMeaning id ⟨scope, entry.kind⟩
    return entry.type
  | none =>
    if 0 < s.entityDepth then
      recordMeaning id ⟨(s.table.enclosing s.current .entity).getD s.current, .member⟩
      return .unknown
    if (← read).strict then fail (.undeclared name) position
    warn (.undeclared name) position
    supply name position
    recordMeaning id ⟨ScopeTable.root, .unknown⟩
    return .unknown

/-- The type of a name that a value of this type is written to. -/
def writtenType (value old : TypeExpr) : TypeExpr :=
  match TypeExpr.unify old value with
  | .ok common => common
  | .error _ => .unknown

/-- The meaning of a name that is written with a value of this type. -/
def writeName (id : Nat) (position : Position) (name : String) (value : TypeExpr) :
    Analyzer Unit := do
  let s ← get
  meet id name
  match s.table.lookup s.current name with
  | some (scope, entry) =>
    if entry.kind != .unknown then
      recordMeaning id ⟨scope, entry.kind⟩
      retype name (writtenType value)
      recordType id value
      meetWrite name scope (0 < s.entityDepth)
    else if 0 < s.entityDepth then recordType id .unknown
    else fail (.undeclaredAssignment name) position
  | none =>
    if 0 < s.entityDepth then recordType id .unknown
    else fail (.undeclaredAssignment name) position

/-- Checks that a name can be written. -/
def checkName (position : Position) (name : String) : Analyzer Unit := do
  let s ← get
  match s.table.lookup s.current name with
  | some (scope, entry) =>
    if entry.kind != .unknown then meetWrite name scope (0 < s.entityDepth)
    else if s.entityDepth == 0 then fail (.undeclaredAssignment name) position
  | none => if s.entityDepth == 0 then fail (.undeclaredAssignment name) position

/-- Checks that the names of a pattern can be written. -/
def checkPatternNames (pattern : Pattern) (position : Position) : Analyzer Unit :=
  pattern.bindings.forM (checkName position)

mutual

/-- Declares the names of a pattern that a value of this type is taken apart by. -/
def declarePattern (assignable : Bool) (position : Position) :
    Pattern → TypeExpr → Analyzer Unit
  | .bind name, type =>
    declare name (if type.isError then .error else .variable) assignable type position
  | .tuple items, type | .array items, type =>
    let types := match type with
      | .tuple types =>
        if types.length = items.length && !items.any Pattern.isRest then types else []
      | _ => []
    declarePatterns assignable position items types
  | .wildcard, _ | .rest, _ | .literal _, _ => pure ()

/-- Declares the names of a list of patterns; an item without a type is unknown. -/
def declarePatterns (assignable : Bool) (position : Position) :
    List Pattern → List TypeExpr → Analyzer Unit
  | [], _ => pure ()
  | item :: items, types => do
    declarePattern assignable position item (types.headD .unknown)
    declarePatterns assignable position items types.tail

end

/-- Imports and exports stand at the top level. -/
def requireModuleLevel (word : String) (position : Position) : Analyzer Unit := do
  if (← get).current != moduleScope then fail (.misplacedModuleItem word) position

/-- An entity is there to be referred to. -/
def requireEntity (fault : SemanticFault) (position : Position) : Analyzer Unit := do
  if (← get).entityDepth == 0 then fail fault position

/-- A loop is there to be left or continued. -/
def requireLoop (word : String) (position : Position) : Analyzer Unit := do
  if (← get).loopDepth == 0 then fail (.loopControlOutsideLoop word) position

/-! ## Types of operations -/

/-- The type of an infix operation. -/
def binaryType (op : BinaryOp) (left right : TypeExpr) (position : Position) :
    Analyzer TypeExpr := do
  match op with
  | .equal | .notEqual | .less | .lessEqual | .greater | .greaterEqual | .and | .or => return .bool
  | _ =>
    if op = .add && (left.isString || right.isString) then return .string
    else if left.isError || right.isError then return .error
    else if left.isNumeric && right.isNumeric then
      if op = .add && (left.isIndeterminate || right.isIndeterminate) then return .unknown
      else return .number
    else
      warn (.operands op left right) position
      return .error

/-- The type of an operation on one operand. -/
def unaryType (op : UnaryOp) (type : TypeExpr) (position : Position) : Analyzer TypeExpr := do
  if op = .not then return .bool
  else if type.isNumeric then return .number
  else
    warn (.operand type) position
    return .error

/-- The type of a call with this many arguments. -/
def callType (callee : TypeExpr) (count : Nat) (position : Position) : Analyzer TypeExpr := do
  match callee.callResult? count with
  | some type => return type
  | none =>
    warn (.argumentCount callee count) position
    return .error

/-- The type of a value that one of two branches gives. -/
def branchType (left right : TypeExpr) (position : Position) : Analyzer TypeExpr := do
  match TypeExpr.unify left right with
  | .ok type => return type
  | .error mismatch =>
    warn (.branchesDiffer mismatch) position
    return .unknown

/-- The type of a name inside a namespace, when the namespace is one met before. -/
def scopedType (space : Expr) (name : String) : Analyzer TypeExpr := do
  let s ← get
  match space.kind with
  | .name spaceName =>
    let entry := do (← s.table.scope? (← s.spaces.lookup spaceName)).get? name
    return (entry.map (·.type)).getD .unknown
  | _ => return .unknown

/-- The type of an item at a position of a value. -/
def positionType (type : TypeExpr) (index : Nat) : TypeExpr :=
  match type with
  | .tuple items => items[index]?.getD .unknown
  | _ => .unknown

/-- The type of an item that an index picks. -/
def itemType (type : TypeExpr) : TypeExpr :=
  match type with
  | .array item => item
  | .map value => value
  | _ => .unknown

/-- The type of the items that a walk over a value meets. -/
def walkedType (type : TypeExpr) : TypeExpr :=
  match type with
  | .array item => item
  | _ => .unknown

/-- The type of an entity over another one. -/
def extendedType (base own : TypeExpr) : TypeExpr :=
  match base with
  | .entity _ =>
    match TypeExpr.unify base own with
    | .ok type => type
    | .error _ => own
  | _ => own

/-- Whether an expression is a function. -/
def isFunction (e : Expr) : Bool :=
  match e.kind with
  | .function _ => true
  | _ => false

/-- Whether the last value of a block completes the body around it. -/
def completes (b : Block) : Bool :=
  match b.tail? with
  | some tail => !tail.isAssignmentLike
  | none => false

/-- The type of a body from that of its last value and those that may complete it. -/
def bodyType (b : Block) (tail : TypeExpr) (completions : List TypeExpr) : TypeExpr :=
  if completions.isEmpty then tail
  else TypeExpr.unifyAll (if b.tail?.isSome then completions ++ [tail] else completions)

/-- The walk over a block: its functions are declared, its statements analysed by `each`, which
gives the type of the last value, and at last the bodies of its functions by `bodies`. -/
def blockType (statements : List Stmt) (each : Analyzer TypeExpr) (bodies : Analyzer Unit) :
    Analyzer TypeExpr := do
  declareFunctions statements
  let tail ← each
  bodies
  return tail

/-! ## The walk -/

mutual

/-- Infers the type of an expression and keeps it. -/
def infer : Expr → Analyzer TypeExpr
  | ⟨id, position, kind⟩ => do
    let type ← inferKind id position kind
    recordType id type
    return type

/-- Infers the type of an expression of this kind. -/
def inferKind (id : Nat) (position : Position) : ExprKind → Analyzer TypeExpr
  | .literal value => return .ofLiteral value
  | .name name => readName id position name
  | .this => do
    requireEntity .thisOutsideEntity position
    return .unknown
  | .base => do
    requireEntity .baseOutsideEntity position
    return .unknown
  | .external _ => return .unknown
  | .scoped space name => do
    let _ ← infer space
    scopedType space name
  | .array items => do return .array (.unifyAll (← inferAll items))
  | .map entries => do return .map (.unifyAll (← inferEntries entries))
  | .tuple items => do return .tuple (← inferAll items)
  | .entity members => do return .entity (← inEntity (inferMembers members))
  | .extend base members => do
    let baseType ← infer base
    return extendedType baseType (.entity (← inEntity (inferMembers members)))
  | .construct _ members => do return .entity (← inEntity (inferMembers members))
  | .unary op operand => do
    let type ← infer operand
    unaryType op type position
  | .binary op left right => do
    let leftType ← infer left
    let rightType ← infer right
    binaryType op leftType rightType position
  | .typeTest value _ => do
    let _ ← infer value
    return .bool
  | .update _ _ target => do
    checkPlace .number target
    return .number
  | .assign op (.place place) value => do
    let type ← infer value
    match op.binary? with
    | none =>
      checkPlace type place
      return type
    | some binary =>
      let current ← infer place
      let stored ← binaryType binary current type position
      checkPlace stored place
      return stored
  | .assign _ (.pattern pattern) value => do
    let type ← infer value
    checkPatternNames pattern position
    return type
  | .conditional condition thenBranch elseBranch => do
    let _ ← infer condition
    let thenType ← infer thenBranch
    let elseType ← infer elseBranch
    branchType thenType elseType position
  | .pipe value function => do
    let _ ← infer value
    callType (← infer function) 1 position
  | .call callee args => do
    let calleeType ← infer callee
    let _ ← inferAll args
    callType calleeType args.length position
  | .member object name => do return ((← infer object).member? name).getD .unknown
  | .tupleIndex object index => do return positionType (← infer object) index
  | .index object index => do
    let type ← infer object
    let _ ← infer index
    return itemType type
  | .function definition => analyzeFunction definition
  | .block body => analyzeBoundary body
  | .async body => do return .promise (← outsideLoops (analyzeBoundary body))
  | .safe body => do
    let _ ← outsideLoops (analyzeBoundary body)
    return .unknown
  | .lock key body => do
    inferOption key
    outsideLoops (analyzeBoundary body)
  | .matchOn scrutinee arms => do
    let type ← infer scrutinee
    return .unifyAll (← analyzeArms true type arms)

/-- Infers the types of expressions in order. -/
def inferAll : List Expr → Analyzer (List TypeExpr)
  | [] => return []
  | item :: items => do
    let type ← infer item
    return type :: (← inferAll items)

/-- Analyses an expression that may be left out. -/
def inferOption : Option Expr → Analyzer Unit
  | none => pure ()
  | some value => do
    let _ ← infer value

/-- Infers the types of the values of map entries. -/
def inferEntries : List (Expr × Expr) → Analyzer (List TypeExpr)
  | [] => return []
  | (key, value) :: entries => do
    let _ ← infer key
    let type ← infer value
    return type :: (← inferEntries entries)

/-- Infers the types of members, each of which is declared once its value is known. -/
def inferMembers : List MemberInit → Analyzer (List (String × TypeExpr))
  | [] => return []
  | ⟨name, value, position⟩ :: members => do
    let type ← infer value
    declare name .member true type position
    return (name, type) :: (← inferMembers members)

/-- Checks a place that a value of this type is written to. -/
def checkPlace (value : TypeExpr) : Expr → Analyzer Unit
  | ⟨id, position, .name name⟩ => writeName id position name value
  | ⟨id, position, kind⟩ => do
    let type ← inferKind id position kind
    recordType id type

/-- Analyses a function: its parameters, and its body as a body of its own. -/
def analyzeFunction : FunctionDef → Analyzer TypeExpr
  | ⟨_, params, body, position⟩ => do
    let result ← outsideLoops <| inScope .function do
      params.forM fun param => declare param .parameter true .unknown position
      analyzeFunctionBody body
    return .functionOf params.length result

/-- The type of the body of a function. -/
def analyzeFunctionBody : Body → Analyzer TypeExpr
  | .block body => analyzeBoundary body
  | .expr value => do return (← inBoundary (infer value)).1

/-- Analyses the arms of a match on a value of this type. The values of a match expression are its
own; those of a statement may complete the body around it. -/
def analyzeArms (expression : Bool) (scrutinee : TypeExpr) :
    List Arm → Analyzer (List TypeExpr)
  | [] => return []
  | ⟨pattern, guard, body, position⟩ :: arms => do
    let type ← inScope .block do
      declarePattern true position pattern scrutinee
      inferOption guard
      analyzeArmBody expression body
    return type :: (← analyzeArms expression scrutinee arms)

/-- The type of the body of a match arm. -/
def analyzeArmBody (expression : Bool) : Body → Analyzer TypeExpr
  | .block body => do
    if expression then analyzeBoundary body
    else
      analyzeTransparent body
      return .unit
  | .expr value => do
    let type ← infer value
    if expression then return type
    else
      if !value.isAssignmentLike then complete type
      return .unit

/-- Analyses the body of a branch or loop, whose last value may complete the body around it. -/
def analyzeTransparent : Block → Analyzer Unit
  | ⟨statements, position⟩ => do
    let type ← inScope .block <|
      blockType statements (analyzeEach statements) (analyzeBodies statements)
    if completes ⟨statements, position⟩ then complete type

/-- Analyses a block that is a body of its own. -/
def analyzeBoundary : Block → Analyzer TypeExpr
  | ⟨statements, position⟩ => do
    let (tail, completions) ← inBoundary <| inScope .block <|
      blockType statements (analyzeEach statements) (analyzeBodies statements)
    return bodyType ⟨statements, position⟩ tail completions

/-- Analyses statements in order, the bodies of functions left out. -/
def analyzeEach : List Stmt → Analyzer TypeExpr
  | [] => return .unit
  | ⟨_, .function _⟩ :: rest => analyzeEach rest
  | ⟨_, .expression value terminated⟩ :: rest => do
    let type ← infer value
    let later ← analyzeEach rest
    return if rest.isEmpty && !terminated && !value.isAssignmentLike then type else later
  | statement :: rest => do
    analyzeStmt statement
    analyzeEach rest

/-- Analyses the bodies of the functions among statements. -/
def analyzeBodies : List Stmt → Analyzer Unit
  | [] => pure ()
  | ⟨_, .function definition⟩ :: rest => do
    let type ← analyzeFunction definition
    match definition.name with
    | some name => retype name fun _ => type
    | none => pure ()
    analyzeBodies rest
  | _ :: rest => analyzeBodies rest

/-- Analyses a statement that may be left out. -/
def analyzeStmtOption : Option Stmt → Analyzer Unit
  | none => pure ()
  | some statement => analyzeStmt statement

/-- Analyses a block that may be left out. -/
def analyzeTransparentOption : Option Block → Analyzer Unit
  | none => pure ()
  | some block => analyzeTransparent block

/-- Analyses a statement. -/
def analyzeStmt : Stmt → Analyzer Unit
  | ⟨position, kind⟩ => analyzeStmtKind position kind

/-- Analyses a statement by what it is. -/
def analyzeStmtKind (position : Position) : StmtKind → Analyzer Unit
  | .declare word declarators => analyzeDeclarators (word = .varWord) declarators
  | .function definition => do
    let _ ← analyzeFunction definition
  | .branch condition thenBranch elseBranch => do
    let _ ← infer condition
    analyzeTransparent thenBranch
    analyzeTransparentOption elseBranch
  | .whileLoop condition body => do
    let _ ← infer condition
    inLoop (analyzeTransparent body)
  | .doWhile body condition => do
    let _ ← infer condition
    inLoop (analyzeTransparent body)
  | .forLoop start condition update body => inScope .block do
    analyzeStmtOption start
    inferOption condition
    inferOption update
    inLoop (analyzeTransparent body)
  | .each item index iterable body => do
    let type ← infer iterable
    inScope .block do
      declare item .variable true (walkedType type) position
      match index with
      | some index => declare index .variable true .unknown position
      | none => pure ()
      inLoop (analyzeTransparent body)
  | .matchOn scrutinee arms => do
    let type ← infer scrutinee
    let _ ← analyzeArms false type arms
  | .returnWith none => complete .unit
  | .returnWith (some value) => do complete (← infer value)
  | .breakLoop => requireLoop "break" position
  | .continueLoop => requireLoop "continue" position
  | .importFrom items _ => do
    requireModuleLevel "import" position
    items.forM fun item => declare item.localName .imported true .unknown position
  | .exportNames _ => requireModuleLevel "export" position
  | .namespaceBlock name ⟨statements, _⟩ => do
    declare name .space false .unknown position
    inScope .space do
      nameSpace name
      let _ ← blockType statements (analyzeEach statements) (analyzeBodies statements)
  | .expression value _ => do
    let _ ← infer value

/-- Analyses declarations. A function may refer to the name that it is declared with. -/
def analyzeDeclarators (assignable : Bool) : List Declarator → Analyzer Unit
  | [] => pure ()
  | ⟨target, none, position⟩ :: rest => do
    declarePattern assignable position target .unknown
    analyzeDeclarators assignable rest
  | ⟨target, some value, position⟩ :: rest => do
    match target, isFunction value with
    | .bind name, true =>
      declare name .variable assignable .unknown position
      let type ← infer value
      retype name fun _ => type
    | _, _ =>
      let type ← infer value
      declarePattern assignable position target type
    analyzeDeclarators assignable rest

end

/-- Analyses the statements of a block and gives the type of its last value. -/
def analyzeStatements (statements : List Stmt) : Analyzer TypeExpr :=
  blockType statements (analyzeEach statements) (analyzeBodies statements)

end ScriptEngine.Analyzing

namespace ScriptEngine

/-- Analyses a module among names that the host binds. -/
def Module.analyze (m : Module) (bindings : List String) (strict : Bool) :
    Except SemanticError Analysis := do
  let (_, s) ← ((Analyzing.analyzeStatements m.statements).run ⟨m.name, strict⟩).run
    (.start bindings)
  return ⟨s.table, Analyzing.moduleScope, s.types, s.meanings, s.warnings.toList, s.trace⟩

end ScriptEngine
