import ScriptEngine.Parse.Cursor

/-!
# Reading patterns and expressions

Each definition for expressions reads one form of them and hands what stands inside to a `Grammar`.
From loose to tight: assignment, conditional, infix operators by precedence, unary operators, calls
and accesses, primary expressions.
-/

namespace ScriptEngine.Parse

/-- Reads the patterns of a list up to its closing mark; a comma may stand before that mark. -/
def patternItems (pattern : Parser Pattern) (close : Mark) : Parser (List Pattern) := do
  let first ← pattern
  let items ← repeating (fun items => do
      if ← accept (.mark .comma) then
        if ← check (.mark close) then return .inr items
        else return .inl (items ++ [← pattern])
      else return .inr items)
    [first]
  let _ ← consumeMark close "closing delimiter of pattern"
  if 1 < (items.filter Pattern.isRest).length then
    fail (.invalid .secondRest (← here))
  return items

/-- Reads a pattern, the patterns inside it by `pattern`. A single pattern in parentheses is that
pattern, unless it stands for any number of items. -/
def patternStep (pattern : Parser Pattern) : Parser Pattern := do
  let token ← advance
  match token.kind with
  | .name name => return if name = "_" then .wildcard else .bind name
  | .number value => return .literal (.number value)
  | .string value => return .literal (.string value)
  | .keyword .trueWord => return .literal (.bool true)
  | .keyword .falseWord => return .literal (.bool false)
  | .keyword .nullWord => return .literal .null
  | .mark .dotDot => return .rest
  | .mark .minus =>
    match (← advance).kind with
    | .number value => return .literal (.number (-value))
    | _ => fail (.invalid .numberAfterMinus token.position)
  | .mark .leftParen =>
    if ← accept (.mark .rightParen) then return .literal .unit
    else
      match ← patternItems pattern .rightParen with
      | [item] => return if item.isRest then .tuple [item] else item
      | items => return .tuple items
  | .mark .leftBracket =>
    if ← accept (.mark .rightBracket) then return .array []
    else return .array (← patternItems pattern .rightBracket)
  | _ => fail (unexpectedAt token "pattern")

/-! ## Expressions -/

/-- The forms that stand inside others, each with the tree that reading it gives. -/
inductive Form : Type → Type
  | pattern : Form Pattern
  | expression : Form Expr
  | assignment : Form Expr
  | conditional : Form Expr
  /-- Infix operators of at least this precedence. -/
  | infixFrom (least : Nat) : Form Expr
  | unary : Form Expr
  | block : Form Block
  | branch : Form StmtKind
  | statement : Form Stmt

/-- A parser for every form. -/
structure Grammar where
  read : {α : Type} → Form α → Parser α

namespace Grammar

variable (g : Grammar)

/-! Each form by its name. -/

/-- Reads a pattern. -/
def pattern : Parser Pattern := g.read .pattern

/-- Reads an expression. -/
def expression : Parser Expr := g.read .expression

/-- Reads an expression that may be an assignment. -/
def assignment : Parser Expr := g.read .assignment

/-- Reads an expression that may be a conditional. -/
def conditional : Parser Expr := g.read .conditional

/-- Reads operands joined by operators that bind at least as tightly as `least`. -/
def infixFrom (least : Nat) : Parser Expr := g.read (.infixFrom least)

/-- Reads an operand with the operators in front of it. -/
def unary : Parser Expr := g.read .unary

/-- Reads statements between braces. -/
def block : Parser Block := g.read .block

/-- Reads a branch behind its first word. -/
def branch : Parser StmtKind := g.read .branch

/-- Reads a statement. -/
def statement : Parser Stmt := g.read .statement

end Grammar

variable (g : Grammar)

/-- Reads the head of a loop, branch or match. -/
def header : Parser Expr := restricting .header g.expression

/-- Reads an expression that brackets set apart. -/
def nested : Parser Expr := restricting .none g.expression

/-! ## Members, functions and arms -/

/-- Reads the name of a member: a name, a string or a reserved word. -/
def memberName : Parser (String × Position) := do
  let token ← advance
  match token.kind with
  | .name name | .string name => return (name, token.position)
  | .keyword _ => return (token.lexeme, token.position)
  | _ => fail (.unexpectedToken "member name" token.lexeme token.position)

/-- Reads the members of an entity between braces. -/
def entityMembers : Parser (List MemberInit) := do
  let _ ← consumeMark .leftBrace "'\x7b'"
  let members ← restricting .none <| repeating (fun members => do
      if ← check (.mark .rightBrace) then return .inr members
      let (name, position) ← memberName
      if members.any (fun member => member.name == name) then
        fail (.invalid (.duplicateMember name) position)
      let _ ← consumeMark .colon "':' after member name"
      let value ← g.expression
      let members := members ++ [⟨name, value, position⟩]
      if ← accept (.mark .comma) then return .inl members else return .inr members)
    []
  let _ ← consumeMark .rightBrace "'\x7d' after entity members"
  return members

/-- Reads parameters between parentheses. -/
def parameters : Parser (List String) := do
  let _ ← consumeMark .leftParen "'(' before parameters"
  let params ← repeating (fun params => do
      if ← check (.mark .rightParen) then return .inr params
      let position ← here
      let name ← consumeName "parameter name"
      if name != "_" && params.contains name then
        fail (.invalid (.duplicateParameter name) position)
      let params := params ++ [name]
      if ← accept (.mark .comma) then return .inl params else return .inr params)
    []
  let _ ← consumeMark .rightParen "')' after parameters"
  return params

/-- Reads the body after an arrow: a block, unless its brace opens an entity with members. -/
def lambdaBody : Parser Body := do
  if (← check (.mark .leftBrace)) && !(← membersAhead false) then return .block (← g.block)
  else return .expr (← g.expression)

/-- Reads a function that begins with its word. -/
def functionDef : Parser FunctionDef := do
  let start ← consume (.keyword .funcWord) "'func'"
  let name ← do
    match ← peekKind with
    | .name name =>
      let _ ← advance
      pure (some name)
    | _ => pure none
  let params ← parameters
  let body ← do
    if ← accept (.mark .fatArrow) then lambdaBody g else pure (Body.block (← g.block))
  return ⟨name, params, body, start.position⟩

/-- Reads the body of an arm, where a bar begins the next arm. -/
def armBody : Parser Body := do
  if (← check (.mark .leftBrace)) && !(← membersAhead false) then return .block (← g.block)
  else return .expr (← restricting .armBody g.expression)

/-- Reads the arms of a match between braces. -/
def matchArms : Parser (List Arm) := do
  let _ ← consumeMark .leftBrace "'\x7b' after match subject"
  let arms ← repeating (fun arms => do
      if (← check (.mark .rightBrace)) || (← atFinish) then return .inr arms
      let position ← here
      let barred ← accept (.mark .bar)
      if !barred && !arms.isEmpty then unexpected "'|' before match arm"
      let pattern ← g.pattern
      let guard ← do
        if ← accept (.keyword .ifWord) then pure (some (← restricting .guard g.expression))
        else pure none
      let _ ← consumeMark .fatArrow "'=>' in match arm"
      let body ← armBody g
      let _ ← accept (.mark .comma)
      return .inl (arms ++ [⟨pattern, guard, body, position⟩]))
    []
  let _ ← consumeMark .rightBrace "'\x7d' after match arms"
  return arms

/-! ## Brackets -/

/-- A function without a name. -/
def lambda (params : List String) (body : Body) (position : Position) : Parser Expr :=
  node (.function ⟨none, params, body, position⟩) position

/-- Reads the items of a tuple after the first one, and whether a comma stands behind the last. -/
def tupleItems (first : Expr) : Parser (List Expr × Bool) :=
  repeating (fun items => do
      if ← accept (.mark .comma) then
        if ← check (.mark .rightParen) then return .inr (items, true)
        else return .inl (items ++ [← g.expression])
      else return .inr (items, false))
    [first]

/-- Reads unit, a group, or a tuple. -/
def grouped (position : Position) : Parser Expr := do
  let _ ← advance
  if ← accept (.mark .rightParen) then node (.literal .unit) position
  else
    let (items, trailing) ← restricting .none do tupleItems g (← g.expression)
    let _ ← consumeMark .rightParen "')'"
    match items, trailing with
    | [item], false => return item
    | _, _ => node (.tuple items) position

/-- Reads what parentheses open: parameters of a function, unit, a group, or a tuple. -/
def parenthesized : Parser Expr := do
  let position ← here
  if !(← get).restrictions.noLambda && (← groupFollowedBy (.mark .fatArrow)) then
    let params ← parameters
    let _ ← consumeMark .fatArrow "'=>'"
    let body ← lambdaBody g
    lambda params body position
  else grouped g position

/-- Reads the entries of a map after the first one. -/
def mapEntries (first : Expr × Expr) : Parser (List (Expr × Expr)) :=
  repeating (fun entries => do
      if ← accept (.mark .comma) then
        if ← check (.mark .rightBracket) then return .inr entries
        else
          let key ← g.expression
          let _ ← consumeMark .colon "':' in map literal"
          let value ← g.expression
          return .inl (entries ++ [(key, value)])
      else return .inr entries)
    [first]

/-- Reads the items of an array after the first one. -/
def arrayItems (first : Expr) : Parser (List Expr) :=
  repeating (fun items => do
      if ← accept (.mark .comma) then
        if ← check (.mark .rightBracket) then return .inr items
        else return .inl (items ++ [← g.expression])
      else return .inr items)
    [first]

/-- Reads the inside of brackets: an array, or a map, whose empty form is a lone colon. -/
def bracketItems : Parser ExprKind := do
  if ← check (.mark .rightBracket) then return .array []
  let c ← get
  if c.current.kind = .mark .colon && c.kindAfter 0 = .mark .rightBracket then
    let _ ← advance
    return .map []
  let first ← g.expression
  if ← accept (.mark .colon) then
    let value ← g.expression
    return .map (← mapEntries g (first, value))
  else return .array (← arrayItems g first)

/-- Reads an array or a map. -/
def bracketed : Parser Expr := do
  let start ← advance
  let kind ← restricting .none (bracketItems g)
  let _ ← consumeMark .rightBracket "']'"
  node kind start.position

/-- Reads arguments between parentheses. -/
def arguments : Parser (List Expr) := do
  let _ ← consumeMark .leftParen "'('"
  let args ← restricting .none <| repeating (fun args => do
      if ← check (.mark .rightParen) then return .inr args
      let args := args ++ [← g.expression]
      if ← accept (.mark .comma) then return .inl args else return .inr args)
    []
  let _ ← consumeMark .rightParen "')' after arguments"
  return args

/-! ## Primary expressions -/

/-- Takes the token under the cursor and gives a node of this kind. -/
def leaf (kind : ExprKind) (position : Position) : Parser Expr := do
  let _ ← advance
  node kind position

/-- Reads a name, a function of one parameter, or an object of a host class. -/
def named (name : String) (position : Position) : Parser Expr := do
  let c ← get
  let _ ← advance
  if !c.restrictions.noLambda && c.kindAfter 0 = .mark .fatArrow then
    let _ ← advance
    let body ← lambdaBody g
    lambda [name] body position
  else if !c.restrictions.noConstruct && isClassName name && (← membersAhead true) then
    node (.construct name (← entityMembers g)) position
  else node (.name name) position

/-- Reads what braces open: an entity or a block. -/
def braced (position : Position) : Parser Expr := do
  if ← membersAhead true then node (.entity (← entityMembers g)) position
  else node (.block (← g.block)) position

/-- Reads a lock, with the key it holds, if any. -/
def locked (position : Position) : Parser Expr := do
  let _ ← advance
  let key ← do
    if ← accept (.mark .leftParen) then
      let key ← nested g
      let _ ← consumeMark .rightParen "')' after lock key"
      pure (some key)
    else pure none
  let body ← g.block
  node (.lock key body) position

/-- Reads an expression that no operator belongs to. -/
def primary : Parser Expr := do
  let token ← peek
  let position := token.position
  match token.kind with
  | .number value => leaf (.literal (.number value)) position
  | .string value => leaf (.literal (.string value)) position
  | .name name => named g name position
  | .keyword .trueWord => leaf (.literal (.bool true)) position
  | .keyword .falseWord => leaf (.literal (.bool false)) position
  | .keyword .nullWord => leaf (.literal .null) position
  | .keyword .thisWord => leaf .this position
  | .keyword .baseWord => leaf .base position
  | .keyword .extWord =>
    let _ ← advance
    let _ ← consumeMark .colonColon "'::' after ext"
    let name ← consumeName "external name"
    node (.external name) position
  | .keyword .funcWord =>
    let definition ← functionDef g
    node (.function definition) position
  | .keyword .asyncWord =>
    let _ ← advance
    let body ← g.block
    node (.async body) position
  | .keyword .safeWord | .keyword .tryWord =>
    let _ ← advance
    let body ← g.block
    node (.safe body) position
  | .keyword .lockWord => locked g position
  | .keyword .matchWord =>
    let _ ← advance
    let scrutinee ← header g
    let arms ← matchArms g
    node (.matchOn scrutinee arms) position
  | .mark .leftParen => parenthesized g
  | .mark .leftBracket => bracketed g
  | .mark .leftBrace => braced g position
  | _ => unexpected "expression"

/-! ## Calls, accesses and operators -/

/-- The position in a tuple that a number names: a whole number, the largest 64-bit one for any
beyond. -/
def tuplePosition? (value : Float) : Option Nat :=
  if 0.0 ≤ value && value - value.floor == 0.0 then some value.toUInt64.toNat else none

/-- Reads the member or position after a dot. -/
def access (object : Expr) : Parser ExprKind := do
  let _ ← advance
  let token ← advance
  let fault := ParseError.unexpectedToken "member name or tuple index" token.lexeme token.position
  match token.kind with
  | .number value =>
    match tuplePosition? value with
    | some index => return .tupleIndex object index
    | none => fail fault
  | .name name => return .member object name
  | .keyword _ => return .member object token.lexeme
  | _ => fail fault

/-- Reads one call, access or step behind an expression, if there is one. -/
def suffix? (object : Expr) : Parser (Option ExprKind) := do
  match ← peekKind with
  | .mark .leftParen => return some (.call object (← arguments g))
  | .mark .dot => return some (← access object)
  | .mark .leftBracket =>
    let _ ← advance
    let index ← nested g
    let _ ← consumeMark .rightBracket "']'"
    return some (.index object index)
  | .mark .colonColon =>
    let _ ← advance
    if ← check (.mark .leftBrace) then return some (.extend object (← entityMembers g))
    else return some (.scoped object (← consumeName "name after '::'"))
  | kind =>
    match UpdateOp.ofToken? kind with
    | some op =>
      if object.isPlace then
        let _ ← advance
        return some (.update op false object)
      else return none
    | none => return none

/-- Reads a primary expression with the calls, accesses and steps behind it. -/
def postfixed : Parser Expr := do
  let position ← here
  let object ← primary g
  repeating (fun object => do
      match ← suffix? g object with
      | some kind => return .inl (← node kind position)
      | none => return .inr object)
    object

/-- Reads an operand with the operators before it. -/
def unaryStep : Parser Expr := descending do
  let token ← peek
  match UnaryOp.ofToken? token.kind, UpdateOp.ofToken? token.kind with
  | some op, _ =>
    let _ ← advance
    let operand ← g.unary
    node (.unary op operand) token.position
  | none, some op =>
    let _ ← advance
    let target ← g.unary
    if !target.isPlace then fail (.invalid .stepTarget token.position)
    node (.update op true target) token.position
  | none, none => postfixed g

/-- Reads the name of a kind of values. -/
def typeName : Parser TypeName := do
  let token ← advance
  let name := match token.kind with
    | .name name => name
    | .keyword .nullWord => "null"
    | _ => ""
  match TypeName.ofText? name with
  | some typeName => return typeName
  | none => fail (.invalid (.unknownTypeName token.lexeme) token.position)

/-- The infix operator under the cursor, if it binds at least this tightly. In the body of an arm
a bar is none. -/
def infixAhead? (least : Nat) : Parser (Option (Infix × Nat)) := do
  let c ← get
  match Infix.ofToken? c.current.kind with
  | some (operator, precedence) =>
    if precedence < least || (operator = .binary .bitOr && c.restrictions.inArm) then return none
    else return some (operator, precedence)
  | none => return none

/-- Reads what stands right of an infix operator. What binds only as tightly is left to the
caller, so that operators of one precedence associate to the left. -/
def infixRight (left : Expr) (operator : Infix) (precedence : Nat) : Parser ExprKind := do
  match operator with
  | .typeTest => return .typeTest left (← typeName)
  | .pipe => return .pipe left (← g.infixFrom (precedence + 1))
  | .binary op => return .binary op left (← g.infixFrom (precedence + 1))

/-- Reads operands with the infix operators between them that bind at least this tightly. -/
def infixStep (least : Nat) : Parser Expr := do
  let position ← here
  let left ← g.unary
  repeating (fun left => do
      match ← infixAhead? least with
      | some (operator, precedence) =>
        let _ ← advance
        return .inl (← node (← infixRight g left operator precedence) position)
      | none => return .inr left)
    left

/-- Reads an expression and, after a question mark, its two outcomes. -/
def conditionalStep : Parser Expr := do
  let position ← here
  let condition ← g.infixFrom Infix.loosest
  if ← accept (.mark .question) then
    let thenBranch ← g.expression
    let _ ← consumeMark .colon "':' in conditional expression"
    let elseBranch ← g.conditional
    node (.conditional condition thenBranch elseBranch) position
  else return condition

/-- Reads an assignment to a pattern in parentheses or to a place, or a plain expression. -/
def assignmentStep : Parser Expr := do
  let position ← here
  if ← groupFollowedBy (.mark .equal) then
    let pattern ← g.pattern
    let _ ← consumeMark .equal "'='"
    let value ← g.assignment
    node (.assign .assign (.pattern pattern) value) position
  else
    let target ← g.conditional
    match AssignOp.ofToken? (← peekKind) with
    | none => return target
    | some op =>
      let token ← advance
      if !target.isPlace then fail (.invalid .assignmentTarget token.position)
      let value ← g.assignment
      node (.assign op (.place target) value) position

end ScriptEngine.Parse
