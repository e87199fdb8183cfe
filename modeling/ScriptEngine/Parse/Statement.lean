import ScriptEngine.Parse.Expression

/-!
# Reading statements

Each definition here reads one form of statement and hands what stands inside to a `Grammar`.
`ofTokens` reads all statements of a module with a grammar of as many steps inside one another as
its tokens can need.
-/

namespace ScriptEngine.Parse

variable (g : Grammar)

/-- Reads one name or pattern of a declaration with its value, which a pattern must have. -/
def declarator : Parser Declarator := do
  let position ← here
  let target ← do
    if ← check (.mark .leftParen) then g.pattern
    else pure (Pattern.bind (← consumeName "variable name"))
  let value ← do
    if ← accept (.mark .equal) then pure (some (← g.expression)) else pure none
  if value.isNone && !target.isBind then
    fail (.invalid .destructuringNeedsValue position)
  return ⟨target, value, position⟩

/-- Reads a declaration that begins with its word. -/
def declaration : Parser StmtKind := do
  let word := if (← advance).kind = .keyword .letWord then BindingWord.letWord else .varWord
  let first ← declarator g
  let declarators ← repeating (fun declarators => do
      if ← accept (.mark .comma) then return .inl (declarators ++ [← declarator g])
      else return .inr declarators)
    [first]
  return .declare word declarators

/-- Reads a branch; another branch may stand for its second block. -/
def branchStep : Parser StmtKind := do
  let _ ← consume (.keyword .ifWord) "'if'"
  let condition ← header g
  let thenBranch ← g.block
  if ← accept (.keyword .elseWord) then
    if ← check (.keyword .ifWord) then
      let position ← here
      let inner ← g.branch
      return .branch condition thenBranch (some ⟨[⟨position, inner⟩], position⟩)
    else return .branch condition thenBranch (some (← g.block))
  else return .branch condition thenBranch none

/-- Reads the first clause of a counting loop. -/
def forStart : Parser Stmt := do
  let token ← peek
  match token.kind with
  | .keyword .letWord | .keyword .varWord => return ⟨token.position, ← declaration g⟩
  | _ => return ⟨token.position, .expression (← g.expression) true⟩

/-- Reads a clause unless this mark ends it at once. -/
def clause? {α : Type} (stop : Mark) (clause : Parser α) : Parser (Option α) := do
  if ← check (.mark stop) then return none else return some (← clause)

/-- Reads a counting loop. -/
def forLoop : Parser StmtKind := do
  let _ ← advance
  let _ ← consumeMark .leftParen "'(' after for"
  let (start, condition, update) ← restricting .none do
    let start ← clause? .semicolon (forStart g)
    let _ ← consumeMark .semicolon "';' after for initializer"
    let condition ← clause? .semicolon g.expression
    let _ ← consumeMark .semicolon "';' after for condition"
    let update ← clause? .rightParen g.expression
    return (start, condition, update)
  let _ ← consumeMark .rightParen "')' after for clauses"
  let body ← g.block
  return .forLoop start condition update body

/-- Reads the names of a walk: that of the item, and that of its index in parentheses. -/
def eachNames : Parser (String × Option String) := do
  if ← accept (.mark .leftParen) then
    let item ← consumeName "loop variable"
    let _ ← consumeMark .comma "',' between item and index"
    let index ← consumeName "index variable"
    let _ ← consumeMark .rightParen "')'"
    return (item, some index)
  else return (← consumeName "loop variable", none)

/-- Reads a walk over the items of a value. -/
def eachLoop : Parser StmtKind := do
  let _ ← advance
  let (item, index) ← eachNames
  let _ ← consume (.keyword .inWord) "'in'"
  let iterable ← header g
  let body ← g.block
  return .each item index iterable body

/-- Reads an imported name and its new name, if any. -/
def importItem : Parser ImportItem := do
  let name ← consumeName "imported name"
  if ← accept (.keyword .asWord) then return ⟨name, some (← consumeName "import alias")⟩
  else return ⟨name, none⟩

/-- Reads an import; the module may be a name or a string. -/
def importFrom : Parser StmtKind := do
  let _ ← advance
  let first ← importItem
  let items ← repeating (fun items => do
      if ← accept (.mark .comma) then return .inl (items ++ [← importItem])
      else return .inr items)
    [first]
  let _ ← consume (.keyword .fromWord) "'from'"
  match ← peekKind with
  | .name module | .string module =>
    let _ ← advance
    return .importFrom items module
  | _ => unexpected "module name"

/-- Reads an export. -/
def exportNames : Parser StmtKind := do
  let _ ← advance
  let first ← consumeName "exported name"
  let names ← repeating (fun names => do
      if ← accept (.mark .comma) then return .inl (names ++ [← consumeName "exported name"])
      else return .inr names)
    [first]
  return .exportNames names

/-- Whether the token under the cursor ends a statement. -/
def atStatementEnd : Parser Bool := do
  match ← peekKind with
  | .mark .semicolon | .mark .rightBrace | .finish => return true
  | _ => return false

/-- Reads a statement that begins with the word of its form, if there is one. -/
def wordedStatement? : Parser (Option StmtKind) := do
  let c ← get
  match c.current.kind with
  | .keyword .letWord | .keyword .varWord => return some (← declaration g)
  | .keyword .funcWord =>
    if (c.kindAfter 0).isName then return some (.function (← functionDef g)) else return none
  | .keyword .ifWord => return some (← g.branch)
  | .keyword .whileWord =>
    let _ ← advance
    let condition ← header g
    return some (.whileLoop condition (← g.block))
  | .keyword .doWord =>
    let _ ← advance
    let body ← g.block
    let _ ← consume (.keyword .whileWord) "'while' after do body"
    return some (.doWhile body (← header g))
  | .keyword .forWord => return some (← forLoop g)
  | .keyword .eachWord => return some (← eachLoop g)
  | .keyword .matchWord =>
    let _ ← advance
    let scrutinee ← header g
    return some (.matchOn scrutinee (← matchArms g))
  | .keyword .returnWord =>
    let _ ← advance
    if ← atStatementEnd then return some (.returnWith none)
    else return some (.returnWith (some (← g.expression)))
  | .keyword .breakWord =>
    let _ ← advance
    return some .breakLoop
  | .keyword .continueWord =>
    let _ ← advance
    return some .continueLoop
  | .keyword .importWord => return some (← importFrom)
  | .keyword .exportWord => return some (← exportNames)
  | .keyword .namespaceWord =>
    let _ ← advance
    let name ← consumeName "namespace name"
    return some (.namespaceBlock name (← g.block))
  | _ => return none

/-- Reads a statement and the semicolon after it, if any. An expression remembers whether it had
one. -/
def statementStep : Parser Stmt := do
  let position ← here
  match ← wordedStatement? g with
  | some kind =>
    let _ ← accept (.mark .semicolon)
    return ⟨position, kind⟩
  | none =>
    let value ← g.expression
    return ⟨position, .expression value (← accept (.mark .semicolon))⟩

/-- Reads statements between braces. -/
def blockStep : Parser Block := do
  let start ← consumeMark .leftBrace "'\x7b'"
  let statements ← restricting .none <| repeating (fun statements => do
      if (← check (.mark .rightBrace)) || (← atFinish) then return .inr statements.reverse
      else return .inl ((← g.statement) :: statements))
    []
  let _ ← consumeMark .rightBrace "'\x7d'"
  return ⟨statements, start.position⟩

/-- Reads a form, handing what is inside to `g`. -/
def Grammar.step {α : Type} : Form α → Parser α
  | .pattern => patternStep g.pattern
  | .expression => descending g.assignment
  | .assignment => assignmentStep g
  | .conditional => conditionalStep g
  | .infixFrom least => infixStep g least
  | .unary => unaryStep g
  | .block => blockStep g
  | .branch => branchStep g
  | .statement => statementStep g

/-- Reads a form in at most as many steps inside one another as the fuel says. -/
def readForm (fuel : Nat) {α : Type} (form : Form α) : Parser α :=
  match fuel with
  | 0 => throw .unfinished
  | fuel + 1 => Grammar.step ⟨readForm fuel⟩ form

/-- The grammar of the language, for as many steps inside one another as the fuel says. -/
def Grammar.fuelled (fuel : Nat) : Grammar := ⟨readForm fuel⟩

/-- Reads the statements of a module. -/
def program : Parser Block := do
  let position ← here
  let statements ← repeating (fun statements => do
      if ← atFinish then return .inr statements.reverse
      else return .inl ((← g.statement) :: statements))
    []
  return ⟨statements, position⟩

/-- Steps inside one another that suffice for `count` tokens: no more than a dozen are taken
without taking a token. -/
def fuelFor (count : Nat) : Nat :=
  16 * (count + 1)

/-- The statements that tokens make. -/
def ofTokens (tokens : List Token) : Except ParseError Block :=
  let cursor := Cursor.ofTokens tokens
  match (program (Grammar.fuelled (fuelFor (cursor.following.length + 1)))).run' cursor with
  | .ok block => .ok block
  | .error (.fault error) => .error error
  | .error .unfinished => .error (.invalid .nestingTooDeep cursor.current.position)

end ScriptEngine.Parse
