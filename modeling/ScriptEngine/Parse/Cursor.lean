import ScriptEngine.Tree.Basic

/-!
# Reading a list of tokens

A cursor stands on a token of a list that ends with `finish`, beyond which it does not move. With
it travel what the surroundings forbid, how deep expressions nest, and the next free number of an
expression. A `Parser` reads from a cursor and fails with the first fault it meets.
-/

namespace ScriptEngine

/-- What is wrong with a construct that has the right tokens. -/
inductive SyntaxFault
  | destructuringNeedsValue
  | numberAfterMinus
  | secondRest
  | assignmentTarget
  | unknownTypeName (lexeme : String)
  | stepTarget
  | nestingTooDeep
  | duplicateMember (name : String)
  | duplicateParameter (name : String)
deriving Repr, DecidableEq, Inhabited

/-- The wording of a fault. -/
def SyntaxFault.message : SyntaxFault → String
  | .destructuringNeedsValue => "destructuring declaration needs a value"
  | .numberAfterMinus => "expected number after '-'"
  | .secondRest => "at most one '..' per pattern"
  | .assignmentTarget => "invalid assignment target"
  | .unknownTypeName lexeme => "unknown type name '" ++ lexeme ++ "'"
  | .stepTarget => "increment target must be assignable"
  | .nestingTooDeep => "expression nesting too deep"
  | .duplicateMember name => "duplicate member '" ++ name ++ "'"
  | .duplicateParameter name => "duplicate parameter '" ++ name ++ "'"

/-- Why tokens make no program, and where. -/
inductive ParseError
  | unexpectedToken (expected found : String) (position : Position)
  | unexpectedEnd (expected : String) (position : Position)
  | invalid (fault : SyntaxFault) (position : Position)
deriving Repr, DecidableEq, Inhabited

namespace ParseError

/-- Where the fault is. -/
def position : ParseError → Position
  | .unexpectedToken _ _ p => p
  | .unexpectedEnd _ p => p
  | .invalid _ p => p

/-- The wording of the fault. -/
def message : ParseError → String
  | .unexpectedToken expected found p =>
    "expected " ++ expected ++ " but found '" ++ found ++ "' at " ++ p.text
  | .unexpectedEnd expected p =>
    "unexpected end of input, expected " ++ expected ++ " at " ++ p.text
  | .invalid fault p => "invalid syntax: " ++ fault.message ++ " at " ++ p.text

end ParseError

namespace Parse

/-- What the surroundings of an expression forbid. -/
structure Restrictions where
  /-- A brace after a name opens a body, not the members of a host object. -/
  noConstruct : Bool
  /-- A bar begins the next arm. -/
  inArm : Bool
  /-- An arrow belongs to the arm, not to a function. -/
  noLambda : Bool
deriving Repr, DecidableEq, Inhabited

namespace Restrictions

/-- Nothing is forbidden. -/
def none : Restrictions := ⟨false, false, false⟩

/-- The head of a loop, branch or match. -/
def header : Restrictions := ⟨true, false, false⟩

/-- The body of a match arm. -/
def armBody : Restrictions := ⟨false, true, false⟩

/-- The guard of a match arm. -/
def guard : Restrictions := ⟨true, true, true⟩

end Restrictions

/-- A place in a list of tokens: the token it stands on and those after it. -/
structure Cursor where
  current : Token
  following : List Token
  restrictions : Restrictions
  /-- The number of expressions and unary operands being read. -/
  depth : Nat
  /-- The number of the next expression. -/
  nextId : Nat
deriving Repr, Inhabited

/-- The token that ends a list which lacks one, at the place of its last token. -/
def finishAfter (tokens : List Token) : Token :=
  match tokens.getLast? with
  | some last => ⟨.finish, "", last.position, last.stop⟩
  | none => ⟨.finish, "", .nowhere, 0⟩

/-- The tokens with a `finish` at their end. -/
def closed (tokens : List Token) : List Token :=
  match tokens.getLast? with
  | some ⟨.finish, _, _, _⟩ => tokens
  | _ => tokens ++ [finishAfter tokens]

/-- The cursor on the first token. -/
def Cursor.ofTokens (tokens : List Token) : Cursor :=
  match closed tokens with
  | [] => ⟨finishAfter [], [], .none, 0, 1⟩
  | current :: following => ⟨current, following, .none, 0, 1⟩

/-- Why a parser stops: a fault of the text, or more steps than its caller allowed. -/
inductive Stop
  | fault (error : ParseError)
  | unfinished
deriving Repr, DecidableEq, Inhabited

/-- Reads from a cursor. -/
abbrev Parser := StateT Cursor (Except Stop)

/-! ## Looking at tokens -/

/-- The token under the cursor. -/
def peek : Parser Token := return (← get).current

/-- The kind of the token under the cursor. -/
def peekKind : Parser TokenKind := return (← get).current.kind

/-- The place of the token under the cursor. -/
def here : Parser Position := return (← get).current.position

/-- The kind of the token `n + 1` places on. -/
def Cursor.kindAfter (c : Cursor) (n : Nat) : TokenKind :=
  match c.following[n]? with
  | some token => token.kind
  | none => .finish

/-- The next cursor; the last token is never passed. -/
def Cursor.next (c : Cursor) : Cursor :=
  if c.current.kind = .finish then c
  else match c.following with
    | [] => c
    | current :: following => { c with current, following }

/-- Takes the token under the cursor. -/
def advance : Parser Token := do
  let token ← peek
  modify Cursor.next
  return token

/-- Whether the token under the cursor is of this kind. -/
def check (kind : TokenKind) : Parser Bool := return (← get).current.kind = kind

/-- Whether the tokens are used up. -/
def atFinish : Parser Bool := check .finish

/-- Takes the token under the cursor if it is of this kind. -/
def accept (kind : TokenKind) : Parser Bool := do
  if ← check kind then
    modify Cursor.next
    return true
  else return false

/-! ## Faults -/

/-- Fails with an error. -/
def fail {α : Type} (error : ParseError) : Parser α := throw (.fault error)

/-- The error that a token is not what is expected. -/
def unexpectedAt (token : Token) (expected : String) : ParseError :=
  if token.kind = .finish then .unexpectedEnd expected token.position
  else .unexpectedToken expected token.lexeme token.position

/-- Fails because the token under the cursor is not what is expected. -/
def unexpected {α : Type} (expected : String) : Parser α := do
  fail (unexpectedAt (← peek) expected)

/-- Takes a token of this kind or fails. -/
def consume (kind : TokenKind) (expected : String) : Parser Token := do
  if ← check kind then advance else unexpected expected

/-- Takes a mark or fails. -/
def consumeMark (mark : Mark) (expected : String) : Parser Token :=
  consume (.mark mark) expected

/-- Takes a name or fails. -/
def consumeName (expected : String) : Parser String := do
  match ← peekKind with
  | .name name =>
    let _ ← advance
    return name
  | _ => unexpected expected

/-! ## Surroundings -/

/-- Reads under other restrictions and goes back to those before. -/
def restricting {α : Type} (restrictions : Restrictions) (parser : Parser α) : Parser α := do
  let outer := (← get).restrictions
  modify ({ · with restrictions })
  let value ← parser
  modify ({ · with restrictions := outer })
  return value

/-- The number of expressions and unary operands that may stand inside one another. -/
def maxDepth : Nat := 256

/-- Reads one level deeper. -/
def descending {α : Type} (parser : Parser α) : Parser α := do
  if maxDepth ≤ (← get).depth then
    fail (.invalid .nestingTooDeep (← here))
  modify fun c => { c with depth := c.depth + 1 }
  let value ← parser
  modify fun c => { c with depth := c.depth - 1 }
  return value

/-- An expression with a number of its own. -/
def node (kind : ExprKind) (position : Position) : Parser Expr := do
  let c ← get
  set { c with nextId := c.nextId + 1 }
  return ⟨c.nextId, position, kind⟩

/-! ## Looking ahead -/

/-- What follows the closing bracket that answers the brackets open so far. -/
def followerOfGroup? : Nat → List Token → Option TokenKind
  | _, [] => none
  | opened, token :: rest =>
    match token.kind with
    | .mark .leftParen | .mark .leftBracket | .mark .leftBrace => followerOfGroup? (opened + 1) rest
    | .mark .rightParen | .mark .rightBracket | .mark .rightBrace =>
      if opened ≤ 1 then rest.head?.map (·.kind) else followerOfGroup? (opened - 1) rest
    | .finish => none
    | _ => followerOfGroup? opened rest

/-- Whether a group in parentheses stands here with this token behind it. -/
def groupFollowedBy (follower : TokenKind) : Parser Bool := do
  let c ← get
  return c.current.kind = .mark .leftParen && followerOfGroup? 1 c.following = some follower

/-- Whether the brace under the cursor opens the members of an entity: a name and a colon follow,
or the closing brace if an entity without members is allowed. -/
def membersAhead (allowEmpty : Bool) : Parser Bool := do
  let c ← get
  if c.current.kind = .mark .leftBrace then
    match c.kindAfter 0 with
    | .mark .rightBrace => return allowEmpty
    | .name _ | .string _ | .keyword _ => return c.kindAfter 1 = .mark .colon
    | _ => return false
  else return false

/-! ## Repetition -/

/-- Repeats a step until it ends with a result, at most as often as the fuel says. -/
def loop {σ α : Type} (step : σ → Parser (σ ⊕ α)) : Nat → σ → Parser α
  | 0, _ => throw .unfinished
  | fuel + 1, state => do
    match ← step state with
    | .inl state => loop step fuel state
    | .inr value => return value

/-- Repeats a step; each round but the last takes a token, so there are no more rounds than
tokens. -/
def repeating {σ α : Type} (step : σ → Parser (σ ⊕ α)) (state : σ) : Parser α := do
  loop step ((← get).following.length + 2) state

end Parse

end ScriptEngine
