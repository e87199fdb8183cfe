import ScriptEngine.Token.Basic
import ScriptEngine.Text.Alphabet

/-!
# Operators

The operators of the language, how strongly the infix ones bind, and the names of the kinds of
values that `<:` asks about.
-/

namespace ScriptEngine

/-- Operators with two operands. -/
inductive BinaryOp
  | add | subtract | multiply | divide | modulo
  | equal | notEqual | less | lessEqual | greater | greaterEqual
  | and | or | bitAnd | bitOr | bitXor | shiftLeft
deriving Repr, DecidableEq, Inhabited

/-- The spelling of an operator. -/
def BinaryOp.symbol : BinaryOp → String
  | .add => "+"
  | .subtract => "-"
  | .multiply => "*"
  | .divide => "/"
  | .modulo => "%"
  | .equal => "=="
  | .notEqual => "!="
  | .less => "<"
  | .lessEqual => "<="
  | .greater => ">"
  | .greaterEqual => ">="
  | .and => "&&"
  | .or => "||"
  | .bitAnd => "&"
  | .bitOr => "|"
  | .bitXor => "^"
  | .shiftLeft => "<<"

/-- Operators before their one operand. -/
inductive UnaryOp
  | negate | plus | not | bitNot
deriving Repr, DecidableEq, Inhabited

/-- Plain assignment and its compound forms. -/
inductive AssignOp
  | assign | add | subtract | multiply | divide | modulo
deriving Repr, DecidableEq, Inhabited

/-- The arithmetic that a compound assignment applies. -/
def AssignOp.binary? : AssignOp → Option BinaryOp
  | .assign => none
  | .add => some .add
  | .subtract => some .subtract
  | .multiply => some .multiply
  | .divide => some .divide
  | .modulo => some .modulo

/-- Steps up and down. -/
inductive UpdateOp
  | increment | decrement
deriving Repr, DecidableEq, Inhabited

/-- The kinds of values that a type test asks about. -/
inductive TypeName
  | number | string | bool | unit | null | array | tuple | map | object | function | promise
  | external
deriving Repr, DecidableEq, Inhabited

/-- The spelling of each kind; an object may also be called an entity. -/
def TypeName.table : List (String × TypeName) :=
  [("number", .number), ("string", .string), ("bool", .bool), ("unit", .unit), ("null", .null),
   ("array", .array), ("tuple", .tuple), ("map", .map), ("object", .object), ("entity", .object),
   ("function", .function), ("promise", .promise), ("external", .external)]

/-- The kind with this name. -/
def TypeName.ofText? (text : String) : Option TypeName :=
  TypeName.table.lookup text

/-- What an infix mark builds. -/
inductive Infix
  | binary (op : BinaryOp)
  | pipe
  | typeTest
deriving Repr, DecidableEq, Inhabited

/-- Each infix mark, what it builds and its precedence: the higher binds the tighter, and all
associate to the left. -/
def Infix.table : List (Mark × Infix × Nat) :=
  [(.pipeForward, .pipe, 1),
   (.orOr, .binary .or, 2),
   (.andAnd, .binary .and, 3),
   (.bar, .binary .bitOr, 4),
   (.caret, .binary .bitXor, 5),
   (.amp, .binary .bitAnd, 6),
   (.equalEqual, .binary .equal, 7), (.notEqual, .binary .notEqual, 7),
   (.less, .binary .less, 8), (.lessEqual, .binary .lessEqual, 8),
   (.greater, .binary .greater, 8), (.greaterEqual, .binary .greaterEqual, 8),
   (.subtype, .typeTest, 8),
   (.shiftLeft, .binary .shiftLeft, 9),
   (.plus, .binary .add, 10), (.minus, .binary .subtract, 10),
   (.star, .binary .multiply, 11), (.slash, .binary .divide, 11), (.percent, .binary .modulo, 11)]

/-- The least precedence of an infix operator. -/
def Infix.loosest : Nat := 1

/-- What a token builds between two operands, with its precedence. -/
def Infix.ofToken? : TokenKind → Option (Infix × Nat)
  | .mark mark => Infix.table.lookup mark
  | _ => none

/-- The assignment that a token stands for. -/
def AssignOp.ofToken? : TokenKind → Option AssignOp
  | .mark .equal => some .assign
  | .mark .plusEqual => some .add
  | .mark .minusEqual => some .subtract
  | .mark .starEqual => some .multiply
  | .mark .slashEqual => some .divide
  | .mark .percentEqual => some .modulo
  | _ => none

/-- The operator that a token stands for before an operand. -/
def UnaryOp.ofToken? : TokenKind → Option UnaryOp
  | .mark .not => some .not
  | .mark .minus => some .negate
  | .mark .plus => some .plus
  | .mark .tilde => some .bitNot
  | _ => none

/-- The step that a token stands for. -/
def UpdateOp.ofToken? : TokenKind → Option UpdateOp
  | .mark .plusPlus => some .increment
  | .mark .minusMinus => some .decrement
  | _ => none

/-- Names of host classes begin with a capital. -/
def isClassName (name : String) : Bool :=
  match name.toList with
  | [] => false
  | c :: _ => Text.isCapital c

/-- Names of private members begin with an underscore. -/
def isPrivateName (name : String) : Bool :=
  match name.toList with
  | '_' :: _ => true
  | _ => false

end ScriptEngine
