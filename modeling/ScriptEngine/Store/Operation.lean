import ScriptEngine.Store.Display
import ScriptEngine.Store.Equality

/-!
# Operators on values

What an operator gives for its operands, or the panic for operands that it cannot combine.
-/

namespace ScriptEngine

/-- Applies an operator with one operand. -/
def UnaryOp.apply : UnaryOp → Value → Except Panic Value
  | .not, value => .ok (.bool !value.isTruthy)
  | .negate, .number x => .ok (.number (-x))
  | .plus, .number x => .ok (.number x)
  | .bitNot, .number x => .ok (.number (~~~Decimal.bits x).toFloat)
  | _, value => .error (.typeMismatch ("unary operator needs a number, found " ++ value.typeName))

namespace BinaryOp

/-- Why an operator cannot combine two values. -/
def mismatch (op : BinaryOp) (left right : Value) : Panic :=
  .typeMismatch ("cannot apply '" ++ op.symbol ++ "' to " ++ left.typeName ++ " and " ++
    right.typeName)

/-- Division by zero is no number. -/
def divisionByZero : Panic := ⟨.divideByZero, "division by zero"⟩

/-- The arithmetic of an operator on numbers; bit operations work on 64-bit integers. -/
def arithmetic? (op : BinaryOp) (a b : Float) : Option (Except Panic Float) :=
  match op with
  | .add => some (.ok (a + b))
  | .subtract => some (.ok (a - b))
  | .multiply => some (.ok (a * b))
  | .divide => some (if b == 0.0 then .error divisionByZero else .ok (a / b))
  | .modulo => some (if b == 0.0 then .error divisionByZero else .ok (Decimal.remainder a b))
  | .bitAnd => some (.ok (Decimal.bits a &&& Decimal.bits b).toFloat)
  | .bitOr => some (.ok (Decimal.bits a ||| Decimal.bits b).toFloat)
  | .bitXor => some (.ok (Decimal.bits a ^^^ Decimal.bits b).toFloat)
  | .shiftLeft => some (.ok (Decimal.bits a <<< Decimal.bits b).toFloat)
  | _ => none

/-- The answer of a comparison of numbers; with a value that is no number it is always no. -/
def orderNumbers (op : BinaryOp) (a b : Float) : Bool :=
  match op with
  | .less => a < b
  | .lessEqual => a ≤ b
  | .greater => a > b
  | .greaterEqual => a ≥ b
  | _ => false

/-- The answer of a comparison of texts, which are in the order of their code points. -/
def orderTexts (op : BinaryOp) (a b : String) : Bool :=
  match op with
  | .less => a < b
  | .lessEqual => !decide (b < a)
  | .greater => b < a
  | .greaterEqual => !decide (a < b)
  | _ => false

/-- Compares two values of one kind. -/
def order (op : BinaryOp) (left right : Value) : Except Panic Value :=
  if left.isNull || right.isNull then
    .error ⟨.nullComparison, "cannot compare null with '" ++ op.symbol ++ "'"⟩
  else
    match left, right with
    | .number a, .number b => .ok (.bool (op.orderNumbers a b))
    | .string a, .string b => .ok (.bool (op.orderTexts a b))
    | _, _ => .error (op.mismatch left right)

/-- Applies an operator to two values in a store. -/
def apply (op : BinaryOp) (s : Store) (left right : Value) : Except Panic Value :=
  match op with
  | .equal => .ok (.bool (s.equals left right))
  | .notEqual => .ok (.bool !s.equals left right)
  | .less | .lessEqual | .greater | .greaterEqual => op.order left right
  | .and => .ok (.bool (left.isTruthy && right.isTruthy))
  | .or => .ok (.bool (left.isTruthy || right.isTruthy))
  | _ =>
    match left, right with
    | .number a, .number b =>
      match op.arithmetic? a b with
      | some result => result.map .number
      | none => .error (op.mismatch left right)
    | _, _ =>
      match op, left, right with
      | .add, .string _, _ | .add, _, .string _ =>
        .ok (.string (s.display left ++ s.display right))
      | _, _, _ => .error (op.mismatch left right)

end BinaryOp

end ScriptEngine
