import ScriptEngine.Scope.Basic
import Std.Data.HashMap

/-!
# Findings of an analysis

An analysis of a module either rejects it, because it can never run, or gives its scopes, the type
of every expression, what every name means, and warnings.
-/

namespace ScriptEngine

/-- Why a module can never run. -/
inductive SemanticFault
  | redeclared (name : String) (previous : Position)
  | thisOutsideEntity
  | baseOutsideEntity
  | undeclaredAssignment (name : String)
  | undeclared (name : String)
  | loopControlOutsideLoop (word : String)
  | misplacedModuleItem (word : String)
deriving Repr, DecidableEq, Inhabited

/-- The wording of a fault. -/
def SemanticFault.message : SemanticFault → String
  | .redeclared name previous =>
    "'" ++ name ++ "' is already declared in this scope (at " ++ previous.text ++ ")"
  | .thisOutsideEntity => "'this' used outside of any entity body"
  | .baseOutsideEntity => "'base' used outside of any entity body"
  | .undeclaredAssignment name => "assignment to undeclared variable '" ++ name ++ "'"
  | .undeclared name => "'" ++ name ++ "' is not declared"
  | .loopControlOutsideLoop word => "'" ++ word ++ "' outside of a loop"
  | .misplacedModuleItem word => "'" ++ word ++ "' is only allowed at module level"

/-- A fault of a module and its place. -/
structure SemanticError where
  fault : SemanticFault
  module : String
  position : Position
deriving Repr, DecidableEq, Inhabited

/-- The place and the wording of an error. -/
def SemanticError.message (e : SemanticError) : String :=
  e.module ++ ":" ++ e.position.text ++ ": " ++ e.fault.message

/-- What looks wrong in a module that may still run. -/
inductive Warning
  | undeclared (name : String)
  | operands (op : BinaryOp) (left right : TypeExpr)
  | operand (type : TypeExpr)
  | branchesDiffer (mismatch : TypeMismatch)
  | argumentCount (callee : TypeExpr) (count : Nat)
deriving Repr, Inhabited

/-- The wording of a warning. -/
def Warning.message : Warning → String
  | .undeclared name => "'" ++ name ++ "' is not declared here; it must be supplied at run time"
  | .operands op left right =>
    "operator '" ++ op.symbol ++ "' cannot combine " ++ left.text ++ " and " ++ right.text
  | .operand type => "unary operator expects a number, found " ++ type.text
  | .branchesDiffer mismatch => "conditional branches differ: " ++ mismatch.message
  | .argumentCount callee count =>
    callee.text ++ " called with " ++ Decimal.natText count ++ " arguments"

/-- A warning and its place. -/
structure Diagnostic where
  warning : Warning
  position : Position
deriving Repr, Inhabited

/-- What an analysis comes across. -/
inductive Encounter
  /-- A scope gets a name. -/
  | declared (scope : ScopeId) (name : String)
  /-- The meaning of a name is asked for where a scope is the current one. -/
  | met (id : Nat) (name : String) (scope : ScopeId)
  /-- A name is written that means something in a scope, inside an entity or outside of any. -/
  | written (name : String) (scope : ScopeId) (inside : Bool)
deriving Repr, DecidableEq

/-- The findings about a module; types and meanings are kept by the numbers of expressions. -/
structure Analysis where
  table : ScopeTable
  moduleScope : ScopeId
  types : Std.HashMap Nat TypeExpr
  meanings : Std.HashMap Nat SymbolRef
  warnings : List Diagnostic
  /-- What was come across, the latest first. No other finding depends on it. -/
  trace : List Encounter

namespace Analysis

/-- Whether a name is declared at the top level of the module. -/
def declares (a : Analysis) (name : String) : Bool :=
  match a.table.scope? a.moduleScope with
  | some scope => (scope.get? name).isSome
  | none => false

end Analysis

/-- Names that are always bound. -/
def builtinNames : List String :=
  ["log", "warning", "error", "print", "panic", "sleep", "now", "len", "to_str", "to_num", "util"]

/-- The name of the list of arguments of a program. -/
def argsName : String := "args"

end ScriptEngine
