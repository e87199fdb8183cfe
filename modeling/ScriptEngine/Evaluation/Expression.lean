import ScriptEngine.Evaluation.Call
import ScriptEngine.Store.Equality
import ScriptEngine.Store.Operation

/-!
# Values of expressions

What each form of expression evaluates to. An operand that is not needed is not evaluated, and any
other one is evaluated once.
-/

namespace ScriptEngine.Eval

/-- The value of an expression: a literal or a name at once, and any other one level down. -/
def eval (m : Machine) (e : Expr) (frame : FrameId) : Eval Value :=
  match e.kind with
  | .literal value => return .ofLiteral value
  | .name name => lookup frame name
  | _ => m.run (.expr e frame)

/-- Evaluates expressions in order. -/
def evaluateAll (m : Machine) (frame : FrameId) : List Expr → Eval (List Value)
  | [] => return []
  | e :: es => do
    let first ← eval m e frame
    return first :: (← evaluateAll m frame es)

/-- A function of a definition in a frame. -/
def closure (definition : FunctionDef) (frame : FrameId) : Eval Value :=
  newFunction (.closure definition frame)

/-- The frame of a block that stands in a frame; a block without declarations needs none of its own.
-/
@[inline] def blockFrame (body : Block) (frame : FrameId) : Eval FrameId :=
  if body.declares then childFrame frame else return frame

/-- Runs a block inside a frame; a return ends it with its value. -/
def blockValue (m : Machine) (body : Block) (frame : FrameId) : Eval Value := do
  let inside ← blockFrame body frame
  boundary (m.run (.block body inside))

/-! ## Literals of data -/

/-- Evaluates the entries of a map in order. -/
def mapEntries (m : Machine) (frame : FrameId) :
    List (Expr × Expr) → OrderedMap Value → Eval (OrderedMap Value)
  | [], entries => return entries
  | (key, value) :: rest, entries => do
    let key ← eval m key frame
    let key ← ask (·.keyOf key)
    let value ← eval m value frame
    mapEntries m frame rest (entries.insert key value)

/-- Evaluates the members of an entity in order; each can see those before it. -/
def defineMembers (m : Machine) (entity : EntityRef) (frame : FrameId) :
    List MemberInit → Eval Unit
  | [] => pure ()
  | ⟨name, value, _⟩ :: rest => do
    let value ← eval m value frame
    change (·.define entity name value)
    defineMembers m entity frame rest

/-- Makes an entity, over a base or not. -/
def newEntity (m : Machine) (base : Option Nat) (members : List MemberInit) (frame : FrameId) :
    Eval Value := do
  let entity ← make (·.newEntity (← read) base)
  let inside ← newFrame (some frame) (some entity)
  defineMembers m entity inside members
  return .entity entity

/-- Evaluates the members of a construction: functions become members of the entity, and the host
values of the others are given back. -/
def constructionFields (m : Machine) (entity : EntityRef) (frame : FrameId) :
    List MemberInit → HostState → Eval HostState
  | [], fields => return fields
  | ⟨name, value, _⟩ :: rest, fields => do
    match ← eval m value frame with
    | .function id =>
      change (·.define entity name (.function id))
      constructionFields m entity frame rest fields
    | data =>
      let field ← demand (·.toHost data)
      constructionFields m entity frame rest (fields ++ [(name, field)])

/-- Makes an object of a host class and an entity in front of it. -/
def construct (m : Machine) (className : String) (members : List MemberInit) (frame : FrameId) :
    Eval Value := do
  match ← lookup frame className with
  | .hostClass ref =>
    let entity ← make (·.newEntity (← read) none)
    let inside ← newFrame (some frame) (some entity)
    let fields ← constructionFields m entity inside members []
    match ← ask (·.construct? ref fields) with
    | some (.ok object) =>
      let host ← make (·.newHost (.custom object))
      change (·.modifyArena entity.env (·.attachHost entity.id host))
      return .entity entity
    | some (.error e) => panic e.panic
    | none => panic (.typeMismatch ("'" ++ className ++ "' is not a host class"))
  | _ => panic (.typeMismatch ("'" ++ className ++ "' is not a host class"))

/-! ## Assignments -/

/-- Evaluates the parts of a place. -/
def place (m : Machine) (e : Expr) (frame : FrameId) : Eval Place := do
  match e.kind with
  | .name name => return .name name
  | .member object name => return .member (← eval m object frame) name
  | .index object index =>
    let object ← eval m object frame
    return .item object (← eval m index frame)
  | .tupleIndex object index => return .position (← eval m object frame) index
  | _ => panic (.invalidOperation "invalid assignment target")

/-- Steps the number in a place. -/
def update (m : Machine) (op : UpdateOp) (before : Bool) (target : Expr) (frame : FrameId) :
    Eval Value := do
  let place ← place m target frame
  match ← readPlace m place frame with
  | .number current =>
    let next := match op with
      | .increment => current + 1.0
      | .decrement => current - 1.0
    writePlace place (.number next) frame
    return .number (if before then next else current)
  | other =>
    panic (.typeMismatch ("cannot increment or decrement a " ++ other.typeName))

/-- Why a value does not fit a pattern. -/
def mismatch {α : Type} (pattern : Pattern) (value : Value) : Eval α := do
  panic (Store.mismatch (← ask (·.report value)) pattern)

/-- Assigns a value to a place or the parts of a pattern. -/
def assign (m : Machine) (op : AssignOp) (target : AssignTarget) (value : Expr)
    (frame : FrameId) : Eval Value := do
  match target with
  | .place target =>
    let place ← place m target frame
    let value ← eval m value frame
    let value ← match op.binary? with
      | some op =>
        let current ← readPlace m place frame
        demand fun s => op.apply s current value
      | none => pure value
    writePlace place value frame
    return value
  | .pattern pattern =>
    let value ← eval m value frame
    match ← ask (·.bindPattern pattern value) with
    | some names =>
      assignNames frame names
      return value
    | none => mismatch pattern value

/-! ## Matching -/

/-- The first arm that a value fits and whose guard holds, with a frame of what its pattern binds.
-/
def selectArm (m : Machine) (value : Value) (frame : FrameId) :
    List Arm → Eval (Option (Arm × FrameId))
  | [] => return none
  | arm :: arms => do
    match ← ask (·.bindPattern arm.pattern value) with
    | none => selectArm m value frame arms
    | some names =>
      let inside ← childFrame frame
      declareAll inside names
      match arm.guard with
      | none => return some (arm, inside)
      | some guard =>
        if (← eval m guard inside).isTruthy then return some (arm, inside)
        else selectArm m value frame arms

/-! ## Operators -/

/-- Applies an operator; the second operand of `&&` and `||` is only evaluated if it counts. -/
def binary (m : Machine) (op : BinaryOp) (left right : Expr) (frame : FrameId) : Eval Value := do
  let first ← eval m left frame
  match op with
  | .and =>
    if !first.isTruthy then return .bool false
    else return .bool (← eval m right frame).isTruthy
  | .or =>
    if first.isTruthy then return .bool true
    else return .bool (← eval m right frame).isTruthy
  | _ =>
    let second ← eval m right frame
    demand fun s => op.apply s first second

/-- Calls what an expression stands for, a member as a method. -/
def call (m : Machine) (callee : Expr) (args : List Expr) (frame : FrameId) : Eval Value := do
  match callee.kind with
  | .member object name =>
    let receiver ← eval m object frame
    let args ← evaluateAll m frame args
    m.run (.callMethod receiver name args (← this? frame))
  | _ =>
    let function ← eval m callee frame
    let args ← evaluateAll m frame args
    m.run (.call function args none)

/-- The base of the entity that a frame belongs to. -/
def baseOf (frame : FrameId) : Eval Value := do
  match ← ask fun s => (s.frames.this? frame).bind s.base? with
  | some base => return .entity base
  | none => panic ⟨.entityNotFound, "no base entity in scope"⟩

/-! ## Expressions -/

/-- Evaluates an expression. -/
def expression (m : Machine) (e : Expr) (frame : FrameId) : Eval Value := do
  match e.kind with
  | .literal value => return .ofLiteral value
  | .name name => lookup frame name
  | .this =>
    match ← this? frame with
    | some entity => return .entity entity
    | none =>
      modify (·.note .unboundThis)
      panic ⟨.entityNotFound, "'this' used outside an entity"⟩
  | .base => baseOf frame
  | .external name => lookupGlobal name
  | .scoped space name =>
    match ← eval m space frame with
    | .space inside => spaceMember inside name
    | other => panic (.memberNotFound other.typeName name)
  | .array items => newArray (← evaluateAll m frame items)
  | .map entries => newMap (← mapEntries m frame entries .empty)
  | .tuple items => return .tuple (← evaluateAll m frame items)
  | .entity members => newEntity m none members frame
  | .extend base members =>
    match ← eval m base frame with
    | .entity entity => newEntity m (some entity.id) members frame
    | other => panic (.typeMismatch ("cannot extend a " ++ other.typeName))
  | .construct className members => construct m className members frame
  | .unary op operand => ofExcept (op.apply (← eval m operand frame))
  | .binary op left right => binary m op left right frame
  | .typeTest value typeName =>
    return .bool ((← eval m value frame).satisfies typeName)
  | .update op before target => update m op before target frame
  | .assign op target value => assign m op target value frame
  | .conditional condition thenBranch elseBranch =>
    if (← eval m condition frame).isTruthy then eval m thenBranch frame
    else eval m elseBranch frame
  | .pipe value function =>
    let value ← eval m value frame
    let function ← eval m function frame
    m.run (.call function [value] none)
  | .call callee args => call m callee args frame
  | .member object name =>
    let object ← eval m object frame
    member object name (← this? frame)
  | .tupleIndex object index => positional (← eval m object frame) index
  | .index object index =>
    let object ← eval m object frame
    let index ← eval m index frame
    item m object index (← this? frame)
  | .function definition => closure definition frame
  | .block body => blockValue m body frame
  | .async body =>
    let inside ← childFrame frame
    return .promise (← enqueue (← read) "async" (.block body inside))
  | .safe body =>
    let result ← contain (blockValue m body frame)
    make (·.newSafe result)
  | .lock key body =>
    let name ← match key with
      | some key =>
        let key ← eval m key frame
        ask fun s => .keyed (s.keyOf key)
      | none => pure .plain
    holdingLock name (blockValue m body frame)
  | .matchOn scrutinee arms =>
    let value ← eval m scrutinee frame
    match ← selectArm m value frame arms with
    | none => return .unit
    | some (arm, inside) =>
      match arm.body with
      | .block body => blockValue m body inside
      | .expr value => eval m value inside

end ScriptEngine.Eval
