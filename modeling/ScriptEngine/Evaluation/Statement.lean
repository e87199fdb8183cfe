import ScriptEngine.Evaluation.Expression

/-!
# Effects of statements

The functions of a block are declared before its first statement. The last expression of a block
that is not ended by a semicolon is its value; in a block that belongs to a statement, it returns
from the body around.
-/

namespace ScriptEngine.Eval

/-! ## Blocks -/

/-- Declares the named functions among some statements. -/
def hoist (frame : FrameId) : List Stmt → Eval Unit
  | [] => pure ()
  | s :: rest => do
    match s.kind with
    | .function definition =>
      match definition.name with
      | some name => declare frame name (← closure definition frame)
      | none => pure ()
    | _ => pure ()
    hoist frame rest

/-- Runs statements in order, and ends with the last expression if no semicolon ends that. -/
def statements {α : Type} (m : Machine) (frame : FrameId) (last : Expr → Eval α) (without : α) :
    List Stmt → Eval α
  | [] => return without
  | [⟨_, .expression value false⟩] => last value
  | s :: rest => do
    m.run (.stmt s frame)
    statements m frame last without rest

/-- Runs a block and gives the value of its last expression. -/
def block (m : Machine) (body : Block) (frame : FrameId) : Eval Value := do
  hoist frame body.statements
  statements m frame (fun e => eval m e frame) .unit body.statements

/-- Returns the value of an expression from the body around, unless it assigns. -/
def completeWith (m : Machine) (e : Expr) (frame : FrameId) : Eval Unit := do
  let value ← eval m e frame
  if e.isAssignmentLike then return () else signal (.returning value)

/-- Runs a block that belongs to a statement. -/
def inner (m : Machine) (body : Block) (frame : FrameId) : Eval Unit := do
  hoist frame body.statements
  statements m frame (fun e => completeWith m e frame) () body.statements

/-- Runs a block that belongs to a statement in a frame of its own. -/
def innerInside (m : Machine) (body : Block) (frame : FrameId) : Eval Unit := do
  m.run (.inner body (← blockFrame body frame))

/-! ## Loops -/

/-- Runs the body of a loop once, which is a step of the task: whether the loop may go on. -/
def loopBody (m : Machine) (body : Block) (frame : FrameId) : Eval Bool := do
  tick
  match ← attempt (innerInside m body frame) with
  | .ok () | .error .continuing => return true
  | .error .breaking => return false
  | .error s => signal s

/-- Whether a condition holds; none always does. -/
def holds (m : Machine) (condition : Option Expr) (frame : FrameId) : Eval Bool := do
  match condition with
  | some condition => return (← eval m condition frame).isTruthy
  | none => return true

/-- One round of a loop with its condition before the body and a step behind it. -/
def forRound (m : Machine) (condition step : Option Expr) (body : Block) (frame : FrameId) :
    Eval Bool := do
  if !(← holds m condition frame) then return false
  else if !(← loopBody m body frame) then return false
  else
    match step with
    | some step => let _ ← eval m step frame
    | none => pure ()
    return true

/-- One round of a loop with its condition behind the body. -/
def doRound (m : Machine) (condition : Expr) (body : Block) (frame : FrameId) : Eval Bool := do
  if !(← loopBody m body frame) then return false
  else holds m (some condition) frame

/-- One round of a loop over the elements of a value. -/
def eachRound (m : Machine) (item : String) (index : Option String) (body : Block)
    (frame : FrameId) (element : Value) (position : Nat) : Eval Bool := do
  let inside ← childFrame frame
  declare inside item element
  match index with
  | some index => declare inside index (.ofNat position)
  | none => pure ()
  loopBody m body inside

/-! ## Declarations and imports -/

/-- Declares the names of a pattern for the parts of a value. -/
def declarePattern (frame : FrameId) (pattern : Pattern) (value : Value) : Eval Unit := do
  match ← ask (·.bindPattern pattern value) with
  | some names => declareAll frame names
  | none => mismatch pattern value

/-- Evaluates and declares in order; what has no value is null. -/
def declarators (m : Machine) (frame : FrameId) : List Declarator → Eval Unit
  | [] => pure ()
  | ⟨target, value, _⟩ :: rest => do
    let value ← match value with
      | some value => eval m value frame
      | none => pure .null
    declarePattern frame target value
    declarators m frame rest

/-- Has names of a frame mean the slots of names in the frame of a module. -/
def importItems (frame exporter : FrameId) (source : String) : List ImportItem → Eval Unit
  | [] => pure ()
  | item :: rest => do
    let link : Link := ⟨← read, frame, item.localName, source, exporter, item.name⟩
    match ← ask (·.frames.localSlot? exporter item.name) with
    | some slot =>
      modify (·.link link slot)
      importItems frame exporter source rest
    | none =>
      modify (·.record (.missed link))
      panic (.varNotFound (source ++ "::" ++ item.name))

/-! ## Statements -/

/-- Runs a statement. -/
def statement (m : Machine) (s : Stmt) (frame : FrameId) : Eval Unit := do
  match s.kind with
  | .declare _ list => declarators m frame list
  | .function _ | .exportNames _ => return ()
  | .branch condition thenBranch elseBranch =>
    if (← eval m condition frame).isTruthy then innerInside m thenBranch frame
    else
      match elseBranch with
      | some elseBranch => innerInside m elseBranch frame
      | none => return ()
  | .whileLoop condition body => loop rounds (forRound m (some condition) none body frame)
  | .doWhile body condition => loop rounds (doRound m condition body frame)
  | .forLoop start condition step body =>
    let inside ← childFrame frame
    match start with
    | some start => m.run (.stmt start inside)
    | none => pure ()
    loop rounds (forRound m condition step body inside)
  | .each item index iterable body =>
    let value ← eval m iterable frame
    visit (eachRound m item index body frame) (← elements m value) 0
  | .matchOn scrutinee arms =>
    let value ← eval m scrutinee frame
    match ← selectArm m value frame arms with
    | none => return ()
    | some (arm, inside) =>
      match arm.body with
      | .block body => innerInside m body inside
      | .expr value => completeWith m value inside
  | .returnWith none => signal (.returning .unit)
  | .returnWith (some value) => signal (.returning (← eval m value frame))
  | .breakLoop => signal .breaking
  | .continueLoop => signal .continuing
  | .importFrom items source =>
    let exporter ← m.run (.module source)
    importItems frame exporter source items
  | .namespaceBlock name body =>
    let inside ← childFrame frame
    let _ ← boundary (m.run (.block body inside))
    declare frame name (.space inside)
  | .expression value _ =>
    let _ ← eval m value frame
    return ()

end ScriptEngine.Eval
