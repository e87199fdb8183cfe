import ScriptEngine.Evaluation.Statement

/-!
# Running modules

Goals are evaluated by one step each, down to a given number of levels.
-/

namespace ScriptEngine

namespace Eval

/-! ## Modules -/

/-- A frame of a module with the arguments of the program. -/
def moduleFrame (args : List Value) : Eval FrameId := do
  let frame ← newFrame none none
  modify fun w => w.record (.opened frame w.turn.task)
  declare frame argsName (← newArray args)
  return frame

/-- Runs the top level of a module for those that import it. A return may leave it before its end. -/
def moduleBody (m : Machine) (body : Block) (frame : FrameId) : Eval Unit := do
  match ← attempt (m.run (.block body frame)) with
  | .ok _ => return ()
  | .error (.returning _) => modify (·.record (.left frame))
  | .error s => signal s

/-- Runs a module for those that import it, and keeps its frame unless it panics. -/
def initialised (m : Machine) (name : String) (body : Block) : Eval FrameId := do
  let env ← read
  modify (·.record (.began env name))
  let frame ← moduleFrame []
  match ← contain (moduleBody m body frame) with
  | .ok _ =>
    modify (·.initialise env name frame)
    return frame
  | .error p =>
    modify (·.record (.failed env name p))
    panic p

/-- The frame of a module, which is run when it is first asked for; if it panics, it will be run
again. -/
def loaded (m : Machine) (name : String) : Eval FrameId := do
  let environment ← environment
  match environment.modules.lookup name with
  | some frame => return frame
  | none =>
    match environment.forest.module? name with
    | none =>
      let env ← read
      modify (·.record (.unknown env name))
      panic (.noModule name)
    | some found => initialised m name found.tree.body

/-- The frame of a module that is imported. One task at a time runs modules of an environment. -/
def imported (m : Machine) (name : String) : Eval FrameId := holdingLock .modules (loaded m name)

/-! ## Tasks -/

/-- Evaluates what a job runs. -/
def task (m : Machine) : Task → Eval Value
  | .block body frame => boundary (m.run (.block body frame))
  | .apply callback args => m.run (.call callback args none)
  | .method entity name args => m.run (.callMethod (.entity entity) name args (some entity))
  | .program body args => do
    let frame ← moduleFrame args
    boundary (m.run (.block body frame))

/-- Runs a task and settles the promise of its result. -/
def fulfil (m : Machine) (promise : PromiseId) (t : Task) : Eval Unit := do
  m.run (.settle promise (← contain (task m t)))

/-! ## Levels -/

/-- One step of evaluation. -/
def step (m : Machine) {α : Type} : Goal α → Eval α
  | .expr e frame => expression m e frame
  | .stmt s frame => statement m s frame
  | .block body frame => block m body frame
  | .inner body frame => inner m body frame
  | .call function args this => callValue m function args this
  | .callMethod receiver name args viewer => callMethod m receiver name args viewer
  | .callHost ref name args => callHost m ref name args
  | .module name => imported m name
  | .settle promise result => settle m promise result

end Eval

/-- Evaluates a goal through at most so many levels. -/
def Goal.run : Nat → {α : Type} → Goal α → Eval α
  | 0, _, _ => Eval.unfinished
  | levels + 1, _, goal => Eval.step ⟨fun goal => goal.run levels⟩ goal

namespace Eval

/-- How deep a program may be evaluated: deeper than any run goes that comes to an end. -/
def levels : Nat := 1000000000000

/-- Evaluates a goal. -/
def goal {α : Type} (g : Goal α) : Eval α := g.run levels

/-- Runs a job, with an interpreter of its own. -/
def job (j : Job) (w : World) : Progress Unit :=
  anew (fulfil ⟨goal⟩ j.promise j.task) j.env w

/-- Runs a module of the environment as a program with arguments, in a task of its own. -/
def program (name : String) (args : List Value) : Eval (Except Panic Value) := do
  match (← environment).forest.module? name with
  | none => return .error (.noModule name)
  | some found => await (← enqueue (← read) name (.program found.tree.body args))

end Eval

end ScriptEngine
