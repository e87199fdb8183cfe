import Mathlib.Data.List.Basic
import ScriptEngine.Analysis.Infer
import ScriptEngine.Proofs.Evaluation.Regime
import ScriptEngine.Evaluation.Statement

/-!
# The last expression of a block

An analysis gives a block the type of its last expression, and a run gives it the value of that one,
if no semicolon ends it. Behind a block of its own an assignment counts for the value and not for the
type; behind a block that belongs to a statement it counts for neither.

* `Block.leading`: the statements before the last expression.
* `Block.TypedBy`, `Block.ValuedBy`: whose type and whose value a block of its own has.
* `Block.CompletesTypeBy`, `Block.CompletesValueBy`: whose type and whose value completes the body around
  a block that belongs to a statement.
* `Block.typed_and_valued`: which expression that is.
-/

namespace ScriptEngine

/-- The statements before the last expression, all of them if there is none. -/
def Block.leading (b : Block) : List Stmt :=
  match b.tail? with
  | some _ => b.statements.dropLast
  | none => b.statements

/-- The last expression, if it may complete a body. -/
def Block.completion? (b : Block) : Option Expr :=
  b.tail?.filter fun tail => !tail.isAssignmentLike

/-- A block ends in its last expression, or has none. -/
theorem Block.tail_cases (b : Block) :
    (∃ position tail, b.statements = b.leading ++ [⟨position, .expression tail false⟩] ∧
      b.tail? = some tail) ∨
    (b.tail? = none ∧ b.leading = b.statements) := by
  cases last : b.tail? with
  | none => exact .inr ⟨rfl, by rw [leading, last]⟩
  | some tail =>
    have dropped : b.leading = b.statements.dropLast := by rw [leading, last]
    unfold tail? at last
    split at last
    · next position value found =>
      cases last
      rw [dropped]
      exact .inl ⟨position, tail, (List.dropLast_append_getLast? _ found).symm, rfl⟩
    · cases last

/-! ## Analyses -/

namespace Analyzing

/-- Analyses a statement in its place; functions come later. -/
def analyzeInPlace (s : Stmt) : Analyzer Unit :=
  match s.kind with
  | .function _ => pure ()
  | _ => analyzeStmt s

/-- The type of a last expression, unit without one. -/
def inferTail : Option Expr → Analyzer TypeExpr
  | none => return .unit
  | some tail => infer tail

/-- A statement in front of others is analysed in its place. -/
theorem analyzeEach_cons {s : Stmt} {rest : List Stmt} (more : rest ≠ []) :
    analyzeEach (s :: rest) = (do
      analyzeInPlace s
      analyzeEach rest) := by
  obtain ⟨position, kind⟩ := s
  cases kind with
  | expression value terminated =>
    have inside : rest.isEmpty = false := by simpa using more
    simp only [analyzeEach, analyzeInPlace, analyzeStmt, analyzeStmtKind, inside, Bool.false_and,
      bind_assoc, pure_bind, bind_pure, Bool.false_eq_true, if_false]
  | function definition => simp only [analyzeEach, analyzeInPlace, pure_bind]
  | _ => simp only [analyzeEach, analyzeInPlace]

/-- The type of statements that end in an expression is that of the expression, unless that one
assigns. -/
theorem analyzeEach_concat (leading : List Stmt) (position : Position) (tail : Expr) :
    analyzeEach (leading ++ [⟨position, .expression tail false⟩]) = do
      leading.forM analyzeInPlace
      let type ← infer tail
      return if tail.isAssignmentLike then .unit else type := by
  induction leading with
  | nil =>
    simp only [List.nil_append, analyzeEach, List.forM_eq_forM, List.forM_nil, pure_bind]
    cases tail.isAssignmentLike <;> rfl
  | cons s leading ih =>
    rw [List.cons_append, analyzeEach_cons (List.append_ne_nil_of_right_ne_nil _ (by simp)), ih,
      List.forM_eq_forM, List.forM_cons, bind_assoc]

/-- Statements that do not end in an expression have unit. -/
theorem analyzeEach_of_tail?_eq_none (position : Position) :
    ∀ statements : List Stmt, Block.tail? ⟨statements, position⟩ = none →
      analyzeEach statements = do
        statements.forM analyzeInPlace
        return .unit
  | [], _ => by rw [analyzeEach, List.forM_eq_forM, List.forM_nil, pure_bind]
  | [⟨position, kind⟩], missing => by
    rw [List.forM_eq_forM, List.forM_cons, List.forM_nil, bind_assoc, pure_bind]
    cases kind with
    | expression value terminated =>
      cases terminated with
      | true =>
        simp only [analyzeEach, analyzeInPlace, analyzeStmt, analyzeStmtKind, bind_assoc, pure_bind,
          Bool.not_true, Bool.and_false, Bool.false_and, Bool.false_eq_true, if_false]
      | false => cases missing
    | function definition => simp only [analyzeEach, analyzeInPlace, pure_bind]
    | _ => simp only [analyzeEach, analyzeInPlace]
  | s :: s' :: rest, missing => by
    rw [analyzeEach_cons (List.cons_ne_nil _ _),
      analyzeEach_of_tail?_eq_none position (s' :: rest) missing]
    simp only [List.forM_eq_forM, List.forM_cons, bind_assoc]

end Analyzing

/-- An analysis of the statements of a block goes through them in order, the bodies of functions last,
and comes to the type of `e?`, which is the last expression, or to unit. -/
structure Block.TypedBy (b : Block) (e? : Option Expr) : Prop where
  last : ∀ e, e? = some e → b.tail? = some e
  walk : Analyzing.analyzeStatements b.statements = do
    Analyzing.declareFunctions b.statements
    b.leading.forM Analyzing.analyzeInPlace
    let type ← Analyzing.inferTail b.tail?
    Analyzing.analyzeBodies b.statements
    return if e?.isSome then type else .unit

/-- An analysis of a block that belongs to a statement completes the body around with the type of `e?`,
or not at all. -/
structure Block.CompletesTypeBy (b : Block) (e? : Option Expr) : Prop where
  typed : b.TypedBy e?
  walk : Analyzing.analyzeTransparent b = do
    let type ← Analyzing.inScope .block (Analyzing.analyzeStatements b.statements)
    if e?.isSome then Analyzing.complete type

/-! ## Runs -/

/-- The value of a last expression, unit without one. -/
def Eval.evalTail (m : Machine) (frame : FrameId) : Option Expr → Eval Value
  | none => return .unit
  | some tail => eval m tail frame

namespace Eval

variable {α : Type} {m : Machine} {frame : FrameId} {last : Expr → Eval α} {without : α}

variable (m frame last without) in
/-- Statements that end in an expression come to what is made of it. -/
theorem statements_concat (leading : List Stmt) (position : Position) (tail : Expr) :
    statements m frame last without (leading ++ [⟨position, .expression tail false⟩]) = (do
      leading.forM fun s => m.run (.stmt s frame)
      last tail) := by
  induction leading with
  | nil => simp only [List.nil_append, statements, List.forM_eq_forM, List.forM_nil, pure_bind]
  | cons s leading ih =>
    rw [List.cons_append, statements, ih, List.forM_eq_forM, List.forM_cons, bind_assoc]
    rintro _ _ - none
    exact List.append_ne_nil_of_right_ne_nil _ (List.cons_ne_nil _ _) none

/-- Statements that do not end in an expression come to nothing. -/
theorem statements_of_tail?_eq_none (position : Position) :
    ∀ list : List Stmt, Block.tail? ⟨list, position⟩ = none →
      statements m frame last without list = do
        list.forM fun s => m.run (.stmt s frame)
        return without
  | [], _ => by rw [statements, List.forM_eq_forM, List.forM_nil, pure_bind]
  | [s], missing => by
    rw [statements, statements, List.forM_eq_forM, List.forM_cons, List.forM_nil, bind_assoc, pure_bind]
    rintro _ _ rfl -
    cases missing
  | s :: s' :: rest, missing => by
    rw [statements, statements_of_tail?_eq_none position (s' :: rest) missing]
    · simp only [List.forM_eq_forM, List.forM_cons, bind_assoc]
    · rintro _ _ - none
      cases none

end Eval

/-- A run of a block goes through its statements in order, and comes to the value of `e?`, which is the
last expression, or to unit. -/
structure Block.ValuedBy (b : Block) (e? : Option Expr) : Prop where
  last : ∀ e, e? = some e → b.tail? = some e
  run : ∀ m frame, Eval.block m b frame = do
    Eval.hoist frame b.statements
    b.leading.forM fun s => m.run (.stmt s frame)
    let value ← Eval.evalTail m frame b.tail?
    return if e?.isSome then value else .unit

/-- A run of a block that belongs to a statement completes the body around with the value of `e?`, which
is the last expression, or not at all. -/
structure Block.CompletesValueBy (b : Block) (e? : Option Expr) : Prop where
  last : ∀ e, e? = some e → b.tail? = some e
  run : ∀ m frame, Eval.inner m b frame = do
    Eval.hoist frame b.statements
    b.leading.forM fun s => m.run (.stmt s frame)
    let value ← Eval.evalTail m frame b.tail?
    if e?.isSome then Eval.signal (.returning value)

/-! ## Whose type and whose value -/

namespace Block

variable {b : Block} {tail : Expr}

theorem completion?_isSome (last : b.tail? = some tail) :
    b.completion?.isSome = !tail.isAssignmentLike := by
  rw [completion?, last, Option.filter_some]
  cases tail.isAssignmentLike <;> rfl

theorem completion?_of_none (missing : b.tail? = none) : b.completion? = none := by
  rw [completion?, missing, Option.filter_none]

theorem tail?_of_completion? {e : Expr} (h : b.completion? = some e) : b.tail? = some e :=
  (Option.filter_eq_some_iff.mp h).1

theorem typedBy_completion? (b : Block) : b.TypedBy b.completion? where
  last _ := tail?_of_completion?
  walk := by
    rw [Analyzing.analyzeStatements, Analyzing.blockType]
    rcases b.tail_cases with ⟨position, tail, ends, last⟩ | ⟨missing, all⟩
    · have each := Analyzing.analyzeEach_concat b.leading position tail
      rw [← ends] at each
      rw [each, last, completion?_isSome last, Analyzing.inferTail]
      simp only [bind_assoc, pure_bind]
      cases tail.isAssignmentLike <;> rfl
    · rw [Analyzing.analyzeEach_of_tail?_eq_none b.position b.statements missing, all, missing,
        completion?_of_none missing, Analyzing.inferTail]
      simp only [bind_assoc, pure_bind]
      rfl

theorem completes_eq (b : Block) : Analyzing.completes b = b.completion?.isSome := by
  rw [Analyzing.completes]
  split
  · next tail last => rw [completion?_isSome last]
  · next missing => rw [completion?_of_none missing]; rfl

theorem completesTypeBy_completion? (b : Block) : b.CompletesTypeBy b.completion? where
  typed := b.typedBy_completion?
  walk := by
    obtain ⟨statements, position⟩ := b
    rw [Analyzing.analyzeTransparent, completes_eq]
    rfl

theorem valuedBy_tail? (b : Block) : b.ValuedBy b.tail? where
  last _ counts := counts
  run m frame := by
    rw [Eval.block]
    rcases b.tail_cases with ⟨position, tail, ends, last⟩ | ⟨missing, all⟩
    · have each := Eval.statements_concat m frame (fun e => Eval.eval m e frame) .unit b.leading
        position tail
      rw [← ends] at each
      rw [each, last, Eval.evalTail]
      simp only [Option.isSome_some, if_true, bind_pure]
    · rw [Eval.statements_of_tail?_eq_none b.position b.statements missing, all, missing,
        Eval.evalTail]
      simp only [pure_bind]
      rfl

theorem completesValueBy_completion? (b : Block) : b.CompletesValueBy b.completion? where
  last _ := tail?_of_completion?
  run m frame := by
    rw [Eval.inner]
    rcases b.tail_cases with ⟨position, tail, ends, last⟩ | ⟨missing, all⟩
    · have each := Eval.statements_concat m frame (fun e => Eval.completeWith m e frame) () b.leading
        position tail
      rw [← ends] at each
      rw [each, last, completion?_isSome last, Eval.evalTail]
      simp only [Eval.completeWith]
      cases tail.isAssignmentLike <;> rfl
    · rw [Eval.statements_of_tail?_eq_none b.position b.statements missing, all, missing,
        completion?_of_none missing, Eval.evalTail]
      simp only [pure_bind]
      rfl

/-- The last expression is not the completion only if it assigns. -/
theorem completion?_eq_tail?_iff (b : Block) :
    b.completion? = b.tail? ↔ ∀ tail, b.tail? = some tail → tail.isAssignmentLike = false := by
  rw [completion?]
  cases b.tail? with
  | none => simp
  | some tail => cases h : tail.isAssignmentLike <;> simp [h]

/-- A block of its own has the type and the value of one expression, unless its last expression assigns:
then it has the value of that one and no type. A block that belongs to a statement completes the body
around with the type and the value of one expression, or with neither. -/
theorem typed_and_valued (b : Block) :
    (b.TypedBy b.completion? ∧ b.ValuedBy b.tail? ∧
      (b.completion? = b.tail? ↔ ∀ tail, b.tail? = some tail → tail.isAssignmentLike = false)) ∧
    b.CompletesTypeBy b.completion? ∧ b.CompletesValueBy b.completion? :=
  ⟨⟨b.typedBy_completion?, b.valuedBy_tail?, b.completion?_eq_tail?_iff⟩,
    b.completesTypeBy_completion?, b.completesValueBy_completion?⟩

/-- The block `{ x = true }`. -/
def assigningBlock : Block :=
  ⟨[⟨.nowhere, .expression ⟨2, .nowhere,
    .assign .assign (.place ⟨0, .nowhere, .name "x"⟩) ⟨1, .nowhere, .literal (.bool true)⟩⟩ false⟩],
    .nowhere⟩

/-- An analysis gives the block unit and not the type of the assignment. A run gives it the value of the
assignment and not unit. -/
theorem not_typed_and_valued_assigningBlock :
    ¬ ∃ e?, assigningBlock.TypedBy e? ∧ assigningBlock.ValuedBy e? := by
  rintro ⟨e?, typed, valued⟩
  cases e? with
  | none =>
    let truth : Machine := ⟨fun
      | .expr .. => pure (.bool true)
      | _ => Eval.unfinished⟩
    have unit := congrFun (congrFun (valued.run truth 0) 0) default
    cases unit
  | some e =>
    have walk := typed.walk
    rw [Option.isSome_some] at walk
    have type : (Analyzing.analyzeStatements assigningBlock.statements ⟨"main", true⟩
        (Analyzing.State.start ["x"])).map (·.1.text) = .ok "unit" := by decide +kernel
    rw [walk] at type
    revert type
    decide +kernel

end Block

end ScriptEngine
