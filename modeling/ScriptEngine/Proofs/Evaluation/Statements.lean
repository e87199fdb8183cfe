import ScriptEngine.Evaluation.Pool
import ScriptEngine.Evaluation.Statement
import ScriptEngine.Proofs.Evaluation.Expressions

/-!
# Statements and runs are tame

A statement at a site may be left by a return, and by a break or continue if the site is in a loop.
A loop consumes those that leave its body.

One step of evaluation is tame if the machine below it is, and so is every evaluation through any
number of levels. How modules are run for those that import them is left open here.

* `tame_statements`: the statements of a block and its last expression.
* `tame_loopBody`: no break or continue leaves the body of a loop.
* `tame_statement`: one case for each kind of statement.
* `tame_task`, `tame_fulfil`: what tasks run, and what becomes of their results.
* `tame_program`: how programs become tasks.
* `tame_step`, `tame_run`: one level, and all of them.
-/

set_option linter.unusedSectionVars false

namespace ScriptEngine.Eval

variable {α : Type} {m : Machine} {d : Discipline} [d.Lawful] {env : EnvId} {base : World}
  {returns loop : Bool} {t : Site} {frame : FrameId}

/-! ## Blocks -/

/-- What no return leaves may stand where one could. -/
theorem Tame.returning {x : Eval α} (h : x.Tame d env base false loop) :
    x.Tame d env base returns loop :=
  h.imp (fun _ _ _ => trivial) fun _ within => within.imp (fun no => by cases no) fun inLoop => inLoop

theorem tame_hoist {list : List Stmt} (fits : Stmt.FitAll d.imports t list)
    (supports : d.Supports base t frame)
    (room : list.any (·.declares) = true → d.roomy base frame) :
    (hoist frame list).Tame d env base returns loop := by
  induction list with
  | nil => exact tame_pure
  | cons s list ih =>
    obtain ⟨position, kind⟩ := s
    obtain ⟨first, rest⟩ := fits
    have later := ih rest fun declares => room (by simp [declares])
    rw [hoist]
    cases kind with
    | function definition =>
      have fits : definition.Fits d.imports t := first
      dsimp only
      cases definition.name with
      | some name =>
        exact (tame_closure fits supports).andThen fun _ =>
          (tame_declare (room rfl)).andThen fun _ => later
      | none => exact later
    | _ => exact later

theorem tame_statements (tame : m.Tame d) {last : Expr → Eval α} {without : α}
    (h : ∀ e : Expr, e.Fits d.imports t → (last e).Tame d env base true t.inLoop) {list : List Stmt}
    (fits : Stmt.FitAll d.imports t list) (supports : d.Supports base t frame)
    (room : list.any (·.declares) = true → d.roomy base frame) :
    (statements m frame last without list).Tame d env base true t.inLoop := by
  induction list with
  | nil => exact tame_pure
  | cons s list ih =>
    obtain ⟨first, rest⟩ := fits
    unfold statements
    split
    · exact tame_pure
    · next same =>
      cases same
      exact h _ first
    · next same =>
      cases same
      refine (tame.stmt first supports fun declares => room (by simp [declares])).andThen fun _ => ?_
      exact ih rest fun declares => room (by simp [declares])

theorem tame_block (tame : m.Tame d) {body : Block} (fits : body.Fits d.imports t)
    (supports : d.Supports base t frame) (room : body.declares = true → d.roomy base frame) :
    (block m body frame).Tame d env base true t.inLoop := by
  obtain ⟨list, position⟩ := body
  have fits : Stmt.FitAll d.imports t list := fits
  refine (tame_hoist fits supports room).andThen fun _ => ?_
  exact tame_statements tame (fun e fits => (tame_eval tame fits supports).returning)
    fits supports room

/-- The last expression of a block that belongs to a statement returns its value. -/
theorem tame_completeWith (tame : m.Tame d) {e : Expr} (fits : e.Fits d.imports t)
    (supports : d.Supports base t frame) :
    (completeWith m e frame).Tame d env base true t.inLoop :=
  (tame_eval tame fits supports).returning.andThen fun _ =>
    .ite (fun _ => tame_pure) fun _ => .signal rfl

theorem tame_inner (tame : m.Tame d) {body : Block} (fits : body.Fits d.imports t)
    (supports : d.Supports base t frame) (room : body.declares = true → d.roomy base frame) :
    (inner m body frame).Tame d env base true t.inLoop := by
  obtain ⟨list, position⟩ := body
  have fits : Stmt.FitAll d.imports t list := fits
  refine (tame_hoist fits supports room).andThen fun _ => ?_
  exact tame_statements tame (fun e fits => tame_completeWith tame fits supports)
    fits supports room

theorem tame_innerInside (tame : m.Tame d) {body : Block} (fits : body.Fits d.imports t)
    (supports : d.Supports base t frame) :
    (innerInside m body frame).Tame d env base true t.inLoop :=
  (follows_blockFrame supports).bind fun _ _ _ keeps => tame.inner fits keeps.1 keeps.2

/-! ## Loops -/

/-- A break or continue that leaves the body of a loop is consumed by the loop. -/
theorem tame_loopBody (tame : m.Tame d) {body : Block} (fits : body.Fits d.imports t)
    (supports : d.Supports base t frame) :
    (loopBody m body frame).Tame d env base true loop := by
  refine tame_tick.andThen fun _ => ?_
  refine (Follows.attempt (tame_innerInside tame fits supports)).bind
    fun result w later ended => ?_
  match result with
  | .ok () => exact tame_pure
  | .error .continuing => exact tame_pure
  | .error .breaking => exact tame_pure
  | .error (.panic cause) => exact .signal trivial
  | .error (.returning value) => exact .signal rfl

theorem tame_holds (tame : m.Tame d) {condition : Option Expr}
    (fits : Expr.FitsIfAny d.imports t condition) (supports : d.Supports base t frame) :
    (holds m condition frame).Tame d env base true t.inLoop := by
  cases condition with
  | some condition =>
    have fits : condition.Fits d.imports t := fits
    exact (tame_eval tame fits supports).returning.andThen fun _ => tame_pure
  | none => exact tame_pure

theorem tame_forRound (tame : m.Tame d) {condition step : Option Expr} {body : Block}
    (conditionFits : Expr.FitsIfAny d.imports t condition) (stepFits : Expr.FitsIfAny d.imports t step)
    (bodyFits : body.Fits d.imports t.loop) (supports : d.Supports base t frame) :
    (forRound m condition step body frame).Tame d env base true t.inLoop := by
  refine (tame_holds tame conditionFits supports).andThen fun _ => ?_
  refine .ite (fun _ => tame_pure) fun _ => ?_
  refine (tame_loopBody tame bodyFits supports.loop).andThen fun _ => ?_
  refine .ite (fun _ => tame_pure) fun _ => ?_
  cases step with
  | some step =>
    have stepFits : step.Fits d.imports t := stepFits
    exact (tame_eval tame stepFits supports).returning.andThen fun _ => tame_pure
  | none => exact tame_pure

theorem tame_doRound (tame : m.Tame d) {condition : Expr} {body : Block}
    (conditionFits : condition.Fits d.imports t) (bodyFits : body.Fits d.imports t.loop)
    (supports : d.Supports base t frame) :
    (doRound m condition body frame).Tame d env base true t.inLoop := by
  have conditionFits : Expr.FitsIfAny d.imports t (some condition) := conditionFits
  refine (tame_loopBody tame bodyFits supports.loop).andThen fun _ => ?_
  exact .ite (fun _ => tame_pure) fun _ => tame_holds tame conditionFits supports

theorem tame_eachRound (tame : m.Tame d) {item : String} {index : Option String}
    {body : Block} {element : Value} {position : Nat} (fits : body.Fits d.imports t.loop)
    (supports : d.Supports base t frame) :
    (eachRound m item index body frame element position).Tame d env base true t.inLoop := by
  refine (follows_childFrame supports).bind fun inside w later keeps =>
    (tame_declare keeps.2).andThen fun _ => ?_
  have body : (loopBody m body inside).Tame d env w true t.inLoop :=
    tame_loopBody tame fits keeps.1.loop
  cases index with
  | some index => exact (tame_declare keeps.2).andThen fun _ => body
  | none => exact body

/-! ## Declarations and imports -/

theorem tame_declarePattern {pattern : Pattern} {value : Value} (room : d.roomy base frame) :
    (declarePattern frame pattern value).Tame d env base returns loop := by
  refine tame_ask.andThen fun names? => ?_
  cases names? with
  | some names => exact tame_declareAll room
  | none => exact tame_mismatch

theorem tame_declarators (tame : m.Tame d) {list : List Declarator}
    (fits : Declarator.FitAll d.imports t list) (supports : d.Supports base t frame)
    (room : d.roomy base frame) :
    (declarators m frame list).Tame d env base true t.inLoop := by
  induction list with
  | nil => exact tame_pure
  | cons declarator list ih =>
    obtain ⟨target, value, position⟩ := declarator
    obtain ⟨first, rest⟩ := fits
    have declared (value : Value) :
        (do declarePattern frame target value; declarators m frame list).Tame d env base true
          t.inLoop :=
      (tame_declarePattern room).andThen fun _ => ih rest
    cases value with
    | some value =>
      have first : value.Fits d.imports t := first
      exact (tame_eval tame first supports).returning.andThen fun value => declared value
    | none => exact tame_pure.andThen fun value => declared value

theorem tame_importItems (imports : d.imports) {exporter : FrameId} {source : String}
    {items : List ImportItem} :
    (importItems frame exporter source items).Tame d env base returns loop := by
  induction items with
  | nil => exact tame_pure
  | cons item items ih =>
    refine tame_read.andThen fun env' => tame_ask.andThen fun slot? => ?_
    cases slot? with
    | some slot =>
      refine Tame.andThen (.update fun w sound _ => ?_) fun _ => ih
      exact ⟨Discipline.Lawful.link imports sound, trivial⟩
    | none =>
      refine Tame.andThen (.update fun w sound _ => ?_) fun _ => tame_panic
      exact ⟨Discipline.Lawful.missed imports sound, trivial⟩

/-! ## Statements -/

/-- A statement that fits its site never meets an incident in a frame that supports the site, and
is left by a break or continue only in a loop. -/
theorem tame_statement (tame : m.Tame d) {s : Stmt} (fits : s.Fits d.imports t)
    (supports : d.Supports base t frame) (room : s.declares = true → d.roomy base frame) :
    (statement m s frame).Tame d env base true t.inLoop := by
  obtain ⟨position, kind⟩ := s
  cases kind with
  | declare word list => exact tame_declarators tame fits supports (room rfl)
  | function definition => exact tame_pure
  | exportNames names => exact tame_pure
  | branch condition thenBranch elseBranch =>
    obtain ⟨conditionFits, thenFits, elseFits⟩ := fits
    refine (tame_eval tame conditionFits supports).returning.andThen fun _ => ?_
    refine .ite (fun _ => tame_innerInside tame thenFits supports) fun _ => ?_
    cases elseBranch with
    | some elseBranch =>
      have elseFits : elseBranch.Fits d.imports t := elseFits
      exact tame_innerInside tame elseFits supports
    | none => exact tame_pure
  | whileLoop condition body =>
    obtain ⟨conditionFits, bodyFits⟩ := fits
    have conditionFits : Expr.FitsIfAny d.imports t (some condition) := conditionFits
    have noStep : Expr.FitsIfAny d.imports t none := trivial
    exact .loop (tame_forRound tame conditionFits noStep bodyFits supports)
  | doWhile body condition => exact .loop (tame_doRound tame fits.1 fits.2 supports)
  | forLoop start condition step body =>
    obtain ⟨startFits, conditionFits, stepFits, bodyFits⟩ := fits
    refine (follows_childFrame supports).bind fun inside w later keeps => ?_
    have rounds : (Eval.loop rounds (forRound m condition step body inside)).Tame d env w true
        t.inLoop :=
      .loop (tame_forRound tame conditionFits stepFits bodyFits keeps.1)
    cases start with
    | some start =>
      have startFits : start.Fits d.imports t := startFits
      exact (tame.stmt startFits keeps.1 fun _ => keeps.2).andThen fun _ => rounds
    | none => exact rounds
  | each item index iterable body =>
    obtain ⟨iterableFits, bodyFits⟩ := fits
    refine (tame_eval tame iterableFits supports).returning.andThen fun value => ?_
    refine (tame_elements tame).andThen fun items => ?_
    exact .visit fun element position => tame_eachRound tame bodyFits supports
  | matchOn scrutinee arms =>
    obtain ⟨scrutineeFits, armsFit⟩ := fits
    refine (tame_eval tame scrutineeFits supports).returning.andThen fun value => ?_
    refine ((follows_selectArm tame armsFit supports).imp (fun _ _ found => found)
      fun s within => within.imp (fun no => by cases no) fun inLoop => inLoop).bind
      fun chosen w later found => ?_
    cases chosen with
    | none => exact tame_pure
    | some chosen =>
      obtain ⟨⟨pattern, guard, body, position⟩, inside⟩ := chosen
      obtain ⟨bodyFits, supported⟩ := found _ _ rfl
      cases body with
      | block body => exact tame_innerInside tame bodyFits supported
      | expr value => exact tame_completeWith tame bodyFits supported
  | returnWith value =>
    cases value with
    | some value =>
      have fits : value.Fits d.imports t := fits
      exact (tame_eval tame fits supports).returning.andThen fun _ => .signal rfl
    | none => exact .signal rfl
  | breakLoop => exact .signal fits
  | continueLoop => exact .signal fits
  | importFrom items source =>
    exact Tame.andThen (tame.module fits).weaken fun _ => tame_importItems fits
  | namespaceBlock name body =>
    refine (follows_childFrame supports).bind fun inside w later keeps => ?_
    refine Tame.andThen (tame.block fits keeps.1 fun _ => keeps.2).boundary fun _ => ?_
    exact tame_declare (Discipline.Lawful.roomy_later later (room rfl))
  | expression value terminated =>
    have fits : value.Fits d.imports t := fits
    exact (tame_eval tame fits supports).returning.andThen fun _ => tame_pure

end ScriptEngine.Eval

namespace ScriptEngine.Eval

variable {m : Machine} {d : Discipline} [d.Lawful] {env : EnvId} {base : World}
  {returns loop : Bool}

/-! ## Tasks -/

omit [d.Lawful] in
/-- Only a panic comes out of a task whose code is at its place. -/
theorem tame_task (tame : m.Tame d) {t : Task} (fits : t.Fits d base) :
    (task m t).Tame d env base false false := by
  cases t with
  | block body frame =>
    obtain ⟨site, outside, fits, supports, room⟩ := fits
    have block : (m.run (.block body frame)).Tame d env base true site.inLoop :=
      tame.block fits supports fun _ => room
    rw [outside] at block
    exact block.boundary
  | apply callback args => exact tame.callAlone
  | method entity name args => exact tame.callMethod
  | program body args => exact fits.elim

omit [d.Lawful] in
theorem tame_fulfil (tame : m.Tame d) {promise : PromiseId} {t : Task}
    (h : (task m t).Tame d env base false false) :
    (fulfil m promise t).Tame d env base returns loop :=
  h.contain.andThen fun _ => tame.settle.weaken

/-- Running a module of an environment as a program, if jobs may be made of the modules. -/
theorem tame_program {accepts : World → Block → Prop} {name : String} {args : List Value}
    (lasts : ∀ {w w' : World} {body : Block}, d.later w w' → accepts w body → accepts w' body)
    (modules : ∀ {w : World}, d.sound w → ∀ m ∈ (w.environment env).forest.modules,
      accepts w m.tree.body)
    (jobs : ∀ {w : World} {promise : PromiseId} {body : Block}, d.sound w → accepts w body →
      d.Leads w (w.enqueue ⟨env, promise, .program body args⟩)) :
    (program name args).Tame d env base false false := by
  have asked : environment.Follows d env base
      (fun e w => ∀ m ∈ e.forest.modules, accepts w m.tree.body) (Signal.Within false false) :=
    .query fun _ sound _ => modules sound
  refine asked.bind fun environment w later accepted => ?_
  cases found : environment.forest.module? name with
  | none => exact tame_pure
  | some m =>
    have read : (read : Eval EnvId).Follows d env w (fun env' _ => env' = env)
        (Signal.Within false false) := .query fun _ _ _ => rfl
    refine read.bind fun env' w' later' same => ?_
    subst same
    refine Tame.andThen (tame_enqueue_of fun _ sound after => jobs sound ?_) fun promise => tame_await
    exact lasts (d.later_trans later' after) (accepted m (List.mem_of_find?_eq_some found))

/-! ## Levels -/

/-- How modules are run for those that import them keeps to a discipline, if code may import. -/
def Importing (d : Discipline) : Prop :=
  d.imports → ∀ {m : Machine}, m.Tame d → ∀ {env base name},
    (imported m name).Tame d env base false false

/-- One step of evaluation is tame if the machine for the goals below is. -/
theorem tame_step (importing : Importing d) (tame : m.Tame d) :
    Machine.Tame d ⟨fun goal => step m goal⟩ where
  expr fits supports := tame_expression tame fits supports
  stmt fits supports room := tame_statement tame fits supports room
  block fits supports room := tame_block tame fits supports room
  inner fits supports room := tame_inner tame fits supports room
  call home := tame_callValue tame home
  callMethod := tame_callMethod tame
  callHost := tame_callHost tame
  module imports := importing imports tame
  settle := tame_settle tame

/-- Evaluation through any number of levels is tame. -/
theorem tame_run (importing : Importing d) (levels : Nat) :
    Machine.Tame d ⟨fun goal => goal.run levels⟩ := by
  induction levels with
  | zero => constructor <;> intros <;> exact .unfinished
  | succ levels ih => exact tame_step importing ih

/-- An expression is evaluated one level above its parts. -/
theorem run_expr (levels : Nat) (e : Expr) (frame : FrameId) :
    (Goal.expr e frame).run (levels + 1) = expression ⟨fun goal => goal.run levels⟩ e frame :=
  rfl

end ScriptEngine.Eval
