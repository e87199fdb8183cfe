import ScriptEngine.Evaluation.Expression
import ScriptEngine.Proofs.Evaluation.Regime
import ScriptEngine.Proofs.Parse.Results

/-!
# Accepted programs are well formed

Statements are as the checks on their way say too, and so are whole programs, by induction on how
many steps of a grammar stand inside one another. What a program writes to is a place then, so that
evaluation never refuses it.

* `givesAt_functionDef`: a function has a name if one stands behind its word.
* `gives_step`, `sound_fuelled`: one more step inside one another, and any number of them.
* `Eval.MayStop`: the signals that an evaluation may end by.
* `Module.wellFormed_of_ofSource`: the modules that source texts make.
-/

namespace ScriptEngine

namespace Parse

variable {α : Type} {g : Grammar}

/-! ## Named functions -/

theorem consume_eq {c : Cursor} {kind : TokenKind} (h : c.current.kind = kind) (expected : String) :
    consume kind expected c = .ok (c.current, c.next) := by
  change (if decide (c.current.kind = kind) = true then advance else unexpected expected) c = _
  rw [if_pos (decide_eq_true h)]
  rfl

/-- A name behind the current token is the next one. -/
theorem kind_next {c : Cursor} {kind : TokenKind} (word : c.current.kind ≠ .finish)
    (behind : c.kindAfter 0 = kind) (inside : kind ≠ .finish) : c.next.current.kind = kind := by
  rw [Cursor.next, if_neg word]
  unfold Cursor.kindAfter at behind
  cases following : c.following with
  | nil =>
    rw [following] at behind
    exact absurd behind.symm inside
  | cons token rest =>
    rw [following] at behind
    exact behind

section

variable (h : g.Sound)

include h

theorem givesAt_functionDef {c : Cursor} (word : c.current.kind = .keyword .funcWord)
    (named : (c.kindAfter 0).isName = true) :
    GivesAt c (fun definition => definition.name.isSome = true ∧ definition.WellFormed)
      (functionDef g) := by
  intro definition c' read
  obtain ⟨start, c₁, first, rest⟩ := exists_of_bind read
  rw [consume_eq word] at first
  cases first
  obtain ⟨kind, c₂, first, rest⟩ := exists_of_bind rest
  have next : kind = c.next.current.kind := by
    cases first
    rfl
  cases behind : c.kindAfter 0 with
  | name name =>
    have same : c.next.current.kind = .name name := by
      refine kind_next ?_ behind ?_
      · rw [word]
        exact fun same => by cases same
      · exact fun same => by cases same
    rw [same] at next
    subst next
    obtain ⟨_, c₃, -, rest⟩ := exists_of_bind rest
    obtain ⟨wellFormed, called⟩ := gives_functionRest h c.current (some name) c₃ definition c' rest
    exact ⟨called ▸ rfl, wellFormed⟩
  | _ =>
    rw [behind] at named
    cases named

/-! ## Statements -/

theorem gives_declarator : Gives Declarator.WellFormed (declarator g) := by
  refine .next fun position => .next fun opens => ?_
  have valued (target : Pattern) (wellFormed : target.WellFormed) : Gives Declarator.WellFormed (do
      let value ← do
        if ← accept (.mark .equal) then pure (some (← g.expression)) else pure none
      if value.isNone && !target.isBind then
        fail (.invalid .destructuringNeedsValue position)
      return ⟨target, value, position⟩) := by
    refine .next fun found => ?_
    cases found with
    | true =>
      exact h.expression.bind fun _ sound => .ret_bind (.ret ⟨wellFormed, fun _ => rfl, sound⟩)
    | false =>
      refine .ret_bind ?_
      dsimp only
      split
      · exact .fail_bind
      · next plain =>
        exact .ret ⟨wellFormed, fun unbound => absurd unbound (by simpa using plain), trivial⟩
  cases opens with
  | true => exact h.pattern.bind valued
  | false => exact .next fun name => .ret_bind (valued (.bind name) trivial)

theorem gives_declaration : Gives StmtKind.WellFormed (declaration g) := by
  refine .next fun token => (gives_declarator h).bind fun first wellFormed => ?_
  refine (Gives.collecting (P := Declarator.WellFormed) ?_ (.singleton wellFormed)).bind
    fun declarators sound => .ret (Declarator.allWellFormed_iff.mpr sound)
  intro declarators sound
  refine .next fun found => ?_
  cases found with
  | false => exact .ret sound
  | true =>
    exact (gives_declarator h).bind fun _ wellFormed => .ret (sound.push wellFormed)

theorem gives_branchStep : Gives StmtKind.WellFormed (branchStep g) := by
  refine .next fun _ => (gives_header h).bind fun _ condition => h.block.bind fun _ first =>
    .next fun found => ?_
  cases found with
  | false => exact .ret ⟨condition, first, trivial⟩
  | true =>
    refine .next fun again => ?_
    cases again with
    | true =>
      exact .next fun position => h.branch.bind fun _ second =>
        .ret ⟨condition, first, second, trivial⟩
    | false => exact h.block.bind fun _ second => .ret ⟨condition, first, second⟩

theorem gives_forStart : Gives Stmt.WellFormed (forStart g) := by
  refine .next fun token => ?_
  split
  · exact (gives_declaration h).bind fun _ wellFormed => .ret wellFormed
  · exact (gives_declaration h).bind fun _ wellFormed => .ret wellFormed
  · exact h.expression.bind fun _ wellFormed => .ret wellFormed

omit h in
/-- A clause that is left out asks for nothing. -/
theorem gives_clause? {P : Option α → Prop} {clause : Parser α} (stop : Mark) (missing : P none)
    (h : Gives (fun a => P (some a)) clause) : Gives P (clause? stop clause) := by
  refine .next fun stops => ?_
  cases stops with
  | true => exact .ret missing
  | false => exact h.bind fun _ found => .ret found

theorem gives_forLoop : Gives StmtKind.WellFormed (forLoop g) := by
  have clauses : Gives (fun r => Stmt.WellFormedIfAny r.1 ∧ Expr.WellFormedIfAny r.2.1 ∧
      Expr.WellFormedIfAny r.2.2) (do
      let start ← clause? .semicolon (forStart g)
      let _ ← consumeMark .semicolon "';' after for initializer"
      let condition ← clause? .semicolon g.expression
      let _ ← consumeMark .semicolon "';' after for condition"
      let update ← clause? .rightParen g.expression
      return (start, condition, update)) :=
    (gives_clause? (P := Stmt.WellFormedIfAny) _ trivial (gives_forStart h)).bind
      fun _ start => .next fun _ =>
      (gives_clause? (P := Expr.WellFormedIfAny) _ trivial h.expression).bind
      fun _ condition => .next fun _ =>
      (gives_clause? (P := Expr.WellFormedIfAny) _ trivial h.expression).bind
      fun _ update => .ret ⟨start, condition, update⟩
  refine .next fun _ => .next fun _ => (clauses.restricting _).bind ?_
  rintro ⟨start, condition, update⟩ ⟨started, conditioned, updated⟩
  exact .next fun _ => h.block.bind fun _ body => .ret ⟨started, conditioned, updated, body⟩

theorem gives_eachLoop : Gives StmtKind.WellFormed (eachLoop g) := by
  refine .next fun _ => .next ?_
  rintro ⟨item, index⟩
  exact .next fun _ => (gives_header h).bind fun _ iterable => h.block.bind fun _ body =>
    .ret ⟨iterable, body⟩

omit h in
theorem gives_importFrom : Gives StmtKind.WellFormed importFrom := by
  refine .next fun _ => .next fun first => .next fun items => .next fun _ => .next fun kind => ?_
  split
  · exact .next fun _ => .ret trivial
  · exact .next fun _ => .ret trivial
  · exact gives_unexpected

omit h in
theorem gives_exportNames : Gives StmtKind.WellFormed exportNames :=
  .next fun _ => .next fun _ => .next fun _ => .ret trivial

theorem gives_wordedStatement? :
    Gives (fun kind? => kind?.elim True StmtKind.WellFormed) (wordedStatement? g) := by
  refine .reading fun c => ?_
  split
  · exact .anywhere (.bind (gives_declaration h) fun _ wellFormed => .ret wellFormed)
  · exact .anywhere (.bind (gives_declaration h) fun _ wellFormed => .ret wellFormed)
  · next word =>
    -- Whether a function is a statement is seen ahead: the name is behind the cursor's own token.
    split
    · next named => exact (givesAt_functionDef h word named).bind fun _ sound => .ret sound
    · exact .anywhere (.ret trivial)
  · exact .anywhere (.bind h.branch fun _ wellFormed => .ret wellFormed)
  · exact .anywhere (.next fun _ => (gives_header h).bind fun _ condition => h.block.bind
      fun _ body => .ret ⟨condition, body⟩)
  · exact .anywhere (.next fun _ => h.block.bind fun _ body => .next fun _ => (gives_header h).bind
      fun _ condition => .ret ⟨condition, body⟩)
  · exact .anywhere (.bind (gives_forLoop h) fun _ wellFormed => .ret wellFormed)
  · exact .anywhere (.bind (gives_eachLoop h) fun _ wellFormed => .ret wellFormed)
  · exact .anywhere (.next fun _ => (gives_header h).bind fun _ scrutinee =>
      (gives_matchArms h).bind fun _ arms => .ret ⟨scrutinee, arms⟩)
  · refine .anywhere (.next fun _ => .next fun ends => ?_)
    cases ends with
    | true => exact .ret trivial
    | false => exact h.expression.bind fun _ wellFormed => .ret wellFormed
  · exact .anywhere (.next fun _ => .ret trivial)
  · exact .anywhere (.next fun _ => .ret trivial)
  · exact .anywhere (.bind gives_importFrom fun _ wellFormed => .ret wellFormed)
  · exact .anywhere (.bind gives_exportNames fun _ wellFormed => .ret wellFormed)
  · exact .anywhere (.next fun _ => .next fun _ => h.block.bind fun _ wellFormed => .ret wellFormed)
  · exact .anywhere (.ret trivial)

theorem gives_statementStep : Gives Stmt.WellFormed (statementStep g) := by
  refine .next fun position => (gives_wordedStatement? h).bind fun kind? sound => ?_
  cases kind? with
  | none => exact h.expression.bind fun _ wellFormed => .next fun _ => .ret wellFormed
  | some kind => exact .next fun _ => .ret sound

/-- Statements read one after the other, the latest first, up to a token that ends them. -/
theorem gives_statements (ends : Parser Bool) :
    Gives Stmt.AllWellFormed (repeating (fun statements => do
        if ← ends then return .inr statements.reverse
        else return .inl ((← g.statement) :: statements)) []) := by
  refine .repeating (I := Each Stmt.WellFormed) ?_ .nil
  intro statements sound
  refine .next fun ended => ?_
  cases ended with
  | true => exact .ret (Stmt.allWellFormed_iff.mpr fun s mem => sound s (List.mem_reverse.mp mem))
  | false =>
    exact h.statement.bind fun _ wellFormed => .ret (List.forall_mem_cons.mpr ⟨wellFormed, sound⟩)

theorem gives_blockStep : Gives Block.WellFormed (blockStep g) :=
  .next fun _ =>
    ((gives_statements h (do return (← check (.mark .rightBrace)) || (← atFinish))).restricting
      _).bind fun _ sound => .next fun _ => .ret sound

theorem gives_program : Gives Block.WellFormed (program g) :=
  .next fun _ => (gives_statements h atFinish).bind fun _ sound => .ret sound

/-- One more step inside one another. -/
theorem gives_step (form : Form α) : Gives form.WellFormed (Grammar.step g form) := by
  cases form with
  | pattern => exact gives_patternStep h.pattern
  | expression => exact h.assignment.descending
  | assignment => exact gives_assignmentStep h
  | conditional => exact gives_conditionalStep h
  | infixFrom least => exact gives_infixStep h least
  | unary => exact gives_unaryStep h
  | block => exact gives_blockStep h
  | branch => exact gives_branchStep h
  | statement => exact gives_statementStep h

end

theorem sound_fuelled (fuel : Nat) : (Grammar.fuelled fuel).Sound := by
  induction fuel with
  | zero => exact fun _ => gives_unfinished
  | succ fuel ih => exact fun form => gives_step ih form

/-! ## Programs -/

/-- Tokens that make a program make a well-formed one. -/
theorem wellFormed_of_ofTokens {tokens : List Token} {body : Block}
    (accepted : ofTokens tokens = .ok body) : body.WellFormed := by
  have sound := gives_program (sound_fuelled
    (fuelFor ((Cursor.ofTokens tokens).following.length + 1))) (Cursor.ofTokens tokens)
  simp only [ofTokens, StateT.run', Functor.map, Except.map] at accepted
  unfold GivesAt at sound
  generalize program _ (Cursor.ofTokens tokens) = read at accepted sound
  cases read with
  | ok result =>
    cases accepted
    exact sound result.1 result.2 rfl
  | error stop => cases stop <;> cases accepted

end Parse

/-! ## Places -/

/-- The parts of a place that are evaluated when something is written there. -/
def Expr.operands (target : Expr) : List Expr :=
  match target.kind with
  | .member object _ | .tupleIndex object _ => [object]
  | .index object index => [object, index]
  | _ => []

/-- An evaluation that has got so far may end by a signal, in some world that it is continued in. -/
inductive Progress.MayStop {α : Type} (s : Signal) : Progress α → Prop
  | stopped (w : World) : MayStop s (.stopped (.signal s) w)
  | waiting {wait : Wait} {w : World} {resume : World → Progress α} (w' : World) :
    MayStop s (resume w') → MayStop s (.waiting wait w resume)

/-- An evaluation may end by a signal, in some world that it is begun in. -/
def Eval.MayStop {α : Type} (env : EnvId) (s : Signal) (x : Eval α) : Prop :=
  ∃ w, (x env w).MayStop s

section

variable {α β : Type} {env : EnvId} {s : Signal}

theorem Progress.MayStop.of_bind {p : Progress α} {next : α → World → Progress β}
    (h : (p.bind next).MayStop s) : p.MayStop s ∨ ∃ v w, (next v w).MayStop s := by
  induction p with
  | done v w => exact .inr ⟨v, w, h⟩
  | stopped stop w =>
    cases h
    exact .inl (.stopped w)
  | waiting wait w resume ih =>
    cases h with
    | waiting w' later =>
      rcases ih w' later with first | second
      · exact .inl (.waiting w' first)
      · exact .inr second

namespace Eval

/-- Evaluations one after the other end by a signal of one of them. -/
theorem MayStop.of_bind {x : Eval α} {f : α → Eval β} (h : (x >>= f).MayStop env s) :
    x.MayStop env s ∨ ∃ v, (f v).MayStop env s := by
  obtain ⟨w, h⟩ := h
  rw [bind_eq] at h
  rcases h.of_bind with first | ⟨v, w', second⟩
  · exact .inl ⟨w, first⟩
  · exact .inr ⟨v, w', second⟩

theorem not_mayStop_pure {v : α} : ¬ (pure v : Eval α).MayStop env s := by
  rintro ⟨w, h⟩
  cases h

/-- What is written to is evaluated with no signal but those of its parts. -/
theorem mayStop_place {m : Machine} {target : Expr} {frame : FrameId}
    (place : target.isPlace = true) (h : (Eval.place m target frame).MayStop env s) :
    ∃ operand ∈ target.operands, (eval m operand frame).MayStop env s := by
  obtain ⟨id, position, kind⟩ := target
  cases kind with
  | name name => exact absurd h not_mayStop_pure
  | member object name =>
    rcases h.of_bind with first | ⟨v, rest⟩
    · exact ⟨object, List.mem_singleton_self object, first⟩
    · exact absurd rest not_mayStop_pure
  | index object index =>
    rcases h.of_bind with first | ⟨v, rest⟩
    · exact ⟨object, List.mem_cons_self, first⟩
    · rcases rest.of_bind with second | ⟨v', rest⟩
      · exact ⟨index, List.mem_cons_of_mem _ (List.mem_singleton_self index), second⟩
      · exact absurd rest not_mayStop_pure
  | tupleIndex object index =>
    rcases h.of_bind with first | ⟨v, rest⟩
    · exact ⟨object, List.mem_singleton_self object, first⟩
    · exact absurd rest not_mayStop_pure
  | _ => cases place

end Eval

end

/-! ## Modules -/

/-- A source text that is accepted makes a well-formed module: steps and assignments have places to
write to, members and parameters have names of their own, patterns mark the rest at most once, and
whatever needs a value or a name has one. So evaluation never refuses what is written to: it stops
there only if it does so in one of the parts of the place. -/
theorem Module.wellFormed_of_ofSource {name source : String} {m : Module}
    (accepted : Module.ofSource name source = .ok m) :
    m.body.WellFormed ∧
    ∀ target, Part.place target ∈ m.parts → ∀ (machine : Machine) (frame : FrameId) (env : EnvId)
      (s : Signal), (Eval.place machine target frame).MayStop env s →
      ∃ operand ∈ target.operands, (Eval.eval machine operand frame).MayStop env s := by
  have wellFormed : m.body.WellFormed := by
    unfold Module.ofSource at accepted
    split at accepted
    · cases accepted
    · split at accepted
      · cases accepted
      · next read =>
        cases accepted
        exact Parse.wellFormed_of_ofTokens read
  refine ⟨wellFormed, fun target mem machine frame env s stops => ?_⟩
  obtain ⟨place, -⟩ := Module.parts_wellFormed wellFormed _ mem
  exact Eval.mayStop_place place stops

/-- A text with a pattern, ignored parameters, a step, an assignment and an object of a host class.
-/
def steppingText : String :=
  "let (a, ..) = b; func f(x, _, _) => a.x[x]++; a.y = P { x: a, y: b };"

theorem Module.wellFormed_of_steppingText :
    ∃ m, Module.ofSource "main" steppingText = .ok m ∧ m.body.WellFormed := by
  have accepted : (Module.ofSource "main" steppingText).toOption.isSome = true := by decide +kernel
  cases read : Module.ofSource "main" steppingText with
  | error e =>
    rw [read] at accepted
    cases accepted
  | ok m => exact ⟨m, rfl, (Module.wellFormed_of_ofSource read).1⟩

end ScriptEngine
