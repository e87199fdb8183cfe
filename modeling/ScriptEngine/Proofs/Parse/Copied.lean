import ScriptEngine.Proofs.Parse.CopiedExpressions

/-!
# Nor do statements

Each form of statement copies its success in front of a closing parenthesis too, unless it takes the
end of the tokens for its own end. Inside braces it does not come to that end.

* `copies_step`, `copied_fuelled`: one more step inside one another, and any number of them.
* `barren_step`, `barren_fuelled`: every form fails at the end.
-/

namespace ScriptEngine.Parse

variable {tail : List Token} {α : Type} {g g' : Grammar}

section

variable (h : g.Copied tail g')

include h

/-! ## Statements -/

omit h in
theorem barren_forStart (h : Barren g.expression) : Barren (forStart g) := by
  refine .peek fun token ended => ?_
  rw [ended]
  exact h.bind

theorem copies_declarator : Copies tail true 0 (declarator g) (declarator g') := by
  have valued (target : Pattern) (position : Position) : Copies tail true 0 (do
      let value ← do
        if ← accept (.mark .equal) then pure (some (← g.expression)) else pure none
      if value.isNone && !target.isBind then
        fail (.invalid .destructuringNeedsValue position)
      return (⟨target, value, position⟩ : Declarator)) (do
      let value ← do
        if ← accept (.mark .equal) then pure (some (← g'.expression)) else pure none
      if value.isNone && !target.isBind then
        fail (.invalid .destructuringNeedsValue position)
      return ⟨target, value, position⟩) := by
    refine .accept nofun trivial (h.expression.bind fun _ => .ret) (.ret_bind ?_) nofun
    dsimp only
    split
    · exact .fail_bind
    · exact .ret
  refine .here fun position => .check nofun (fun opens => ?_) nofun
  cases opens with
  | true => exact h.pattern.bind fun _ => valued _ _
  | false => exact .consumeName fun _ => valued _ _

/-- Takes the token of a word. -/
theorem copies_declaration {word : Keyword} :
    CopiesAhead tail (.keyword word) true 0 (declaration g) (declaration g') := by
  refine .advance trivial fun token _ => (copies_declarator h).bind fun first =>
    (Copies.repeating (fun declarators => ?_) _).bind fun _ => .ret
  exact .accept nofun trivial ((copies_declarator h).bind fun _ => .ret) .ret nofun

theorem copies_branchStep : Copies tail true 0 (branchStep g) (branchStep g') := by
  refine .consume trivial fun _ => (copies_header h).bind fun _ => h.block.bind fun _ =>
    .accept nofun trivial (.check nofun (fun again => ?_) nofun) .ret nofun
  cases again with
  | true => exact .here fun _ => h.branch.bind fun _ => .ret
  | false => exact h.block.bind fun _ => .ret

theorem copies_forStart : Copies tail true 0 (forStart g) (forStart g') := by
  refine .peek (fun token => ?_) fun token ended => ?_
  · generalize token.kind = kind
    split
    · exact (copies_declaration h).bind fun _ => .ret
    · exact (copies_declaration h).bind fun _ => .ret
    · exact (h.expression.bind fun _ => .ret).ahead
  · rw [ended]
    exact (h.barren .expression).bind

omit h in
theorem copies_clause? {clause clause' : Parser α} (stop : Mark)
    (h : Copies tail true 0 clause clause') (barren : Barren clause) :
    Copies tail true 0 (clause? stop clause) (clause? stop clause') := by
  refine .check nofun (fun stops => ?_) fun _ => barren.bind
  cases stops with
  | true => exact .ret
  | false => exact h.bind fun _ => .ret

theorem copies_forLoop {word : Keyword} :
    CopiesAhead tail (.keyword word) true 0 (forLoop g) (forLoop g') := by
  have expression (stop : Mark) := copies_clause? stop h.expression (h.barren .expression)
  have clauses : Copies tail true 0 (do
      let start ← clause? .semicolon (forStart g)
      let _ ← consumeMark .semicolon "';' after for initializer"
      let condition ← clause? .semicolon g.expression
      let _ ← consumeMark .semicolon "';' after for condition"
      let update ← clause? .rightParen g.expression
      return (start, condition, update)) (do
      let start ← clause? .semicolon (forStart g')
      let _ ← consumeMark .semicolon "';' after for initializer"
      let condition ← clause? .semicolon g'.expression
      let _ ← consumeMark .semicolon "';' after for condition"
      let update ← clause? .rightParen g'.expression
      return (start, condition, update)) :=
    (copies_clause? _ (copies_forStart h) (barren_forStart (h.barren .expression))).bind fun _ =>
      .consume trivial fun _ => (expression _).bind fun _ => .consume trivial fun _ =>
      (expression _).bind fun _ => .ret
  exact .advance trivial fun _ _ => .consume trivial fun _ => (clauses.restricting _).bind
    fun _ => .consume Nat.one_pos fun _ => h.block.bind fun _ => .ret

omit h in
theorem copies_eachNames : Copies tail true 0 eachNames eachNames :=
  .accept nofun trivial (.consumeName fun _ => .consume trivial fun _ => .consumeName fun _ =>
    .consume Nat.one_pos fun _ => .ret) (.consumeName fun _ => .ret) nofun

theorem copies_eachLoop {word : Keyword} :
    CopiesAhead tail (.keyword word) true 0 (eachLoop g) (eachLoop g') :=
  .advance trivial fun _ _ => copies_eachNames.bind fun _ => .consume trivial fun _ =>
    (copies_header h).bind fun _ => h.block.bind fun _ => .ret

omit h in
theorem copies_importItem : Copies tail true 0 importItem importItem :=
  .consumeName fun _ => .accept nofun trivial (.consumeName fun _ => .ret) .ret nofun

omit h in
theorem copies_importFrom {word : Keyword} :
    CopiesAhead tail (.keyword word) true 0 importFrom importFrom := by
  refine .advance trivial fun _ _ => copies_importItem.bind fun _ =>
    (Copies.repeating (fun items => ?_) _).bind fun _ => .consume trivial fun _ =>
    .peekKind (fun kind => ?_) rfl
  · exact .accept nofun trivial (copies_importItem.bind fun _ => .ret) .ret nofun
  · split
    · exact .advance trivial fun _ _ => .ret
    · exact .advance trivial fun _ _ => .ret
    · exact Copies.unexpected.ahead

omit h in
theorem copies_exportNames {word : Keyword} :
    CopiesAhead tail (.keyword word) true 0 exportNames exportNames := by
  refine .advance trivial fun _ _ => .consumeName fun _ =>
    (Copies.repeating (fun names => ?_) _).bind fun _ => .ret
  exact .accept nofun trivial (.consumeName fun _ => .ret) .ret nofun

/-- At the end of the tokens nothing is returned. -/
theorem copies_returned : Copies tail false 0 (do
    if ← atStatementEnd then return some (StmtKind.returnWith none)
    else return some (.returnWith (some (← g.expression)))) (do
    if ← atStatementEnd then return some (StmtKind.returnWith none)
    else return some (.returnWith (some (← g'.expression)))) := by
  rw [atStatementEnd, bind_assoc, bind_assoc]
  refine .glance (fun kind => ?_) fun c r ended run => ?_
  · split
    · exact Copies.ret.ahead
    · exact Copies.ret.ahead
    · exact Copies.ret.ahead
    · exact Copies.ahead (.ret_bind (h.expression.bind fun _ => .ret))
  · cases run
    exact ended

theorem copies_wordedStatement? :
    Copies tail false 0 (wordedStatement? g) (wordedStatement? g') := by
  refine .reading fun c d twin => ?_
  rcases twin.cases with ⟨-, same, -⟩ | ⟨ended, -⟩
  · have named : (d.kindAfter 0).isName = (c.kindAfter 0).isName := by
      rcases twin.kindAfter 0 with same | ⟨ended, ended' | closes⟩
      · rw [same]
      · rw [ended, ended']
      · rw [ended, closes]
        rfl
    rw [same, named]
    generalize at_ : c.current.kind = kind
    refine (?_ : CopiesAhead tail kind false 0 _ _) c d twin at_
    split
    · exact (copies_declaration h).bind fun _ => .ret
    · exact (copies_declaration h).bind fun _ => .ret
    · split
      · exact ((copies_functionDef h).bind fun _ => .ret).ahead
      · exact Copies.ret.ahead
    · exact (h.branch.bind fun _ => .ret).ahead
    · exact .advance trivial fun _ _ => (copies_header h).bind fun _ => h.block.bind fun _ => .ret
    · exact .advance trivial fun _ _ => h.block.bind fun _ => .consume trivial fun _ =>
        (copies_header h).bind fun _ => .ret
    · exact (copies_forLoop h).bind fun _ => .ret
    · exact (copies_eachLoop h).bind fun _ => .ret
    · exact .advance trivial fun _ _ => (copies_header h).bind fun _ =>
        (copies_matchArms h).bind fun _ => .ret
    · exact .advance trivial fun _ _ => copies_returned h
    · exact .advance trivial fun _ _ => .ret
    · exact .advance trivial fun _ _ => .ret
    · exact copies_importFrom.bind fun _ => .ret
    · exact copies_exportNames.bind fun _ => .ret
    · exact .advance trivial fun _ _ => .consumeName fun _ => h.block.bind fun _ => .ret
    · exact Copies.ret.ahead
  · have none : Copies tail false 0 (pure Option.none) (pure (Option.none : Option StmtKind)) := .ret
    rcases twin.stops ended with ended' | closes
    · rw [ended, ended']
      exact none c d twin
    · rw [ended, closes]
      exact none c d twin

theorem copies_statementStep : Copies tail false 0 (statementStep g) (statementStep g') := by
  refine .here fun position => (copies_wordedStatement? h).bind_inside
    (fun form c r c' run goesOn ended => ?_) fun form => ?_
  · cases form with
    | none => exact (h.barren .expression).bind c ended _ run
    | some form =>
      have stays : accept (.mark .semicolon) c = .ok (false, c) := accept_of_ne (ended ▸ nofun)
      cases (bind_of_ok stays).symm.trans run
      exact goesOn.resolve_left Bool.false_ne_true ended
  · cases form with
    | none => exact h.expression.bind fun _ => .accept nofun trivial .ret .ret nofun
    | some form => exact .accept nofun trivial .ret .ret nofun

theorem copies_blockStep : Copies tail true 0 (blockStep g) (blockStep g') := by
  -- Statements may come to the end of the tokens, but then there is no closing brace.
  refine .consume trivial fun start => ((Copies.repeating_to_end (fun statements => ?_)
    (fun statements c r ended run => ?_) _).restricting _).sealed
    (fun _ => (barren_consumeMark _ _).bind) fun statements => .consume Nat.one_pos fun _ => .ret
  · refine .check nofun (fun closes => .atFinish (fun ended => ?_) fun c r ended run => ?_) nofun
    · split
      · exact .ret
      · refine h.statement.bind_inside (fun statement c r c' run goesOn => ?_) fun _ => .ret
        cases run
        exact goesOn.resolve_left Bool.false_ne_true
    · rw [Bool.or_true] at run
      cases run
      exact ended
  · rw [closing_of_finish ended] at run
    cases run
    exact ⟨_, rfl⟩

/-- One more step inside one another. -/
theorem copies_step (form : Form α) :
    Copies tail form.whole 0 (Grammar.step g form) (Grammar.step g' form) := by
  cases form with
  | pattern => exact copies_patternStep h.pattern (h.barren .pattern)
  | expression => exact h.assignment.descending
  | assignment => exact copies_assignmentStep h
  | conditional => exact copies_conditionalStep h
  | infixFrom least => exact copies_infixStep h least
  | unary => exact copies_unaryStep h
  | block => exact copies_blockStep h
  | branch => exact copies_branchStep h
  | statement => exact copies_statementStep h

end

/-! ## What fails at the end -/

theorem barren_statementStep (h : Barren g.expression) : Barren (statementStep g) := by
  refine .look looks_here fun _ => ?_
  intro c ended r run
  have none : wordedStatement? g c = .ok (none, c) := by
    rw [wordedStatement?, get_bind, ended]
    rfl
  exact h.bind c ended r ((bind_of_ok none).symm.trans run)

theorem barren_step (h : ∀ {α : Type} (form : Form α), Barren (g.read form)) (form : Form α) :
    Barren (Grammar.step g form) := by
  cases form with
  | pattern =>
    refine .advance fun token ended c r => ?_
    rw [ended]
    exact nofun
  | expression => exact .descending (h .assignment)
  | assignment =>
    refine .look looks_here fun _ => .look (looks_groupFollowedBy _) fun found => ?_
    cases found with
    | true => exact (h .pattern).bind
    | false => exact (h .conditional).bind
  | conditional => exact .look looks_here fun _ => (h (.infixFrom _)).bind
  | infixFrom least => exact .look looks_here fun _ => (h .unary).bind
  | unary =>
    refine .descending (.peek fun token ended => ?_)
    rw [ended]
    exact .look looks_here fun _ => barren_primary.bind
  | block => exact (barren_consumeMark _ _).bind
  | branch => exact .bind (barren_consume (by decide) _)
  | statement => exact barren_statementStep (h .expression)

theorem barren_fuelled (fuel : Nat) {α : Type} (form : Form α) :
    Barren ((Grammar.fuelled fuel).read form) := by
  induction fuel generalizing α with
  | zero => exact fun _ _ _ => nofun
  | succ fuel ih => exact barren_step ih form

/-- A grammar is copied by one with more steps. -/
theorem copied_fuelled {fuel fuel' : Nat} (le : fuel ≤ fuel') :
    (Grammar.fuelled fuel).Copied tail (Grammar.fuelled fuel') := by
  induction fuel generalizing fuel' with
  | zero => exact ⟨fun _ => .of_fails fun _ _ => nofun, barren_fuelled 0⟩
  | succ fuel ih =>
    obtain ⟨more, rfl⟩ := Nat.exists_eq_add_of_lt le
    exact ⟨fun form => copies_step (ih (Nat.le_add_right fuel more)) form, barren_fuelled _⟩

end ScriptEngine.Parse
