import ScriptEngine.Parse.Module
import ScriptEngine.Proofs.Parse.Expressions

/-!
# Layout does not matter

Statements agree on alike tokens too, and so whole programs do.

* `agree_step`, `agrees_fuelled`: one more step inside one another, and any number of them.
* `SameText`, `SamePlace`: tokens that differ only in where they stand, and the positions of two
  tokens that answer each other.
* `ofTokens_layout`: the same program or the same error at the same token.
-/

namespace ScriptEngine.Parse

variable {near : Position → Position → Prop} {α : Type} {g : Grammar}

section

variable (h : g.Agrees near)

include h

/-! ## Statements -/

theorem agree_declarator : Agree near (Same Declarator.bare) (declarator g) (declarator g) := by
  refine agree_here.bind fun position position' at_ => (agree_check _).next fun opens => ?_
  have valued (target : Pattern) : Agree near (Same Declarator.bare) (do
      let value ← do
        if ← accept (.mark .equal) then pure (some (← g.expression)) else pure none
      if value.isNone && !target.isBind then
        fail (.invalid .destructuringNeedsValue position)
      return ⟨target, value, position⟩) (do
      let value ← do
        if ← accept (.mark .equal) then pure (some (← g.expression)) else pure none
      if value.isNone && !target.isBind then
        fail (.invalid .destructuringNeedsValue position')
      return ⟨target, value, position'⟩) := by
    refine (agree_accept _).next fun found => ?_
    cases found with
    | true =>
      exact h.expression.bind fun _ _ same => .ret_bind (.ret (by
        simp only [Same, Declarator.bare_mk, Option.map_some, same]))
    | false =>
      refine .ret_bind ?_
      dsimp only
      split
      · exact .fail_bind (.invalid _ at_)
      · exact .ret rfl
  cases opens with
  | true => exact h.pattern.next fun pattern => valued pattern
  | false => exact (agree_consumeName _).next fun name => .ret_bind (valued (.bind name))

theorem agree_declaration : Agree near (Same StmtKind.bare) (declaration g) (declaration g) := by
  refine agree_advance.bind fun token token' alike => (agree_declarator h).bind
    fun first first' same => ?_
  rw [alike.kind]
  refine (Agree.repeating (S := Same (List.map Declarator.bare))
    (P := Same (List.map Declarator.bare)) ?_
    (by simp only [Same, List.map_cons, same])).bind fun _ _ sameAll => .ret (by
      simp only [Same, StmtKind.bare, Declarator.bareAll_eq, sameAll])
  intro declarators declarators' same
  refine (agree_accept _).next fun found => ?_
  cases found with
  | false => exact .ret (.inr same)
  | true => exact (agree_declarator h).bind fun _ _ sameLast => .ret (.inl (by
      simp only [Same, List.map_append, List.map_cons, same, sameLast]))

theorem agree_branchStep : Agree near (Same StmtKind.bare) (branchStep g) (branchStep g) := by
  refine (agree_consume _ _).bind fun _ _ _ => (agree_header h).bind fun _ _ same =>
    h.block.bind fun _ _ sameThen => (agree_accept _).next fun found => ?_
  cases found with
  | false => exact .ret (by simp only [Same, StmtKind.bare, same, sameThen, Block.bareAny_eq])
  | true =>
    refine (agree_check _).next fun again => ?_
    cases again with
    | true =>
      refine agree_here.bind fun position position' _ => h.branch.bind
        fun inner inner' sameElse => .ret ?_
      simp only [Same, StmtKind.bare, Block.bareAny_eq, Option.map_some, Block.bare_singleton, same,
        sameThen]
      rw [sameElse]
    | false =>
      exact h.block.bind fun _ _ sameElse => .ret (by
        simp only [Same, StmtKind.bare, Block.bareAny_eq, Option.map_some, same, sameThen,
          sameElse])

theorem agree_forStart : Agree near (Same Stmt.bare) (forStart g) (forStart g) := by
  refine agree_peek.bind fun token token' alike => ?_
  rw [alike.kind]
  split
  · exact (agree_declaration h).bind fun _ _ same => .ret (by simp only [Same, Stmt.bare, same])
  · exact (agree_declaration h).bind fun _ _ same => .ret (by simp only [Same, Stmt.bare, same])
  · exact h.expression.bind fun _ _ same => .ret (by
      simp only [Same, Stmt.bare, StmtKind.bare, same])

omit h in
theorem agree_clause? {γ : Type} {view : α → γ} {clause : Parser α} (stop : Mark)
    (h : Agree near (Same view) clause clause) :
    Agree near (Same (Option.map view)) (clause? stop clause) (clause? stop clause) := by
  refine (agree_check _).next fun stops => ?_
  cases stops with
  | true => exact .ret rfl
  | false => exact h.bind fun _ _ same => .ret (congrArg some same)

theorem agree_forLoop : Agree near (Same StmtKind.bare) (forLoop g) (forLoop g) := by
  have clauses : Agree near (fun r r' => r.1.map Stmt.bare = r'.1.map Stmt.bare ∧
      r.2.1.map Expr.bare = r'.2.1.map Expr.bare ∧ r.2.2.map Expr.bare = r'.2.2.map Expr.bare) (do
      let start ← clause? .semicolon (forStart g)
      let _ ← consumeMark .semicolon "';' after for initializer"
      let condition ← clause? .semicolon g.expression
      let _ ← consumeMark .semicolon "';' after for condition"
      let update ← clause? .rightParen g.expression
      return (start, condition, update)) (do
      let start ← clause? .semicolon (forStart g)
      let _ ← consumeMark .semicolon "';' after for initializer"
      let condition ← clause? .semicolon g.expression
      let _ ← consumeMark .semicolon "';' after for condition"
      let update ← clause? .rightParen g.expression
      return (start, condition, update)) :=
    (agree_clause? _ (agree_forStart h)).bind fun _ _ sameStart =>
      (agree_consumeMark _ _).bind fun _ _ _ =>
      (agree_clause? _ h.expression).bind fun _ _ sameCondition =>
      (agree_consumeMark _ _).bind fun _ _ _ =>
      (agree_clause? _ h.expression).bind fun _ _ sameUpdate =>
      .ret ⟨sameStart, sameCondition, sameUpdate⟩
  refine agree_advance.bind fun _ _ _ => (agree_consumeMark _ _).bind fun _ _ _ =>
    (clauses.restricting _).bind ?_
  rintro ⟨start, condition, update⟩ ⟨start', condition', update'⟩ ⟨sameStart, sameCondition,
    sameUpdate⟩
  dsimp only at sameStart sameCondition sameUpdate
  exact (agree_consumeMark _ _).bind fun _ _ _ => h.block.bind fun _ _ sameBody => .ret (by
    simp only [Same, StmtKind.bare_forLoop, sameStart, sameCondition, sameUpdate, sameBody])

omit h in
theorem agree_eachNames : Agree near Eq eachNames eachNames := by
  refine (agree_accept _).next fun found => ?_
  cases found with
  | true =>
    exact (agree_consumeName _).next fun _ => (agree_consumeMark _ _).bind fun _ _ _ =>
      (agree_consumeName _).next fun _ => (agree_consumeMark _ _).bind fun _ _ _ => .ret rfl
  | false => exact (agree_consumeName _).next fun _ => .ret rfl

theorem agree_eachLoop : Agree near (Same StmtKind.bare) (eachLoop g) (eachLoop g) := by
  refine agree_advance.bind fun _ _ _ => agree_eachNames.next ?_
  rintro ⟨item, index⟩
  exact (agree_consume _ _).bind fun _ _ _ => (agree_header h).bind fun _ _ same =>
    h.block.bind fun _ _ sameBody => .ret (by simp only [Same, StmtKind.bare, same, sameBody])

omit h in
theorem agree_importItem : Agree near Eq importItem importItem := by
  refine (agree_consumeName _).next fun name => (agree_accept _).next fun found => ?_
  cases found with
  | true => exact (agree_consumeName _).next fun _ => .ret rfl
  | false => exact .ret rfl

omit h in
theorem agree_importFrom : Agree near Eq importFrom importFrom := by
  refine agree_advance.bind fun _ _ _ => agree_importItem.next fun first => ?_
  refine (Agree.repeating (S := Eq) (P := Eq) ?_ rfl).next fun items => ?_
  · rintro items _ rfl
    refine (agree_accept _).next fun found => ?_
    cases found with
    | true => exact agree_importItem.next fun _ => .ret (.inl rfl)
    | false => exact .ret (.inr rfl)
  · refine (agree_consume _ _).bind fun _ _ _ => agree_peekKind.next fun kind => ?_
    split
    · exact agree_advance.bind fun _ _ _ => .ret rfl
    · exact agree_advance.bind fun _ _ _ => .ret rfl
    · exact agree_unexpected _

omit h in
theorem agree_exportNames : Agree near Eq exportNames exportNames := by
  refine agree_advance.bind fun _ _ _ => (agree_consumeName _).next fun first => ?_
  refine (Agree.repeating (S := Eq) (P := Eq) ?_ rfl).next fun names => .ret rfl
  rintro names _ rfl
  refine (agree_accept _).next fun found => ?_
  cases found with
  | true => exact (agree_consumeName _).next fun _ => .ret (.inl rfl)
  | false => exact .ret (.inr rfl)

omit h in
theorem agree_atStatementEnd : Agree near Eq atStatementEnd atStatementEnd := by
  refine agree_peekKind.next fun kind => ?_
  split <;> exact .ret rfl

theorem agree_wordedStatement? :
    Agree near (Same (Option.map StmtKind.bare)) (wordedStatement? g) (wordedStatement? g) := by
  refine agree_get.bind fun c c' alike => ?_
  rw [alike.current.kind, alike.kindAfter]
  split
  · exact (agree_declaration h).bind fun _ _ same => .ret (congrArg some same)
  · exact (agree_declaration h).bind fun _ _ same => .ret (congrArg some same)
  · split
    · exact (agree_functionDef h).bind fun _ _ same => .ret (by
        simp only [Same, Option.map_some, StmtKind.bare, same])
    · exact .ret rfl
  · exact h.branch.bind fun _ _ same => .ret (congrArg some same)
  · exact agree_advance.bind fun _ _ _ => (agree_header h).bind fun _ _ same =>
      h.block.bind fun _ _ sameBody => .ret (by
        simp only [Same, Option.map_some, StmtKind.bare, same, sameBody])
  · exact agree_advance.bind fun _ _ _ => h.block.bind fun _ _ sameBody =>
      (agree_consume _ _).bind fun _ _ _ => (agree_header h).bind fun _ _ same => .ret (by
        simp only [Same, Option.map_some, StmtKind.bare, same, sameBody])
  · exact (agree_forLoop h).bind fun _ _ same => .ret (congrArg some same)
  · exact (agree_eachLoop h).bind fun _ _ same => .ret (congrArg some same)
  · exact agree_advance.bind fun _ _ _ => (agree_header h).bind fun _ _ same =>
      (agree_matchArms h).bind fun _ _ sameArms => .ret (by
        simp only [Same, Option.map_some, StmtKind.bare, Arm.bareAll_eq, same, sameArms])
  · refine agree_advance.bind fun _ _ _ => agree_atStatementEnd.next fun ends => ?_
    cases ends with
    | true => exact .ret rfl
    | false =>
      exact h.expression.bind fun _ _ same => .ret (by
        simp only [Same, Option.map_some, StmtKind.bare, Expr.bareAny_eq, same])
  · exact agree_advance.bind fun _ _ _ => .ret rfl
  · exact agree_advance.bind fun _ _ _ => .ret rfl
  · exact agree_importFrom.next fun _ => .ret rfl
  · exact agree_exportNames.next fun _ => .ret rfl
  · exact agree_advance.bind fun _ _ _ => (agree_consumeName _).next fun name =>
      h.block.bind fun _ _ same => .ret (by simp only [Same, Option.map_some, StmtKind.bare, same])
  · exact .ret rfl

theorem agree_statementStep :
    Agree near (Same Stmt.bare) (statementStep g) (statementStep g) := by
  refine agree_here.bind fun _ _ _ => (agree_wordedStatement? h).bind fun kind kind' same => ?_
  cases kind with
  | none =>
    obtain rfl := Option.map_eq_none_iff.mp same.symm
    exact h.expression.bind fun _ _ sameValue => (agree_accept _).next fun _ => .ret (by
      simp only [Same, Stmt.bare, StmtKind.bare, sameValue])
  | some kind =>
    obtain ⟨kind', rfl, sameKind⟩ := Option.map_eq_some_iff.mp same.symm
    exact (agree_accept _).next fun _ => .ret (by simp only [Same, Stmt.bare, sameKind])

/-- Statements read one after the other, the latest first, up to a token that ends them. -/
theorem agree_statements {ends : Parser Bool} (same : Agree near Eq ends ends) :
    Agree near (Same (List.map Stmt.bare))
      (repeating (fun statements => do
        if ← ends then return .inr statements.reverse
        else return .inl ((← g.statement) :: statements)) [])
      (repeating (fun statements => do
        if ← ends then return .inr statements.reverse
        else return .inl ((← g.statement) :: statements)) []) := by
  refine .repeating (S := Same (List.map Stmt.bare)) ?_ rfl
  intro statements statements' sameAll
  refine same.next fun ended => ?_
  cases ended with
  | true => exact .ret (.inr (by simp only [Same, List.map_reverse, sameAll]))
  | false => exact h.statement.bind fun _ _ same => .ret (.inl (by
      simp only [Same, List.map_cons, same, sameAll]))

theorem agree_blockStep : Agree near (Same Block.bare) (blockStep g) (blockStep g) := by
  have ends : Agree near Eq (do return (← check (.mark .rightBrace)) || (← atFinish))
      (do return (← check (.mark .rightBrace)) || (← atFinish)) :=
    (agree_check _).next fun _ => agree_atFinish.next fun _ => .ret rfl
  exact (agree_consumeMark _ _).bind fun _ _ _ =>
    ((agree_statements h ends).restricting _).bind fun _ _ same =>
    (agree_consumeMark _ _).bind fun _ _ _ => .ret (by
      simp only [Same, Block.bare_mk, same])

theorem agree_program : Agree near (Same Block.bare) (program g) (program g) :=
  agree_here.bind fun _ _ _ => (agree_statements h agree_atFinish).bind fun _ _ same => .ret (by
    simp only [Same, Block.bare_mk, same])

/-- One more step inside one another. -/
theorem agree_step (form : Form α) :
    Agree near form.Same (Grammar.step g form) (Grammar.step g form) := by
  cases form with
  | pattern => exact agree_patternStep h.pattern
  | expression => exact h.assignment.descending
  | assignment => exact agree_assignmentStep h
  | conditional => exact agree_conditionalStep h
  | infixFrom least => exact agree_infixStep h least
  | unary => exact agree_unaryStep h
  | block => exact agree_blockStep h
  | branch => exact agree_branchStep h
  | statement => exact agree_statementStep h

end

theorem agrees_fuelled (fuel : Nat) : (Grammar.fuelled fuel).Agrees near := by
  induction fuel with
  | zero => exact fun _ => agree_unfinished
  | succ fuel ih => exact fun form => agree_step ih form

/-! ## Programs -/

/-- Tokens of one kind and lexeme, wherever they stand. -/
def SameText (t t' : Token) : Prop := t.kind = t'.kind ∧ t.lexeme = t'.lexeme

/-- The positions of a token of one list and of the token that takes its place in the other one. -/
def SamePlace (tokens tokens' : List Token) (p p' : Position) : Prop :=
  ∃ i : Nat, tokens[i]?.map Token.position = some p ∧ tokens'[i]?.map Token.position = some p'

variable {tokens tokens' : List Token}

theorem alike_of_sameText (h : List.Forall₂ SameText tokens tokens') :
    List.Forall₂ (Token.Alike (SamePlace tokens tokens')) tokens tokens' := by
  obtain ⟨length, same⟩ := List.forall₂_iff_get.mp h
  refine List.forall₂_iff_get.mpr ⟨length, fun i inside inside' => ?_⟩
  obtain ⟨kind, lexeme⟩ := same i inside inside'
  refine ⟨kind, lexeme, i, ?_, ?_⟩
  · rw [List.getElem?_eq_getElem inside, Option.map_some, List.get_eq_getElem]
  · rw [List.getElem?_eq_getElem inside', Option.map_some, List.get_eq_getElem]

theorem closed_ne_nil (tokens : List Token) : closed tokens ≠ [] := by
  rw [closed]
  split
  · next found => exact fun none => by rw [none] at found; cases found
  · exact List.append_ne_nil_of_right_ne_nil _ (List.cons_ne_nil _ _)

theorem closed_of_finish (ended : tokens.getLast?.map (·.kind) = some .finish) :
    closed tokens = tokens := by
  obtain ⟨last, found, kind⟩ := Option.map_eq_some_iff.mp ended
  obtain ⟨kind', lexeme, position, stop⟩ := last
  obtain rfl := kind
  rw [closed, found]

theorem closed_of_not_finish (open_ : tokens.getLast?.map (·.kind) ≠ some .finish) :
    closed tokens = tokens ++ [finishAfter tokens] := by
  rw [closed]
  split
  · next found => exact absurd (by rw [found]; rfl) open_
  · rfl

theorem getLast?_kind (h : List.Forall₂ SameText tokens tokens') :
    tokens.getLast?.map (·.kind) = tokens'.getLast?.map (·.kind) := by
  have kinds : tokens.map (·.kind) = tokens'.map (·.kind) := kinds_eq (alike_of_sameText h)
  rw [← List.getLast?_map, ← List.getLast?_map, kinds]

/-- The token that ends a list which lacks one has no text. -/
theorem sameText_closed (h : List.Forall₂ SameText tokens tokens') :
    List.Forall₂ SameText (closed tokens) (closed tokens') := by
  have kind (tokens : List Token) : (finishAfter tokens).kind = .finish ∧
      (finishAfter tokens).lexeme = "" := by
    rw [finishAfter]
    split <;> exact ⟨rfl, rfl⟩
  have last := getLast?_kind h
  by_cases ended : tokens.getLast?.map (·.kind) = some .finish
  · rw [closed_of_finish ended, closed_of_finish (last ▸ ended)]
    exact h
  · rw [closed_of_not_finish ended, closed_of_not_finish (last ▸ ended)]
    refine List.rel_append h (.cons ?_ .nil)
    rw [SameText, (kind _).1, (kind _).1, (kind _).2, (kind _).2]
    exact ⟨rfl, rfl⟩

/-- Cursors on the first tokens of lists with the same text. -/
theorem alike_ofTokens (h : List.Forall₂ SameText tokens tokens') :
    (Cursor.ofTokens tokens).Alike (SamePlace (closed tokens) (closed tokens'))
      (Cursor.ofTokens tokens') := by
  have alike := alike_of_sameText (sameText_closed h)
  have some := closed_ne_nil tokens
  rw [Cursor.ofTokens, Cursor.ofTokens]
  generalize SamePlace (closed tokens) (closed tokens') = near at alike ⊢
  generalize closed tokens = all, closed tokens' = all' at alike some ⊢
  cases alike with
  | nil => exact absurd rfl some
  | cons alike rest => exact ⟨alike, rest, rfl, rfl⟩

/-- The same program but for positions and numbers, or the same error at the place of the same
token. -/
def SameResult (tokens tokens' : List Token) :
    Except ParseError Block → Except ParseError Block → Prop
  | .ok program, .ok program' => program.bare = program'.bare
  | .error error, .error error' => error.Alike (SamePlace tokens tokens') error'
  | _, _ => False

theorem sameResult_ofTokens (h : List.Forall₂ SameText tokens tokens') :
    SameResult (closed tokens) (closed tokens') (ofTokens tokens) (ofTokens tokens') := by
  have alike := alike_ofTokens h
  have outcome := agree_program (agrees_fuelled
    (fuelFor ((Cursor.ofTokens tokens).following.length + 1))) _ _ alike
  simp only [ofTokens, StateT.run', Functor.map, Except.map, ← alike.following.length_eq]
  generalize program _ (Cursor.ofTokens tokens) = read,
    program _ (Cursor.ofTokens tokens') = read' at outcome
  cases outcome with
  | ok same _ => exact same
  | error stops =>
    cases stops with
    | fault alike => exact alike
    | unfinished => exact .invalid _ alike.current.position

/-- Layout does not matter: tokens of the same kinds and lexemes make the same program but for
positions and numbers, or the same error, with the same words, at the same token. So it is for two
texts that differ only in what stands between their tokens. -/
theorem ofTokens_layout (tokens tokens' : List Token) (same : List.Forall₂ SameText tokens tokens')
    (ended : tokens.getLast?.map (·.kind) = some .finish) :
    SameResult tokens tokens' (ofTokens tokens) (ofTokens tokens') ∧
    ∀ name source source' : String, Token.ofSource source = .ok tokens →
      Token.ofSource source' = .ok tokens' →
      (∃ program program', Module.ofSource name source = .ok ⟨name, program⟩ ∧
        Module.ofSource name source' = .ok ⟨name, program'⟩ ∧ program.bare = program'.bare) ∨
      (∃ error error', Module.ofSource name source = .error (.parse name error) ∧
        Module.ofSource name source' = .error (.parse name error') ∧
        error.Alike (SamePlace tokens tokens') error') := by
  have result := sameResult_ofTokens same
  rw [closed_of_finish ended, closed_of_finish (getLast?_kind same ▸ ended)] at result
  refine ⟨result, fun name source source' split split' => ?_⟩
  rw [Module.ofSource, Module.ofSource, split, split']
  dsimp only
  generalize ofTokens tokens = read, ofTokens tokens' = read' at result
  match read, read', result with
  | .ok program, .ok program', result => exact .inl ⟨program, program', rfl, rfl, result⟩
  | .error error, .error error', result => exact .inr ⟨error, error', rfl, rfl, result⟩

/-- The tokens of `a;` on one line. -/
def oneLine : List Token :=
  [⟨.name "a", "a", ⟨1, 1, 0⟩, 1⟩, ⟨.mark .semicolon, ";", ⟨1, 2, 1⟩, 2⟩,
    ⟨.finish, "", ⟨1, 3, 2⟩, 2⟩]

/-- Its tokens with blanks and a new line among them. -/
def twoLines : List Token :=
  [⟨.name "a", "a", ⟨1, 3, 2⟩, 3⟩, ⟨.mark .semicolon, ";", ⟨2, 1, 4⟩, 5⟩,
    ⟨.finish, "", ⟨2, 2, 5⟩, 5⟩]

theorem ofTokens_layout_of_lines :
    SameResult oneLine twoLines (ofTokens oneLine) (ofTokens twoLines) := by
  have same : List.Forall₂ SameText oneLine twoLines :=
    .cons ⟨rfl, rfl⟩ (.cons ⟨rfl, rfl⟩ (.cons ⟨rfl, rfl⟩ .nil))
  exact (ofTokens_layout oneLine twoLines same rfl).1

end ScriptEngine.Parse
