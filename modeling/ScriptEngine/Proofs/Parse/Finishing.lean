import ScriptEngine.Proofs.Parse.Layout
import ScriptEngine.Proofs.Parse.Taking

/-!
# Parsing comes to an end

Statements come to a result too, and so do whole programs. A form hands on to others without taking
a token only if they are of a lower rank, so that steps of a grammar run out only where tokens do.

* `takes_wordedStatement?`, `takes_program` and the others: the forms of statements.
* `Form.rank`, `takes_step`: one step, in front of one token more.
* `ready_fuelled`: so many steps inside one another are enough for so many tokens.
* `Reader`: the parsers that read a program.
* `ofTokens_finishes`: tokens make a program, or there is a fault at one of them.
-/

namespace ScriptEngine.Parse

variable {place : Position → Prop} {k : Nat} {c : Cursor} {α : Type} {g : Grammar}

section

variable (h : g.Ready place k)

include h

/-! ## Statements -/

theorem takes_declarator : Takes place k Surely (declarator g) := by
  refine .here fun position at_ => .look (looks_check _) fun opens => ?_
  have valued (target : Pattern) : Takes place k Maybe (do
      let value ← do
        if ← accept (.mark .equal) then pure (some (← g.expression)) else pure none
      if value.isNone && !target.isBind then
        fail (.invalid .destructuringNeedsValue position)
      return (⟨target, value, position⟩ : Declarator)) := by
    refine (takes_accept _).next fun found => ?_
    cases found with
    | true => exact h.expression.next fun _ => .ret_bind takes_ret
    | false =>
      refine .ret_bind ?_
      dsimp only
      split
      · exact .fail_bind at_
      · exact takes_ret
  cases opens with
  | true => exact h.pattern.behind fun pattern => valued pattern
  | false => exact (takes_consumeName _).behind fun name => .ret_bind (valued (.bind name))

theorem opens_declaration : Opens place k (declaration g) :=
  .advance fun _ _ => (takes_declarator h).next fun _ => (Takes.repeating fun _ =>
    (takes_nextItem ((takes_declarator h).next fun _ => takes_ret)).less).next fun _ => takes_ret

theorem takes_branchStep : Takes place (k + 1) Surely (branchStep g) := by
  refine (takes_consumeWord _ _).after fun _ => (takes_header h).next fun _ => h.block.next fun _ =>
    (takes_accept _).next fun found => ?_
  cases found with
  | false => exact takes_ret
  | true =>
    refine .look (looks_check _) fun again => ?_
    cases again with
    | true => exact .look looks_here fun _ => h.branch.next fun _ => takes_ret
    | false => exact h.block.next fun _ => takes_ret

theorem takes_forStart : Takes place k Maybe (forStart g) := by
  refine .peek fun c within => ?_
  split
  · exact (opens_declaration h).anyhow.next (fun _ => takes_ret) c within
  · exact (opens_declaration h).anyhow.next (fun _ => takes_ret) c within
  · exact h.expression.next (fun _ => takes_ret) c within

omit h in
theorem takes_clause? {clause : Parser α} (stop : Mark) (h : Takes place k Maybe clause) :
    Takes place k Maybe (clause? stop clause) := by
  refine .look (looks_check _) fun stops => ?_
  cases stops with
  | true => exact takes_ret
  | false => exact h.next fun _ => takes_ret

theorem opens_forLoop : Opens place k (forLoop g) := by
  have clauses : Takes place k Maybe (do
      let start ← clause? .semicolon (forStart g)
      let _ ← consumeMark .semicolon "';' after for initializer"
      let condition ← clause? .semicolon g.expression
      let _ ← consumeMark .semicolon "';' after for condition"
      let update ← clause? .rightParen g.expression
      return (start, condition, update)) :=
    (takes_clause? _ (takes_forStart h)).next fun _ => (takes_consumeMark _ _).next fun _ =>
      (takes_clause? _ h.expression.maybe).next fun _ => (takes_consumeMark _ _).next fun _ =>
      (takes_clause? _ h.expression.maybe).next fun _ => takes_ret
  refine .advance fun _ _ => (takes_consumeMark _ _).next fun _ => (clauses.restricting _).next ?_
  rintro ⟨start, condition, update⟩
  exact (takes_consumeMark _ _).next fun _ => h.block.next fun _ => takes_ret

omit h in
theorem takes_eachNames : Takes place k Maybe eachNames := by
  refine (takes_accept _).next fun found => ?_
  cases found with
  | true =>
    exact (takes_consumeName _).next fun _ => (takes_consumeMark _ _).next fun _ =>
      (takes_consumeName _).next fun _ => (takes_consumeMark _ _).next fun _ => takes_ret
  | false => exact (takes_consumeName _).next fun _ => takes_ret

theorem opens_eachLoop : Opens place k (eachLoop g) := by
  refine .advance fun _ _ => takes_eachNames.next ?_
  rintro ⟨item, index⟩
  exact (takes_consumeWord _ _).next fun _ => (takes_header h).next fun _ => h.block.next
    fun _ => takes_ret

omit h in
theorem takes_importItem : Takes place k Surely importItem := by
  refine (takes_consumeName _).behind fun name => (takes_accept _).next fun found => ?_
  cases found with
  | true => exact (takes_consumeName _).next fun _ => takes_ret
  | false => exact takes_ret

omit h in
theorem opens_importFrom : Opens place k importFrom := by
  refine .advance fun _ _ => takes_importItem.next fun first => (Takes.repeating fun _ =>
    (takes_nextItem (takes_importItem.next fun _ => takes_ret)).less).next fun items =>
    (takes_consumeWord _ _).next fun _ => .look looks_peekKind fun kind => ?_
  split
  · exact takes_advance.next fun _ => takes_ret
  · exact takes_advance.next fun _ => takes_ret
  · exact takes_unexpected _

omit h in
theorem opens_exportNames : Opens place k exportNames :=
  .advance fun _ _ => (takes_consumeName _).next fun _ => (Takes.repeating fun _ =>
    (takes_nextItem ((takes_consumeName _).next fun _ => takes_ret)).less).next fun _ => takes_ret

omit h in
theorem looks_atStatementEnd : Looks atStatementEnd := by
  refine .reading fun c => ?_
  split <;> exact looksAt_ret

/-- A statement that begins with the word of its form has that word. -/
theorem takes_wordedStatement? (branch : Takes place (k + 1) Surely g.branch) :
    Takes place (k + 1) (fun kind? => kind?.isSome = true) (wordedStatement? g) := by
  refine .reading fun c within => ?_
  split
  · next here =>
    exact ((opens_declaration h).opened within (inside_of here nofun)).after within
      fun _ => takes_ret
  · next here =>
    exact ((opens_declaration h).opened within (inside_of here nofun)).after within
      fun _ => takes_ret
  · split
    · exact (takes_functionDef h c within).after within fun _ => takes_ret
    · exact takes_nothing c within
  · exact (branch c within).after within fun _ => takes_ret
  · next here =>
    exact .advance within (inside_of here nofun) fun _ _ => (takes_header h).next fun _ =>
      h.block.next fun _ => takes_ret
  · next here =>
    exact .advance within (inside_of here nofun) fun _ _ => h.block.next fun _ =>
      (takes_consumeWord _ _).next fun _ => (takes_header h).next fun _ => takes_ret
  · next here =>
    exact ((opens_forLoop h).opened within (inside_of here nofun)).after within fun _ => takes_ret
  · next here =>
    exact ((opens_eachLoop h).opened within (inside_of here nofun)).after within fun _ => takes_ret
  · next here =>
    exact .advance within (inside_of here nofun) fun _ _ => (takes_header h).next fun _ =>
      (takes_matchArms h).less.next fun _ => takes_ret
  · next here =>
    refine .advance within (inside_of here nofun) fun _ _ => .look looks_atStatementEnd
      fun ends => ?_
    cases ends with
    | true => exact takes_ret
    | false => exact h.expression.next fun _ => takes_ret
  · next here => exact .advance within (inside_of here nofun) fun _ _ => takes_ret
  · next here => exact .advance within (inside_of here nofun) fun _ _ => takes_ret
  · next here =>
    exact (opens_importFrom.opened within (inside_of here nofun)).after within fun _ => takes_ret
  · next here =>
    exact (opens_exportNames.opened within (inside_of here nofun)).after within fun _ => takes_ret
  · next here =>
    exact .advance within (inside_of here nofun) fun _ _ => (takes_consumeName _).next fun _ =>
      h.block.next fun _ => takes_ret
  · exact takes_nothing c within

theorem takes_statementStep (branch : Takes place (k + 1) Surely g.branch)
    (expression : Takes place (k + 1) Surely g.expression) :
    Takes place (k + 1) Surely (statementStep g) := by
  refine .look looks_here fun position => (takes_wordedStatement? h branch).cases
    (fun kind? some => ?_) fun kind? none => ?_
  · obtain ⟨kind, rfl⟩ := Option.isSome_iff_exists.mp some
    exact (takes_accept _).next fun _ => takes_ret
  · obtain rfl := Option.not_isSome_iff_eq_none.mp none
    exact expression.after fun _ => (takes_accept _).next fun _ => takes_ret

/-- Statements are read one after the other up to a token that ends them. -/
theorem takes_statements {ends : Parser Bool} (looks : Looks ends) :
    Takes place k Maybe (repeating (fun statements => do
      if ← ends then return .inr statements.reverse
      else return .inl ((← g.statement) :: statements)) []) := by
  refine .repeating fun statements => .look looks fun ended => ?_
  cases ended with
  | true => exact takes_last
  | false => exact h.statement.behind fun _ => takes_ret

theorem takes_blockStep : Takes place (k + 1) Surely (blockStep g) := by
  have ends : Looks (do return (← check (.mark .rightBrace)) || (← atFinish)) := fun _ => ⟨_, rfl⟩
  exact (takes_consumeMark _ _).after fun _ => ((takes_statements h ends).restricting _).next
    fun _ => (takes_consumeMark _ _).next fun _ => takes_ret

theorem takes_program : Takes place k Maybe (program g) :=
  .look looks_here fun _ => (takes_statements h looks_atFinish).next fun _ => takes_ret

end

/-! ## Steps inside one another -/

/-- A form hands on to a form of a lower rank, or else behind a token. -/
def Form.rank : {α : Type} → Form α → Nat
  | _, .pattern | _, .block | _, .branch => 0
  | _, .unary => 1
  | _, .infixFrom _ => 2
  | _, .conditional => 3
  | _, .assignment => 4
  | _, .expression => 5
  | _, .statement => 6

theorem Form.rank_le (form : Form α) : form.rank ≤ 6 := by
  cases form <;> simp [rank]

/-- One more step is enough for one token more, where the forms of a lower rank are. -/
theorem takes_step (h : g.Ready place k) (form : Form α)
    (lower : ∀ {β : Type} (form' : Form β), form'.rank < form.rank →
      Takes place (k + 1) Surely (g.read form')) :
    Takes place (k + 1) Surely (Grammar.step g form) := by
  cases form with
  | pattern => exact takes_patternStep h.pattern
  | expression => exact (lower .assignment (by decide)).descending
  | assignment =>
    exact takes_assignmentStep h (lower .pattern (by decide)) (lower .conditional (by decide))
  | conditional => exact takes_conditionalStep h fun _ => lower (.infixFrom _) (by simp [Form.rank])
  | infixFrom least => exact takes_infixStep h (lower .unary (by simp [Form.rank])) least
  | unary => exact takes_unaryStep h (lower .block (by decide))
  | block => exact takes_blockStep h
  | branch => exact takes_branchStep h
  | statement =>
    exact takes_statementStep h (lower .branch (by decide)) (lower .expression (by decide))

theorem takes_none {p : Parser α} : Takes place 0 Surely p := by
  intro c within
  exact absurd within.few (Nat.not_succ_le_zero _)

/-- Seven steps for each token, and as many as the rank says. The induction is on the steps: each
one goes to a lower rank or takes a token. -/
theorem takes_readForm (fuel : Nat) : ∀ (k : Nat) {α : Type} (form : Form α),
    7 * k + form.rank < fuel → Takes place (k + 1) Surely (readForm fuel form) := by
  induction fuel with
  | zero =>
    intro k α form enough
    exact absurd enough (Nat.not_lt_zero _)
  | succ fuel ih =>
    intro k α form enough
    have ready : (Grammar.fuelled fuel).Ready place k := by
      intro β form'
      cases k with
      | zero => exact takes_none
      | succ k =>
        have low := form'.rank_le
        exact ih k form' (by omega)
    refine takes_step ready form fun form' lt => ?_
    exact ih k form' (by omega)

theorem ready_fuelled {fuel : Nat} (enough : 7 * k ≤ fuel) :
    (Grammar.fuelled fuel).Ready place k := by
  intro α form
  cases k with
  | zero => exact takes_none
  | succ k =>
    have low := form.rank_le
    exact takes_readForm fuel k form (by omega)

/-! ## Programs -/

/-- The parsers that read a program and its parts, with what stands inside read by `g`. -/
inductive Reader (g : Grammar) : {α : Type} → Parser α → Prop
  | program : Reader g (program g)
  | form {α : Type} (form : Form α) : Reader g (g.read form)
  | patternItems (close : Mark) : Reader g (patternItems g.pattern close)
  | header : Reader g (header g)
  | nested : Reader g (nested g)
  | memberName : Reader g memberName
  | entityMembers : Reader g (entityMembers g)
  | parameters : Reader g parameters
  | lambdaBody : Reader g (lambdaBody g)
  | functionDef : Reader g (functionDef g)
  | armBody : Reader g (armBody g)
  | matchArms : Reader g (matchArms g)
  | tupleItems (first : Expr) : Reader g (tupleItems g first)
  | grouped (position : Position) : Reader g (grouped g position)
  | parenthesized : Reader g (parenthesized g)
  | mapEntries (first : Expr × Expr) : Reader g (mapEntries g first)
  | arrayItems (first : Expr) : Reader g (arrayItems g first)
  | bracketItems : Reader g (bracketItems g)
  | bracketed : Reader g (bracketed g)
  | arguments : Reader g (arguments g)
  | leaf (kind : ExprKind) (position : Position) : Reader g (leaf kind position)
  | named (name : String) (position : Position) : Reader g (named g name position)
  | braced (position : Position) : Reader g (braced g position)
  | locked (position : Position) : Reader g (locked g position)
  | primary : Reader g (primary g)
  | access (object : Expr) : Reader g (access object)
  | suffix? (object : Expr) : Reader g (suffix? g object)
  | postfixed : Reader g (postfixed g)
  | typeName : Reader g typeName
  | infixRight (left : Expr) (operator : Infix) (precedence : Nat) :
    Reader g (infixRight g left operator precedence)
  | declarator : Reader g (declarator g)
  | declaration : Reader g (declaration g)
  | forStart : Reader g (forStart g)
  | forLoop : Reader g (forLoop g)
  | eachNames : Reader g eachNames
  | eachLoop : Reader g (eachLoop g)
  | importItem : Reader g importItem
  | importFrom : Reader g importFrom
  | exportNames : Reader g exportNames
  | wordedStatement? : Reader g (wordedStatement? g)

/-- Every one of them comes to a result. -/
theorem Reader.takes (h : g.Ready place (k + 1)) {p : Parser α} (reader : Reader g p) :
    Takes place (k + 1) Maybe p := by
  have fewer : g.Ready place k := fun form => (h form).less
  cases reader with
  | program => exact takes_program h
  | form form => exact (h form).maybe
  | patternItems close => exact takes_patternItems h.pattern close
  | header => exact (takes_header h).maybe
  | nested => exact (takes_nested h).maybe
  | memberName =>
    have named : Takes place (k + 1) Maybe (Parse.memberName >>= pure) :=
      .memberName fun _ _ _ => takes_ret
    rwa [bind_pure] at named
  | entityMembers => exact (takes_entityMembers fewer).maybe
  | parameters => exact takes_parameters.maybe
  | lambdaBody => exact (takes_lambdaBody h).maybe
  | functionDef => exact (takes_functionDef fewer).maybe
  | armBody => exact (takes_armBody h).maybe
  | matchArms => exact (takes_matchArms fewer).maybe
  | tupleItems first => exact takes_tupleItems h first
  | grouped position => exact (opens_grouped h position).anyhow
  | parenthesized => exact (opens_parenthesized h).anyhow
  | mapEntries first => exact takes_mapEntries h first
  | arrayItems first => exact takes_arrayItems h first
  | bracketItems => exact takes_bracketItems h
  | bracketed => exact (opens_bracketed h).anyhow
  | arguments => exact (takes_arguments fewer).maybe
  | leaf kind position => exact (opens_leaf kind position).anyhow
  | named name position => exact (opens_named h name position).anyhow
  | braced position => exact (takes_braced fewer h.block position).maybe
  | locked position => exact (opens_locked h position).anyhow
  | primary => exact (takes_primary fewer h.block).maybe
  | access object => exact (opens_access object).anyhow
  | suffix? object => exact (takes_suffix? fewer object).maybe
  | postfixed => exact (takes_postfixed fewer h.block).maybe
  | typeName => exact takes_typeName
  | infixRight left operator precedence => exact takes_infixRight h left operator precedence
  | declarator => exact (takes_declarator h).maybe
  | declaration => exact (opens_declaration h).anyhow
  | forStart => exact takes_forStart h
  | forLoop => exact (opens_forLoop h).anyhow
  | eachNames => exact takes_eachNames
  | eachLoop => exact (opens_eachLoop h).anyhow
  | importItem => exact takes_importItem.maybe
  | importFrom => exact opens_importFrom.anyhow
  | exportNames => exact opens_exportNames.anyhow
  | wordedStatement? => exact (takes_wordedStatement? fewer h.branch).maybe

/-- A position is that of one of some tokens. -/
def AtToken (tokens : List Token) (p : Position) : Prop := ∃ t ∈ tokens, t.position = p

/-- A cursor in front of the last tokens of a list that ends. -/
theorem Cursor.within_of_suffix {tokens : List Token} (suffix : c.tokens <:+ tokens)
    (ended : tokens.getLast?.map (·.kind) = some .finish) :
    c.Within (AtToken tokens) tokens.length := by
  obtain ⟨last, found, kind⟩ := Option.map_eq_some_iff.mp ended
  refine ⟨fun t mem => ⟨t, suffix.subset mem, rfl⟩, ⟨last, ?_, kind⟩, suffix.length_le⟩
  obtain ⟨front, rfl⟩ := suffix
  have some : c.tokens ≠ [] := List.cons_ne_nil _ _
  rw [List.getLast?_append_of_ne_nil _ some] at found
  exact List.mem_of_getLast? found

/-- The cursor on the first token has all of them before it, and their end. -/
theorem Cursor.tokens_ofTokens_closed (tokens : List Token) :
    (Cursor.ofTokens tokens).tokens = closed tokens := by
  have some := closed_ne_nil tokens
  rw [ofTokens]
  generalize closed tokens = all at some ⊢
  cases all with
  | nil => exact absurd rfl some
  | cons first rest => rfl

theorem Cursor.tokens_ofTokens {tokens : List Token}
    (ended : tokens.getLast?.map (·.kind) = some .finish) :
    (Cursor.ofTokens tokens).tokens = tokens :=
  (tokens_ofTokens_closed tokens).trans (closed_of_finish ended)

/-- The grammar that is used for so many tokens. -/
def grammarFor (count : Nat) : Grammar := .fuelled (fuelFor count)

theorem Cursor.length_following {tokens : List Token}
    (ended : tokens.getLast?.map (·.kind) = some .finish) :
    (Cursor.ofTokens tokens).following.length + 1 = tokens.length := by
  rw [← List.length_cons]
  exact congrArg List.length (tokens_ofTokens ended)

section

variable {tokens : List Token} (ended : tokens.getLast?.map (·.kind) = some .finish)

include ended

theorem ofTokens_of_ok {body : Block}
    (read : program (grammarFor tokens.length) (Cursor.ofTokens tokens) = .ok (body, c)) :
    ofTokens tokens = .ok body := by
  rw [grammarFor] at read
  simp only [ofTokens, StateT.run', Functor.map, Except.map, Cursor.length_following ended, read]

theorem ofTokens_of_fault {error : ParseError}
    (read : program (grammarFor tokens.length) (Cursor.ofTokens tokens) = .error (.fault error)) :
    ofTokens tokens = .error error := by
  rw [grammarFor] at read
  simp only [ofTokens, StateT.run', Functor.map, Except.map, Cursor.length_following ended, read]

end

/-- Parsing always comes to an end, in bounds. A list of tokens that ends makes a program, or there
is a fault at one of its tokens; the steps that are allowed for so many tokens are never used up.
However many more are allowed, each parser of the grammar comes to a result from any place among the
tokens: to a fault at one of them, or to a value behind tokens none of which is the end, with
restrictions and depth as they were. Each form takes a token for its value. -/
theorem ofTokens_finishes (tokens : List Token)
    (ended : tokens.getLast?.map (·.kind) = some .finish) :
    ((∃ body c, program (grammarFor tokens.length) (Cursor.ofTokens tokens) = .ok (body, c) ∧
        (Cursor.ofTokens tokens).Moves c ∧ ofTokens tokens = .ok body) ∨
      ∃ error, program (grammarFor tokens.length) (Cursor.ofTokens tokens) =
        .error (.fault error) ∧ AtToken tokens error.position ∧ ofTokens tokens = .error error) ∧
    ∀ fuel, fuelFor tokens.length ≤ fuel → ∀ c : Cursor, c.tokens <:+ tokens →
      (∀ {α : Type} (p : Parser α), Reader (.fuelled fuel) p →
        Result (AtToken tokens) Maybe c (p c)) ∧
      ∀ {α : Type} (form : Form α),
        Result (AtToken tokens) Surely c ((Grammar.fuelled fuel).read form c) := by
  have ready {fuel : Nat} (enough : fuelFor tokens.length ≤ fuel) :
      (Grammar.fuelled fuel).Ready (AtToken tokens) (tokens.length + 1) := by
    refine ready_fuelled ?_
    rw [fuelFor] at enough
    omega
  have all := Cursor.tokens_ofTokens ended
  constructor
  · have whole : (Cursor.ofTokens tokens).tokens <:+ tokens := all.symm ▸ List.suffix_refl tokens
    have within := Cursor.within_of_suffix whole ended
    have read := takes_program (ready (Nat.le_refl _)) _ (within.mono (Nat.le_succ _))
    change Result _ _ _ (program (grammarFor tokens.length) (Cursor.ofTokens tokens)) at read
    cases result : program (grammarFor tokens.length) (Cursor.ofTokens tokens) with
    | ok made =>
      rw [result] at read
      obtain ⟨body, c⟩ := made
      cases read with
      | value moves _ => exact .inl ⟨body, c, rfl, moves, ofTokens_of_ok ended result⟩
    | error stop =>
      rw [result] at read
      cases read with
      | fault at_ => exact .inr ⟨_, rfl, at_, ofTokens_of_fault ended result⟩
  · intro fuel enough c suffix
    have within := (Cursor.within_of_suffix suffix ended).mono (Nat.le_succ _)
    exact ⟨fun p reader => reader.takes (ready enough) c within,
      fun form => ready enough form c within⟩

/-- The tokens of `[a`, in which a bracket is not closed. -/
def unclosedTokens : List Token :=
  [⟨.mark .leftBracket, "[", ⟨1, 1, 0⟩, 1⟩, ⟨.name "a", "a", ⟨1, 2, 1⟩, 2⟩,
    ⟨.finish, "", ⟨1, 3, 2⟩, 2⟩]

theorem ofTokens_finishes_of_unclosed :
    unclosedTokens.getLast?.map (·.kind) = some .finish ∧
      (∃ error, ofTokens unclosedTokens = .error error ∧ AtToken unclosedTokens error.position) ∧
      Result (AtToken unclosedTokens) Surely (Cursor.ofTokens unclosedTokens)
        ((grammarFor 3).statement (Cursor.ofTokens unclosedTokens)) := by
  obtain ⟨finishes, readers⟩ := ofTokens_finishes unclosedTokens rfl
  refine ⟨rfl, ?_, (readers _ (Nat.le_refl _) _ (List.suffix_refl _)).2 .statement⟩
  rcases finishes with ⟨body, _, _, _, read⟩ | ⟨error, _, at_, read⟩
  · have refused : (ofTokens unclosedTokens).toOption = none := by decide +kernel
    rw [read] at refused
    cases refused
  · exact ⟨error, read, at_⟩

end ScriptEngine.Parse
