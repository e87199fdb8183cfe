import ScriptEngine.Proofs.Parse.Copying

/-!
# Expressions do not see what follows them

Each form of pattern and expression copies its success in front of a closing parenthesis, if the
grammar inside it does.

* `Form.whole`: the forms that copy all of their successes.
* `Grammar.Copied`: every form of a grammar is copied by that of another one.
-/

namespace ScriptEngine.Parse

/-- Whether a form copies all of its successes, those at the end of the tokens included. -/
def Form.whole : {α : Type} → Form α → Bool
  | _, .statement => false
  | _, _ => true

/-- Every form of a grammar is copied by that of another one, and fails at the end of the tokens. -/
structure Grammar.Copied (tail : List Token) (g g' : Grammar) : Prop where
  read : ∀ {α : Type} (form : Form α), Copies tail form.whole 0 (g.read form) (g'.read form)
  barren : ∀ {α : Type} (form : Form α), Barren (g.read form)

variable {tail : List Token} {α : Type} {g g' : Grammar} {whole : Bool}

namespace Grammar.Copied

theorem pattern (h : g.Copied tail g') : Copies tail true 0 g.pattern g'.pattern := h.read .pattern

theorem expression (h : g.Copied tail g') : Copies tail true 0 g.expression g'.expression :=
  h.read .expression

theorem assignment (h : g.Copied tail g') : Copies tail true 0 g.assignment g'.assignment :=
  h.read .assignment

theorem conditional (h : g.Copied tail g') : Copies tail true 0 g.conditional g'.conditional :=
  h.read .conditional

theorem infixFrom (h : g.Copied tail g') (least : Nat) :
    Copies tail true 0 (g.infixFrom least) (g'.infixFrom least) := h.read (.infixFrom least)

theorem unary (h : g.Copied tail g') : Copies tail true 0 g.unary g'.unary := h.read .unary

theorem block (h : g.Copied tail g') : Copies tail true 0 g.block g'.block := h.read .block

theorem branch (h : g.Copied tail g') : Copies tail true 0 g.branch g'.branch := h.read .branch

theorem statement (h : g.Copied tail g') : Copies tail false 0 g.statement g'.statement :=
  h.read .statement

end Grammar.Copied

/-- A token that may not be taken where no closing bracket is owed. -/
theorem stops_cases {kind : TokenKind} (stops : ¬ (weight kind).may 0) :
    kind = .finish ∨ kind = .mark .rightParen ∨ kind = .mark .rightBracket ∨
      kind = .mark .rightBrace := by
  cases kind with
  | mark mark =>
    cases mark <;> first
      | exact .inr (.inl rfl)
      | exact .inr (.inr (.inl rfl))
      | exact .inr (.inr (.inr rfl))
      | exact absurd trivial stops
  | finish => exact .inl rfl
  | _ => exact absurd trivial stops

/-- The kinds of brackets and of the end. -/
def fences : List TokenKind :=
  [.mark .leftParen, .mark .leftBracket, .mark .leftBrace, .mark .rightParen, .mark .rightBracket,
    .mark .rightBrace, .finish]

/-- Operators of each sort are neither brackets nor the end. -/
theorem plain_of_found {kind : TokenKind} {ofToken? : TokenKind → Option α} {operator : α}
    (found : ofToken? kind = some operator) (none : ∀ kind ∈ fences, ofToken? kind = none) :
    weight kind = .plain := by
  have other : kind ∉ fences := fun mem => by
    cases (none kind mem).symm.trans found
  cases kind with
  | mark mark => cases mark <;> first | rfl | exact absurd (by decide) other
  | finish => exact absurd (by decide) other
  | _ => rfl

theorem plain_of_infixAhead? {least : Nat} {operator : Infix × Nat} {c : Cursor}
    (h : infixAhead? least c = .ok (some operator, c)) : weight c.current.kind = .plain := by
  rw [infixAhead?, get_bind] at h
  cases found : Infix.ofToken? c.current.kind with
  | some operator => exact plain_of_found found (by decide)
  | none =>
    rw [found] at h
    cases h

/-! ## Patterns -/

section

variable {pattern pattern' : Parser Pattern} (h : Copies tail true 0 pattern pattern')
  (barren : Barren pattern)

include h barren

theorem copies_patternItems {close : Mark} (closes : weight (.mark close) = .closes) :
    Copies tail true 1 (patternItems pattern close) (patternItems pattern' close) := by
  refine h.bind fun first => (Copies.repeating (fun items => ?_) _).bind fun items => ?_
  · refine .accept nofun trivial ?_ .ret nofun
    refine .check nofun (fun found => ?_) fun _ => barren.bind
    cases found with
    | true => exact .ret
    | false => exact h.bind fun _ => .ret
  · refine .consume (closes ▸ Nat.one_pos) fun _ => ?_
    rw [closes]
    split
    · exact .here fun _ => .fail_bind
    · exact .ret

theorem copies_patternStep :
    Copies tail true 0 (patternStep pattern) (patternStep pattern') := by
  refine .advance (fun token may => ?_) fun token stops c r => ?_
  · generalize token.kind = kind at may ⊢
    split
    · exact .ret
    · exact .ret
    · exact .ret
    · exact .ret
    · exact .ret
    · exact .ret
    · exact .ret
    · refine .advance (fun number may => ?_) fun number stops c r => ?_
      · generalize number.kind = kind at may ⊢
        split
        · exact .ret
        · exact .fail
      · rcases stops_cases stops with kind | kind | kind | kind
        all_goals
          rw [kind]
          exact nofun
    · refine .accept nofun Nat.one_pos .ret ?_ fun _ => (Barren.bind barren).bind
      refine (copies_patternItems h barren rfl).before fun items => ?_
      split <;> exact .ret
    · refine .accept nofun Nat.one_pos .ret ?_ nofun
      exact (copies_patternItems h barren rfl).before fun items => .ret
    · exact .fail
  · rcases stops_cases stops with kind | kind | kind | kind
    all_goals
      rw [kind]
      exact nofun

end

/-! ## Members, functions and arms -/

theorem copies_memberName : Copies tail true 0 memberName memberName := by
  refine .advance (fun token may => ?_) fun token stops c r => ?_
  · generalize token.kind = kind at may ⊢
    split
    · exact .ret
    · exact .ret
    · exact .ret
    · exact .fail
  · rcases stops_cases stops with kind | kind | kind | kind
    all_goals
      rw [kind]
      exact nofun

theorem copies_parameters : Copies tail true 0 parameters parameters := by
  refine .consume trivial fun _ => (Copies.repeating (fun params => ?_) _).bind fun params =>
    .consume Nat.one_pos fun _ => .ret
  refine .check nofun (fun found => ?_) fun _ => .look looks_here fun _ => (barren_consumeName _).bind
  cases found with
  | true => exact .ret
  | false =>
    refine .here fun position => .consumeName fun name => ?_
    dsimp only
    split
    · exact .fail_bind
    · exact .accept nofun trivial .ret .ret nofun

section

variable (h : g.Copied tail g')

include h

theorem copies_header : Copies tail true 0 (header g) (header g') := h.expression.restricting _

theorem copies_nested : Copies tail true 0 (nested g) (nested g') := h.expression.restricting _

theorem copies_entityMembers : Copies tail true 0 (entityMembers g) (entityMembers g') := by
  refine .consume trivial fun _ => ((Copies.repeating (fun members => ?_) _).restricting _).bind
    fun members => .consume Nat.one_pos fun _ => .ret
  refine .check nofun (fun found => ?_) nofun
  cases found with
  | true => exact .ret
  | false =>
    refine copies_memberName.bind fun entry => ?_
    dsimp only
    split
    · exact .fail_bind
    · exact .consume trivial fun _ => h.expression.bind fun value =>
        .accept nofun trivial .ret .ret nofun

theorem copies_lambdaBody : Copies tail true 0 (lambdaBody g) (lambdaBody g') := by
  refine .check nofun (fun found => .look (sees_membersAhead _) fun members => ?_) nofun
  split
  · exact h.block.bind fun _ => .ret
  · exact h.expression.bind fun _ => .ret

theorem copies_functionDef : Copies tail true 0 (functionDef g) (functionDef g') := by
  have named (start : Token) (name : Option String) : Copies tail true 0 (do
      let params ← parameters
      let body ← do
        if ← accept (.mark .fatArrow) then lambdaBody g else pure (Body.block (← g.block))
      return (⟨name, params, body, start.position⟩ : FunctionDef)) (do
      let params ← parameters
      let body ← do
        if ← accept (.mark .fatArrow) then lambdaBody g' else pure (Body.block (← g'.block))
      return ⟨name, params, body, start.position⟩) :=
    copies_parameters.bind fun params => .accept nofun trivial
      ((copies_lambdaBody h).bind fun _ => .ret) (h.block.bind fun _ => .ret) nofun
  refine .consume trivial fun start => .peekKind (fun kind => ?_) rfl
  cases kind with
  | name name => exact .advance trivial fun _ _ => named start (some name)
  | _ => exact (named start none).ahead

theorem copies_armBody : Copies tail true 0 (armBody g) (armBody g') := by
  refine .check nofun (fun found => .look (sees_membersAhead _) fun members => ?_) nofun
  split
  · exact h.block.bind fun _ => .ret
  · exact (h.expression.restricting _).bind fun _ => .ret

omit h in
/-- What is repeated up to a closing brace stops at the end of the tokens too. -/
theorem closing_of_finish {p p' : Parser α} {c : Cursor} (ended : c.current.kind = .finish) :
    (do if (← check (.mark .rightBrace)) || (← atFinish) then p else p') c = p c := by
  show (if decide (c.current.kind = _) || decide (c.current.kind = _) then p else p') c = p c
  rw [ended]
  rfl

theorem copies_matchArms : Copies tail true 0 (matchArms g) (matchArms g') := by
  -- Arms stop at the end of the tokens too, but then there is no closing brace.
  refine .consume trivial fun _ => (Copies.repeating_to_end (fun arms => ?_) (fun arms c r ended run =>
    ?_) _).sealed (fun _ => (barren_consumeMark _ _).bind) fun arms => .consume Nat.one_pos fun _ => .ret
  · refine .check nofun (fun closes => .atFinish (fun ended => ?_) fun c r ended run => ?_) nofun
    · split
      · exact .ret
      · refine .here fun position => .accept nofun trivial ?_ ?_ nofun
        all_goals
          dsimp only
          split
          · exact .unexpected_bind
          · refine h.pattern.bind fun pattern => ?_
            have arm (guard : Option Expr) : Copies tail false 0 (do
                let _ ← consumeMark .fatArrow "'=>' in match arm"
                let body ← armBody g
                let _ ← accept (.mark .comma)
                return (Sum.inl (arms ++ [⟨pattern, guard, body, position⟩]) : List Arm ⊕ List Arm))
                (do
                let _ ← consumeMark .fatArrow "'=>' in match arm"
                let body ← armBody g'
                let _ ← accept (.mark .comma)
                return .inl (arms ++ [⟨pattern, guard, body, position⟩])) :=
              .consume trivial fun _ => (copies_armBody h).bind fun _ =>
                .accept nofun trivial .ret .ret nofun
            exact .accept nofun trivial ((h.expression.restricting _).bind fun e => arm (some e))
              (arm none) nofun
    · rw [Bool.or_true] at run
      cases run
      exact ended
  · rw [closing_of_finish ended] at run
    cases run
    exact ⟨arms, rfl⟩

/-! ## Brackets -/

omit h in
theorem copies_lambda (params : List String) (body : Body) (position : Position) :
    Copies tail true 0 (lambda params body position) (lambda params body position) :=
  .node

theorem copies_tupleItems (first : Expr) :
    Copies tail true 0 (tupleItems g first) (tupleItems g' first) := by
  refine .repeating (fun items => ?_) _
  refine .accept nofun trivial ?_ .ret nofun
  refine .check nofun (fun found => ?_) fun _ => (h.barren .expression).bind
  cases found with
  | true => exact .ret
  | false => exact h.expression.bind fun _ => .ret

theorem copies_grouped (position : Position) :
    CopiesAhead tail (.mark .leftParen) true 0 (grouped g position) (grouped g' position) := by
  refine .advance trivial fun _ _ => ?_
  refine .accept nofun Nat.one_pos .node ?_ fun _ =>
    (Barren.restricting _ (h.barren .expression).bind).bind
  refine ((h.expression.bind fun first => copies_tupleItems h first).restricting _).bind fun r =>
    .consume Nat.one_pos fun _ => ?_
  split
  · exact .ret
  · exact .node

theorem copies_parenthesized :
    CopiesAhead tail (.mark .leftParen) true 0 (parenthesized g) (parenthesized g') := by
  intro c d twin at_
  refine .look (a := c.current.position) (b := c.current.position) rfl
    (congrArg (fun p => Except.ok (p, d)) twin.position) ?_
  refine .look (a := c) (b := d) rfl rfl ?_
  have follower : Sees tail (groupFollowedBy (.mark .fatArrow)) := sees_groupFollowedBy nofun nofun
  obtain ⟨arrow, sees, sees'⟩ := follower c d twin
  refine .look sees sees' ?_
  rw [twin.restrictions]
  split
  · have function : Copies tail true 0 (do
        let params ← parameters
        let _ ← consumeMark .fatArrow "'=>'"
        let body ← lambdaBody g
        lambda params body c.current.position) (do
        let params ← parameters
        let _ ← consumeMark .fatArrow "'=>'"
        let body ← lambdaBody g'
        lambda params body c.current.position) :=
      copies_parameters.bind fun params => .consume trivial fun _ => (copies_lambdaBody h).bind
        fun body => copies_lambda params body _
    exact function c d twin
  · exact copies_grouped h _ c d twin at_

theorem copies_mapEntries (first : Expr × Expr) :
    Copies tail true 0 (mapEntries g first) (mapEntries g' first) := by
  refine .repeating (fun entries => ?_) _
  refine .accept nofun trivial ?_ .ret nofun
  refine .check nofun (fun found => ?_) nofun
  cases found with
  | true => exact .ret
  | false => exact h.expression.bind fun _ => .consume trivial fun _ => h.expression.bind fun _ => .ret

theorem copies_arrayItems (first : Expr) :
    Copies tail true 0 (arrayItems g first) (arrayItems g' first) := by
  refine .repeating (fun items => ?_) _
  refine .accept nofun trivial ?_ .ret nofun
  refine .check nofun (fun found => ?_) nofun
  cases found with
  | true => exact .ret
  | false => exact h.expression.bind fun _ => .ret

theorem copies_bracketItems : Copies tail true 0 (bracketItems g) (bracketItems g') := by
  refine .check nofun (fun closes => ?_) nofun
  cases closes with
  | true => exact .ret
  | false =>
    refine .reading fun c d twin => ?_
    have colon : decide (d.current.kind = .mark .colon) = decide (c.current.kind = .mark .colon) :=
      twin.decide_kind nofun nofun
    have bracket : decide (d.kindAfter 0 = .mark .rightBracket) =
        decide (c.kindAfter 0 = .mark .rightBracket) :=
      twin.decide_kindAfter 0 nofun nofun
    rw [colon, bracket]
    split
    · next empty =>
      have at_ : c.current.kind = .mark .colon :=
        of_decide_eq_true (Bool.and_eq_true_iff.mp empty).1
      exact .advance twin (at_ ▸ trivial) fun _ _ => at_ ▸ .ret
    · have filled : Copies tail true 0 (do
          let first ← g.expression
          if ← accept (.mark .colon) then
            let value ← g.expression
            return ExprKind.map (← mapEntries g (first, value))
          else return .array (← arrayItems g first)) (do
          let first ← g'.expression
          if ← accept (.mark .colon) then
            let value ← g'.expression
            return .map (← mapEntries g' (first, value))
          else return .array (← arrayItems g' first)) :=
        h.expression.bind fun first => .accept nofun trivial
          (h.expression.bind fun value => (copies_mapEntries h _).bind fun _ => .ret)
          ((copies_arrayItems h _).bind fun _ => .ret) nofun
      exact filled c d twin

theorem copies_bracketed :
    CopiesAhead tail (.mark .leftBracket) true 0 (bracketed g) (bracketed g') :=
  .advance trivial fun _ _ => ((copies_bracketItems h).restricting _).bind fun _ =>
    .consume Nat.one_pos fun _ => .node

theorem copies_arguments : Copies tail true 0 (arguments g) (arguments g') := by
  refine .consume trivial fun _ => ((Copies.repeating (fun args => ?_) _).restricting _).bind
    fun args => .consume Nat.one_pos fun _ => .ret
  refine .check nofun (fun found => ?_) fun _ => (h.barren .expression).bind
  cases found with
  | true => exact .ret
  | false => exact h.expression.bind fun _ => .accept nofun trivial .ret .ret nofun

/-! ## Primary expressions -/

omit h in
theorem copies_leaf {kind : TokenKind} (plain : weight kind = .plain) (form : ExprKind)
    (position : Position) :
    CopiesAhead tail kind true 0 (leaf form position) (leaf form position) :=
  .advance (plain ▸ trivial) fun _ _ => plain ▸ .node

theorem copies_named (name : String) (position : Position) :
    CopiesAhead tail (.name name) true 0 (named g name position) (named g' name position) := by
  intro c d twin at_
  refine .look (a := c) (b := d) rfl rfl (.advance_next twin (at_ ▸ trivial) fun next => ?_)
  have arrow : decide (d.kindAfter 0 = .mark .fatArrow) = decide (c.kindAfter 0 = .mark .fatArrow) :=
    twin.decide_kindAfter 0 nofun nofun
  rw [at_, twin.restrictions, arrow]
  split
  · next function =>
    have follows : c.next.current.kind = .mark .fatArrow := by
      rw [twin.kind_next (at_ ▸ nofun)]
      exact of_decide_eq_true (Bool.and_eq_true_iff.mp function).2
    exact .advance next (follows ▸ trivial) fun _ _ => follows ▸ (copies_lambdaBody h).bind
      fun body => copies_lambda _ body _
  · have object : Copies tail true 0 (do
        if !d.restrictions.noConstruct && isClassName name && (← membersAhead true) then
          node (.construct name (← entityMembers g)) position
        else node (.name name) position) (do
        if !d.restrictions.noConstruct && isClassName name && (← membersAhead true) then
          node (.construct name (← entityMembers g')) position
        else node (.name name) position) := by
      refine .look (sees_membersAhead _) fun members => ?_
      split
      · exact (copies_entityMembers h).bind fun _ => .node
      · exact .node
    exact object c.next d.next next

theorem copies_braced (position : Position) :
    Copies tail true 0 (braced g position) (braced g' position) := by
  refine .look (sees_membersAhead _) fun members => ?_
  cases members with
  | true => exact (copies_entityMembers h).bind fun _ => .node
  | false => exact h.block.bind fun _ => .node

theorem copies_locked (position : Position) :
    CopiesAhead tail (.keyword .lockWord) true 0 (locked g position) (locked g' position) := by
  have body (key : Option Expr) : Copies tail true 0 (do
      let body ← g.block
      node (.lock key body) position) (do
      let body ← g'.block
      node (.lock key body) position) :=
    h.block.bind fun _ => .node
  exact .advance trivial fun _ _ => .accept nofun trivial ((copies_nested h).bind fun key =>
    .consume Nat.one_pos fun _ => body (some key)) (body none) nofun

omit h in
theorem barren_primary : Barren (primary g) := by
  refine .peek fun token ended => ?_
  dsimp only
  rw [ended]
  exact fun _ _ _ => nofun

theorem copies_primary : Copies tail true 0 (primary g) (primary g') := by
  refine .peek (fun token => ?_) fun token ended => ?_
  · dsimp only
    generalize token.kind = kind
    split
    · exact copies_leaf rfl _ _
    · exact copies_leaf rfl _ _
    · exact copies_named h _ _
    · exact copies_leaf rfl _ _
    · exact copies_leaf rfl _ _
    · exact copies_leaf rfl _ _
    · exact copies_leaf rfl _ _
    · exact copies_leaf rfl _ _
    · exact .advance trivial fun _ _ => .consume trivial fun _ => .consumeName fun _ => .node
    · exact ((copies_functionDef h).bind fun _ => .node).ahead
    · exact .advance trivial fun _ _ => h.block.bind fun _ => .node
    · exact .advance trivial fun _ _ => h.block.bind fun _ => .node
    · exact .advance trivial fun _ _ => h.block.bind fun _ => .node
    · exact copies_locked h _
    · exact .advance trivial fun _ _ => (copies_header h).bind fun _ => (copies_matchArms h).bind
        fun _ => .node
    · exact copies_parenthesized h
    · exact copies_bracketed h
    · exact (copies_braced h _).ahead
    · exact Copies.unexpected.ahead
  · dsimp only
    rw [ended]
    exact fun _ _ _ => nofun

/-! ## Calls, accesses and operators -/

omit h in
theorem copies_access (object : Expr) :
    CopiesAhead tail (.mark .dot) true 0 (access object) (access object) := by
  refine .advance trivial fun _ _ => .advance (fun token may => ?_) fun token stops c r => ?_
  · dsimp only
    generalize token.kind = kind at may ⊢
    split
    · split
      · exact .ret
      · exact .fail
    · exact .ret
    · exact .ret
    · exact .fail
  · rcases stops_cases stops with kind | kind | kind | kind
    all_goals
      rw [kind]
      exact nofun

theorem copies_suffix? (object : Expr) :
    Copies tail true 0 (suffix? g object) (suffix? g' object) := by
  refine .peekKind (fun kind => ?_) rfl
  split
  · exact ((copies_arguments h).bind fun _ => .ret).ahead
  · exact CopiesAhead.bind (copies_access object) fun _ => .ret
  · exact .advance trivial fun _ _ => (copies_nested h).bind fun _ => .consume Nat.one_pos fun _ => .ret
  · refine .advance trivial fun _ _ => .check nofun (fun opens => ?_) nofun
    cases opens with
    | true => exact (copies_entityMembers h).bind fun _ => .ret
    | false => exact .consumeName fun _ => .ret
  · split
    · next update =>
      have plain := plain_of_found update (by decide)
      split
      · exact .advance (plain ▸ trivial) fun _ _ => plain ▸ .ret
      · exact Copies.ret.ahead
    · exact Copies.ret.ahead

theorem copies_postfixed : Copies tail true 0 (postfixed g) (postfixed g') := by
  refine .here fun position => (copies_primary h).bind fun object => .repeating (fun object => ?_) _
  refine (copies_suffix? h object).bind fun form => ?_
  cases form with
  | none => exact .ret
  | some form => exact Copies.node.bind fun _ => .ret

theorem copies_unaryStep : Copies tail true 0 (unaryStep g) (unaryStep g') := by
  refine .descending (.peek (fun token => ?_) fun token ended => ?_)
  · generalize token.kind = kind
    split
    · next unary =>
      have plain := plain_of_found unary (by decide)
      exact .advance (plain ▸ trivial) fun _ _ => plain ▸ h.unary.bind fun _ => .node
    · next update =>
      have plain := plain_of_found update (by decide)
      refine .advance (plain ▸ trivial) fun _ _ => plain ▸ h.unary.bind fun target => ?_
      split
      · exact .fail_bind
      · exact .node
    · exact (copies_postfixed h).ahead
  · rw [ended]
    exact .look looks_here fun _ => barren_primary.bind

omit h in
theorem copies_typeName : Copies tail true 0 typeName typeName := by
  refine .advance (fun token may => ?_) fun token stops c r => ?_
  · dsimp only
    generalize token.kind = kind at may ⊢
    cases kind with
    | name | keyword | number | string =>
      split
      · exact .ret
      · exact .fail
    | mark => exact .fail
    | finish => exact may.elim
  · rcases stops_cases stops with kind | kind | kind | kind
    all_goals
      rw [kind]
      exact nofun

theorem copies_infixRight (left : Expr) (operator : Infix) (precedence : Nat) :
    Copies tail true 0 (infixRight g left operator precedence)
      (infixRight g' left operator precedence) := by
  cases operator with
  | typeTest => exact copies_typeName.bind fun _ => .ret
  | pipe | binary => exact (h.infixFrom _).bind fun _ => .ret

theorem copies_infixStep (least : Nat) :
    Copies tail true 0 (infixStep g least) (infixStep g' least) := by
  refine .here fun position => h.unary.bind fun left => .repeating (fun left => ?_) _
  intro c d twin
  obtain ⟨ahead, sees, sees'⟩ := sees_infixAhead? least c d twin
  refine .look sees sees' ?_
  cases ahead with
  | none => exact Copies.ret c d twin
  | some operator =>
    have plain := plain_of_infixAhead? sees
    exact .advance twin (plain ▸ trivial) fun _ _ => plain ▸ (copies_infixRight h _ _ _).bind
      fun _ => Copies.node.bind fun _ => .ret

theorem copies_conditionalStep :
    Copies tail true 0 (conditionalStep g) (conditionalStep g') :=
  .here fun _ => (h.infixFrom _).bind fun _ => .accept nofun trivial
    (h.expression.bind fun _ => .consume trivial fun _ => h.conditional.bind fun _ => .node) .ret nofun

theorem copies_assignmentStep :
    Copies tail true 0 (assignmentStep g) (assignmentStep g') := by
  refine .here fun position => .look (sees_groupFollowedBy nofun nofun) fun found => ?_
  cases found with
  | true =>
    exact h.pattern.bind fun _ => .consume trivial fun _ => h.assignment.bind fun _ => .node
  | false =>
    refine h.conditional.bind fun target => .peekKind (fun kind => ?_) rfl
    split
    · exact Copies.ret.ahead
    · next assign =>
      have plain := plain_of_found assign (by decide)
      refine .advance (plain ▸ trivial) fun token _ => plain ▸ ?_
      dsimp only
      split
      · exact .fail_bind
      · exact h.assignment.bind fun _ => .node

end

end ScriptEngine.Parse
