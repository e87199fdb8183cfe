import ScriptEngine.Proofs.Parse.Moving

/-!
# Expressions take tokens

Each form of pattern and expression comes to a result, and takes a token for it, if the grammar
inside it does so in front of fewer tokens. The forms that are read without a token before them are
asked of the same number of tokens.

* `Grammar.Ready`: every form of a grammar comes to a result in front of so many tokens.
* `takes_patternStep`, `takes_primary`, `takes_assignmentStep` and the others: the forms of patterns
  and expressions.
-/

namespace ScriptEngine.Parse

/-- Every form of a grammar takes a token and comes to a result, in front of at most `k` tokens. -/
def Grammar.Ready (place : Position → Prop) (k : Nat) (g : Grammar) : Prop :=
  ∀ {α : Type} (form : Form α), Takes place k Surely (g.read form)

variable {place : Position → Prop} {k : Nat} {c : Cursor} {g : Grammar}

namespace Grammar.Ready

theorem pattern (h : g.Ready place k) : Takes place k Surely g.pattern := h .pattern

theorem expression (h : g.Ready place k) : Takes place k Surely g.expression := h .expression

theorem assignment (h : g.Ready place k) : Takes place k Surely g.assignment := h .assignment

theorem conditional (h : g.Ready place k) : Takes place k Surely g.conditional := h .conditional

theorem infixFrom (h : g.Ready place k) (least : Nat) : Takes place k Surely (g.infixFrom least) :=
  h (.infixFrom least)

theorem unary (h : g.Ready place k) : Takes place k Surely g.unary := h .unary

theorem block (h : g.Ready place k) : Takes place k Surely g.block := h .block

theorem branch (h : g.Ready place k) : Takes place k Surely g.branch := h .branch

theorem statement (h : g.Ready place k) : Takes place k Surely g.statement := h .statement

end Grammar.Ready

/-! ## Patterns -/

section

variable {pattern : Parser Pattern} (h : Takes place k Surely pattern)

include h

theorem takes_patternItems (close : Mark) : Takes place k Maybe (patternItems pattern close) := by
  refine h.next fun first => ?_
  refine (Takes.repeating fun items => ?_).next fun items => ?_
  · exact (takes_anotherItem (h.next fun _ => takes_ret)).less
  · refine (takes_consumeMark close _).next fun _ => ?_
    split
    · exact .here fun _ at_ => .fail_bind at_
    · exact takes_ret

theorem takes_patternStep : Takes place (k + 1) Surely (patternStep pattern) := by
  refine .advance (fun token at_ => ?_) fun token at_ ends => ?_
  · split
    · exact takes_ret
    · exact takes_ret
    · exact takes_ret
    · exact takes_ret
    · exact takes_ret
    · exact takes_ret
    · exact takes_ret
    · refine takes_advance.next fun number => ?_
      split
      · exact takes_ret
      · exact takes_fail at_
    · refine (takes_accept _).next fun found => ?_
      cases found with
      | true => exact takes_ret
      | false =>
        refine (takes_patternItems h _).next fun items => ?_
        split <;> exact takes_ret
    · refine (takes_accept _).next fun found => ?_
      cases found with
      | true => exact takes_ret
      | false => exact (takes_patternItems h _).next fun _ => takes_ret
    · exact takes_fail (unexpectedAt_place at_ _)
  · rw [ends]
    exact takes_fail (unexpectedAt_place at_ _)

end

/-! ## Members, functions and arms -/

/-- The name of a member is a token, and its place is that of the token. -/
theorem Takes.memberName {β : Type} {taken : β → Prop} {f : String × Position → Parser β}
    (h : ∀ name at_, place at_ → Takes place k Maybe (f (name, at_))) :
    Takes place (k + 1) taken (memberName >>= f) := by
  rw [Parse.memberName, bind_assoc]
  refine .advance (fun token at_ => ?_) fun token at_ ends => ?_
  · split
    · exact h _ _ at_
    · exact h _ _ at_
    · exact h _ _ at_
    · exact .fail_bind at_
  · rw [ends]
    exact .fail_bind at_

theorem takes_parameters : Takes place (k + 1) Surely parameters := by
  refine (takes_consumeMark _ _).after fun _ => ?_
  refine (Takes.repeating fun params => ?_).next fun params =>
    (takes_consumeMark _ _).next fun _ => takes_ret
  refine .look (looks_check _) fun closes => ?_
  cases closes with
  | true => exact takes_last
  | false =>
    refine .here fun position at_ => (takes_consumeName _).behind fun name => ?_
    dsimp only
    split
    · exact .fail_bind at_
    · refine (takes_accept _).next fun found => ?_
      cases found with
      | true => exact takes_ret
      | false => exact takes_ret

section

variable (h : g.Ready place k)

include h

theorem takes_header : Takes place k Surely (header g) :=
  h.expression.restricting _

theorem takes_nested : Takes place k Surely (nested g) :=
  h.expression.restricting _

theorem takes_entityMembers : Takes place (k + 1) Surely (entityMembers g) := by
  refine (takes_consumeMark _ _).after fun _ => ?_
  refine ((Takes.repeating fun members => ?_).restricting _).next fun members =>
    (takes_consumeMark _ _).next fun _ => takes_ret
  refine .look (looks_check _) fun closes => ?_
  cases closes with
  | true => exact takes_last
  | false =>
    refine Takes.less (Takes.memberName fun name position at_ => ?_)
    dsimp only
    split
    · exact .fail_bind at_
    · refine (takes_consumeMark _ _).next fun _ => h.expression.next fun value =>
        (takes_accept _).next fun found => ?_
      cases found with
      | true => exact takes_ret
      | false => exact takes_ret

theorem takes_lambdaBody : Takes place k Surely (lambdaBody g) := by
  refine .look (looks_check _) fun opens => .look (looks_membersAhead _) fun members => ?_
  split
  · exact h.block.behind fun _ => takes_ret
  · exact h.expression.behind fun _ => takes_ret

theorem takes_functionDef : Takes place (k + 1) Surely (functionDef g) := by
  have rest (start : Token) (name : Option String) : Takes place k Maybe (do
      let params ← parameters
      let body ← do
        if ← accept (.mark .fatArrow) then lambdaBody g else pure (Body.block (← g.block))
      return (⟨name, params, body, start.position⟩ : FunctionDef)) := by
    refine takes_parameters.less.next fun params => (takes_accept _).next fun found => ?_
    cases found with
    | true => exact (takes_lambdaBody h).next fun _ => takes_ret
    | false => exact h.block.next fun _ => .ret_bind takes_ret
  refine (takes_consumeWord _ _).after fun start => .look looks_peekKind fun kind => ?_
  cases kind with
  | name name => exact takes_advance.next fun _ => rest start (some name)
  | _ => exact rest start none

theorem takes_armBody : Takes place k Surely (armBody g) := by
  refine .look (looks_check _) fun opens => .look (looks_membersAhead _) fun members => ?_
  split
  · exact h.block.behind fun _ => takes_ret
  · exact (h.expression.restricting _).behind fun _ => takes_ret

theorem takes_matchArms : Takes place (k + 1) Surely (matchArms g) := by
  refine (takes_consumeMark _ _).after fun _ => ?_
  refine (Takes.repeating fun arms => ?_).next fun arms =>
    (takes_consumeMark _ _).next fun _ => takes_ret
  refine .look (looks_check _) fun closes => .look looks_atFinish fun finished => ?_
  split
  · exact takes_last
  · refine .here fun position _ => (takes_accept _).next fun barred => ?_
    dsimp only
    split
    · exact .unexpected_bind _
    · refine h.pattern.behind fun pattern => (takes_accept _).next fun guarded => ?_
      have arm (guard : Option Expr) : Takes place k Maybe (do
          let _ ← consumeMark .fatArrow "'=>' in match arm"
          let body ← armBody g
          let _ ← accept (.mark .comma)
          return (Sum.inl (arms ++ [⟨pattern, guard, body, position⟩]) : List Arm ⊕ List Arm)) :=
        (takes_consumeMark _ _).next fun _ => (takes_armBody h).next fun body =>
          (takes_accept _).next fun _ => takes_ret
      cases guarded with
      | true => exact (h.expression.restricting _).next fun guard => .ret_bind (arm (some guard))
      | false => exact .ret_bind (arm none)

/-! ## Brackets -/

omit h in
theorem takes_lambda (params : List String) (body : Body) (position : Position) :
    Takes place k Maybe (lambda params body position) := by
  rw [lambda]
  exact takes_node _ _

theorem takes_tupleItems (first : Expr) : Takes place k Maybe (tupleItems g first) :=
  .repeating fun _ => (takes_anotherItem (h.expression.next fun _ => takes_ret)).less

theorem opens_grouped (position : Position) : Opens place k (grouped g position) := by
  refine .advance fun _ _ => (takes_accept _).next fun found => ?_
  cases found with
  | true => exact takes_node _ _
  | false =>
    have items : Takes place k Maybe (do tupleItems g (← g.expression)) :=
      h.expression.next fun first => takes_tupleItems h first
    refine (items.restricting _).next ?_
    rintro ⟨items, trailing⟩
    refine (takes_consumeMark _ _).next fun _ => ?_
    split
    · exact takes_ret
    · exact takes_node _ _

theorem opens_parenthesized : Opens place k (parenthesized g) := by
  refine .look looks_here fun position => .look looks_get fun c =>
    .look (looks_groupFollowedBy _) fun arrow => ?_
  split
  · exact .of_takes (takes_parameters.after fun params => (takes_consumeMark _ _).next fun _ =>
      (takes_lambdaBody h).next fun body => takes_lambda params body position)
  · exact opens_grouped h position

theorem takes_mapEntries (first : Expr × Expr) : Takes place k Maybe (mapEntries g first) :=
  .repeating fun _ => (takes_anotherItem (h.expression.next fun _ =>
    (takes_consumeMark _ _).next fun _ => h.expression.next fun _ => takes_ret)).less

theorem takes_arrayItems (first : Expr) : Takes place k Maybe (arrayItems g first) :=
  .repeating fun _ => (takes_anotherItem (h.expression.next fun _ => takes_ret)).less

theorem takes_bracketItems : Takes place k Maybe (bracketItems g) := by
  refine .look (looks_check _) fun closes => ?_
  cases closes with
  | true => exact takes_ret
  | false =>
    refine .look looks_get fun c => ?_
    split
    · exact takes_advance.next fun _ => takes_ret
    · refine h.expression.next fun first => (takes_accept _).next fun found => ?_
      cases found with
      | true =>
        exact h.expression.next fun value => (takes_mapEntries h (first, value)).next
          fun _ => takes_ret
      | false => exact (takes_arrayItems h first).next fun _ => takes_ret

theorem opens_bracketed : Opens place k (bracketed g) :=
  .advance fun _ _ => ((takes_bracketItems h).restricting _).next fun _ =>
    (takes_consumeMark _ _).next fun _ => takes_node _ _

theorem takes_arguments : Takes place (k + 1) Surely (arguments g) := by
  refine (takes_consumeMark _ _).after fun _ => ?_
  refine ((Takes.repeating fun args => ?_).restricting _).next fun args =>
    (takes_consumeMark _ _).next fun _ => takes_ret
  refine .look (looks_check _) fun closes => ?_
  cases closes with
  | true => exact takes_last
  | false =>
    refine h.expression.behind fun e => (takes_accept _).next fun found => ?_
    cases found with
    | true => exact takes_ret
    | false => exact takes_ret

/-! ## Primary expressions -/

omit h in
theorem opens_leaf (kind : ExprKind) (position : Position) : Opens place k (leaf kind position) :=
  .advance fun _ _ => takes_node _ _

theorem opens_named (name : String) (position : Position) :
    Opens place k (named g name position) := by
  refine .look looks_get fun c => .advance fun _ _ => ?_
  split
  · exact takes_advance.next fun _ => (takes_lambdaBody h).next fun body => takes_lambda _ _ _
  · refine .look (looks_membersAhead _) fun members => ?_
    split
    · exact (takes_entityMembers h).less.next fun _ => takes_node _ _
    · exact takes_node _ _

/-- A block is read where it begins, so it is asked of as many tokens. -/
theorem takes_braced (block : Takes place (k + 1) Surely g.block) (position : Position) :
    Takes place (k + 1) Surely (braced g position) := by
  refine .look (looks_membersAhead _) fun members => ?_
  cases members with
  | true => exact (takes_entityMembers h).after fun _ => takes_node _ _
  | false => exact block.after fun _ => takes_node _ _

theorem opens_locked (position : Position) : Opens place k (locked g position) := by
  have body (key : Option Expr) : Takes place k Maybe (do
      let body ← g.block
      node (.lock key body) position) :=
    h.block.next fun _ => takes_node _ _
  refine .advance fun _ _ => (takes_accept _).next fun found => ?_
  cases found with
  | true =>
    exact (takes_nested h).next fun key => (takes_consumeMark _ _).next fun _ =>
      .ret_bind (body (some key))
  | false => exact .ret_bind (body none)

omit h in
/-- A token of another kind than the end is not the end. -/
theorem inside_of {word : TokenKind} (here : c.current.kind = word) (other : word ≠ .finish) :
    c.current.kind ≠ .finish :=
  here ▸ other

theorem takes_primary (block : Takes place (k + 1) Surely g.block) :
    Takes place (k + 1) Surely (primary g) := by
  refine .peek fun c within => ?_
  dsimp only
  split
  · next here => exact (opens_leaf _ _).opened within (inside_of here nofun)
  · next here => exact (opens_leaf _ _).opened within (inside_of here nofun)
  · next here => exact (opens_named h _ _).opened within (inside_of here nofun)
  · next here => exact (opens_leaf _ _).opened within (inside_of here nofun)
  · next here => exact (opens_leaf _ _).opened within (inside_of here nofun)
  · next here => exact (opens_leaf _ _).opened within (inside_of here nofun)
  · next here => exact (opens_leaf _ _).opened within (inside_of here nofun)
  · next here => exact (opens_leaf _ _).opened within (inside_of here nofun)
  · next here =>
    exact .advance within (inside_of here nofun) fun _ _ => (takes_consumeMark _ _).next fun _ =>
      (takes_consumeName _).next fun _ => takes_node _ _
  · exact (takes_functionDef h c within).after within fun _ => takes_node _ _
  · next here =>
    exact .advance within (inside_of here nofun) fun _ _ => h.block.next fun _ => takes_node _ _
  · next here =>
    exact .advance within (inside_of here nofun) fun _ _ => h.block.next fun _ => takes_node _ _
  · next here =>
    exact .advance within (inside_of here nofun) fun _ _ => h.block.next fun _ => takes_node _ _
  · next here => exact (opens_locked h _).opened within (inside_of here nofun)
  · next here =>
    exact .advance within (inside_of here nofun) fun _ _ => (takes_header h).next fun _ =>
      (takes_matchArms h).less.next fun _ => takes_node _ _
  · next here => exact (opens_parenthesized h).opened within (inside_of here nofun)
  · next here => exact (opens_bracketed h).opened within (inside_of here nofun)
  · exact takes_braced h block _ c within
  · exact takes_unexpected _ c within

/-! ## Calls, accesses and operators -/

omit h in
theorem opens_access (object : Expr) : Opens place k (access object) := by
  refine .advance fun _ _ => .token fun token at_ => ?_
  dsimp only
  split
  · split
    · exact takes_ret
    · exact takes_fail at_
  · exact takes_ret
  · exact takes_ret
  · exact takes_fail at_

omit h in
theorem takes_nothing {α : Type} :
    Takes place k (fun a? : Option α => a?.isSome = true) (pure none) :=
  .ret Bool.false_ne_true

/-- What is put behind an expression, if anything, begins with a token. -/
theorem takes_suffix? (object : Expr) :
    Takes place (k + 1) (fun kind? => kind?.isSome = true) (suffix? g object) := by
  refine .peekKind fun c within => ?_
  split
  · exact (takes_arguments h c within).after within fun _ => takes_ret
  · next here =>
    exact ((opens_access object).opened within (inside_of here nofun)).after within
      fun _ => takes_ret
  · next here =>
    exact .advance within (inside_of here nofun) fun _ _ => (takes_nested h).next fun _ =>
      (takes_consumeMark _ _).next fun _ => takes_ret
  · next here =>
    refine .advance within (inside_of here nofun) fun _ _ => .look (looks_check _) fun opens => ?_
    cases opens with
    | true => exact (takes_entityMembers h).less.next fun _ => takes_ret
    | false => exact (takes_consumeName _).next fun _ => takes_ret
  · split
    · next op steps =>
      split
      · exact .advance within (fun ends => by rw [ends] at steps; cases steps) fun _ _ => takes_ret
      · exact takes_nothing c within
    · exact takes_nothing c within

/-- Behind a primary expression each round begins with a token. -/
theorem takes_postfixed (block : Takes place (k + 1) Surely g.block) :
    Takes place (k + 1) Surely (postfixed g) := by
  refine .look looks_here fun position => (takes_primary h block).after fun object =>
    .repeating fun object => Takes.less ?_
  refine (takes_suffix? h object).cases (fun kind? some => ?_) fun kind? none => ?_
  · obtain ⟨kind, rfl⟩ := Option.isSome_iff_exists.mp some
    exact (takes_node _ _).next fun _ => takes_ret
  · obtain rfl := Option.not_isSome_iff_eq_none.mp none
    exact takes_last

theorem takes_unaryStep (block : Takes place (k + 1) Surely g.block) :
    Takes place (k + 1) Surely (unaryStep g) := by
  refine Takes.descending (.peek fun c within => ?_)
  split
  · next op found =>
    have inside : c.current.kind ≠ .finish := fun ends => by rw [ends] at found; cases found
    exact .advance within inside fun _ _ => h.unary.next fun _ => takes_node _ _
  · next op none found =>
    have inside : c.current.kind ≠ .finish := fun ends => by rw [ends] at found; cases found
    refine .advance within inside fun _ _ => h.unary.next fun target => ?_
    dsimp only
    split
    · exact .fail_bind within.here
    · exact takes_node _ _
  · exact takes_postfixed h block c within

omit h in
theorem takes_typeName : Takes place k Maybe typeName := by
  refine .token fun token at_ => ?_
  dsimp only
  split
  · exact takes_ret
  · exact takes_fail at_

omit h in
theorem looks_infixAhead? (least : Nat) : Looks (infixAhead? least) := by
  refine .reading fun c => ?_
  split
  · split <;> exact looksAt_ret
  · exact looksAt_ret

omit h in
/-- The end is no operator. -/
theorem infixAhead?_of_finish (ends : c.current.kind = .finish) (least : Nat) :
    infixAhead? least c = .ok (none, c) := by
  simp only [infixAhead?, Bind.bind, StateT.bind, get, getThe, MonadStateOf.get, StateT.get, pure,
    Except.pure, Except.bind, ends]
  rfl

theorem takes_infixRight (left : Expr) (operator : Infix) (precedence : Nat) :
    Takes place k Maybe (infixRight g left operator precedence) := by
  cases operator with
  | typeTest => exact takes_typeName.next fun _ => takes_ret
  | pipe | binary => exact (h.infixFrom _).next fun _ => takes_ret

/-- Behind the first operand each round begins with an operator. -/
theorem takes_infixStep (unary : Takes place (k + 1) Surely g.unary) (least : Nat) :
    Takes place (k + 1) Surely (infixStep g least) := by
  refine .look looks_here fun position => unary.after fun left => .repeating fun left =>
    Takes.less fun c within => ?_
  by_cases ends : c.current.kind = .finish
  · exact .looking (infixAhead?_of_finish ends least) (takes_last c within)
  · refine .look (looks_infixAhead? least) fun ahead => ?_
    cases ahead with
    | none => exact takes_last c within
    | some operator =>
      exact .advance within ends fun _ _ => (takes_infixRight h _ _ _).next fun _ =>
        (takes_node _ _).next fun _ => takes_ret

theorem takes_conditionalStep
    (infixFrom : ∀ least, Takes place (k + 1) Surely (g.infixFrom least)) :
    Takes place (k + 1) Surely (conditionalStep g) := by
  refine .look looks_here fun position => (infixFrom _).after fun condition =>
    (takes_accept _).next fun found => ?_
  cases found with
  | false => exact takes_ret
  | true =>
    exact h.expression.next fun _ => (takes_consumeMark _ _).next fun _ => h.conditional.next
      fun _ => takes_node _ _

theorem takes_assignmentStep (pattern : Takes place (k + 1) Surely g.pattern)
    (conditional : Takes place (k + 1) Surely g.conditional) :
    Takes place (k + 1) Surely (assignmentStep g) := by
  refine .look looks_here fun position => .look (looks_groupFollowedBy _) fun found => ?_
  cases found with
  | true =>
    exact pattern.after fun _ => (takes_consumeMark _ _).next fun _ => h.assignment.next
      fun _ => takes_node _ _
  | false =>
    refine conditional.after fun target => .look looks_peekKind fun kind => ?_
    split
    · exact takes_ret
    · refine .token fun token at_ => ?_
      dsimp only
      split
      · exact .fail_bind at_
      · exact h.assignment.next fun _ => takes_node _ _

end

end ScriptEngine.Parse
