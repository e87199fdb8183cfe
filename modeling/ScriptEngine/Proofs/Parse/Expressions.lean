import ScriptEngine.Proofs.Parse.Agreement

/-!
# Expressions on alike tokens

Each form of pattern and expression agrees on alike tokens, if the grammar inside it does.

* `Form.Same`: what is compared of the trees of a form.
* `Grammar.Agrees`: every form of a grammar agrees.
-/

namespace ScriptEngine.Parse

/-- What is compared of the trees of a form. -/
def Form.Same : {α : Type} → Form α → α → α → Prop
  | _, .pattern => Eq
  | _, .expression | _, .assignment | _, .conditional | _, .infixFrom _ | _, .unary =>
    Parse.Same Expr.bare
  | _, .block => Parse.Same Block.bare
  | _, .branch => Parse.Same StmtKind.bare
  | _, .statement => Parse.Same Stmt.bare

/-- Every form of a grammar agrees. -/
def Grammar.Agrees (near : Position → Position → Prop) (g : Grammar) : Prop :=
  ∀ {α : Type} (form : Form α), Agree near form.Same (g.read form) (g.read form)

variable {near : Position → Position → Prop} {α : Type} {g : Grammar}

namespace Grammar.Agrees

theorem pattern (h : g.Agrees near) : Agree near Eq g.pattern g.pattern := h .pattern

theorem expression (h : g.Agrees near) :
    Agree near (Same Expr.bare) g.expression g.expression := h .expression

theorem assignment (h : g.Agrees near) :
    Agree near (Same Expr.bare) g.assignment g.assignment := h .assignment

theorem conditional (h : g.Agrees near) :
    Agree near (Same Expr.bare) g.conditional g.conditional := h .conditional

theorem infixFrom (h : g.Agrees near) (least : Nat) :
    Agree near (Same Expr.bare) (g.infixFrom least) (g.infixFrom least) := h (.infixFrom least)

theorem unary (h : g.Agrees near) : Agree near (Same Expr.bare) g.unary g.unary := h .unary

theorem block (h : g.Agrees near) : Agree near (Same Block.bare) g.block g.block := h .block

theorem branch (h : g.Agrees near) : Agree near (Same StmtKind.bare) g.branch g.branch := h .branch

theorem statement (h : g.Agrees near) : Agree near (Same Stmt.bare) g.statement g.statement :=
  h .statement

end Grammar.Agrees

/-! ## Patterns -/

section

variable {pattern : Parser Pattern} (h : Agree near Eq pattern pattern)

include h

theorem agree_patternItems (close : Mark) :
    Agree near Eq (patternItems pattern close) (patternItems pattern close) := by
  have round (items : List Pattern) : Agree near (Sum.LiftRel Eq Eq) (do
      if ← accept (.mark .comma) then
        if ← check (.mark close) then return .inr items
        else return .inl (items ++ [← pattern])
      else return .inr items) (do
      if ← accept (.mark .comma) then
        if ← check (.mark close) then return .inr items
        else return .inl (items ++ [← pattern])
      else return .inr items) := by
    refine (agree_accept _).next fun found => ?_
    cases found with
    | false => exact .ret (.inr rfl)
    | true =>
      refine (agree_check _).next fun closes => ?_
      cases closes with
      | true => exact .ret (.inr rfl)
      | false => exact h.next fun item => .ret (.inl rfl)
  refine h.next fun first => ?_
  refine (Agree.repeating (fun items _ same => same ▸ round items) rfl).next fun items => ?_
  refine (agree_consumeMark _ _).bind fun _ _ _ => ?_
  split
  · exact agree_here.bind fun _ _ at_ => .fail_bind (.invalid _ at_)
  · exact .ret rfl

theorem agree_patternStep : Agree near Eq (patternStep pattern) (patternStep pattern) := by
  refine agree_advance.bind fun token token' alike => ?_
  rw [alike.kind]
  split
  · exact .ret rfl
  · exact .ret rfl
  · exact .ret rfl
  · exact .ret rfl
  · exact .ret rfl
  · exact .ret rfl
  · exact .ret rfl
  · refine agree_advance.bind fun number number' alikeNumber => ?_
    rw [alikeNumber.kind]
    split
    · exact .ret rfl
    · exact agree_fail (.invalid _ alike.position)
  · refine (agree_accept _).next fun found => ?_
    cases found with
    | true => exact .ret rfl
    | false =>
      refine (agree_patternItems h _).next fun items => ?_
      split <;> exact .ret rfl
  · refine (agree_accept _).next fun found => ?_
    cases found with
    | true => exact .ret rfl
    | false => exact (agree_patternItems h _).next fun items => .ret rfl
  · exact agree_fail (unexpectedAt_alike alike _)

end

/-! ## Members, functions and arms -/

theorem agree_memberName :
    Agree near (fun r r' => r.1 = r'.1 ∧ near r.2 r'.2) memberName memberName := by
  refine agree_advance.bind fun token token' alike => ?_
  rw [alike.kind, alike.lexeme]
  split
  · exact .ret ⟨rfl, alike.position⟩
  · exact .ret ⟨rfl, alike.position⟩
  · exact .ret ⟨rfl, alike.position⟩
  · exact agree_fail (.unexpectedToken _ _ alike.position)

theorem agree_parameters : Agree near Eq parameters parameters := by
  refine (agree_consumeMark _ _).bind fun _ _ _ => ?_
  refine (Agree.repeating (S := Eq) (P := Eq) ?_ rfl).next fun params => ?_
  · rintro params _ rfl
    refine (agree_check _).next fun closes => ?_
    cases closes with
    | true => exact .ret (.inr rfl)
    | false =>
      refine agree_here.bind fun position position' at_ => (agree_consumeName _).next fun name => ?_
      dsimp only
      split
      · exact .fail_bind (.invalid _ at_)
      · refine (agree_accept _).next fun found => ?_
        cases found with
        | true => exact .ret (.inl rfl)
        | false => exact .ret (.inr rfl)
  · exact (agree_consumeMark _ _).bind fun _ _ _ => .ret rfl

section

variable (h : g.Agrees near)

include h

theorem agree_header : Agree near (Same Expr.bare) (header g) (header g) :=
  h.expression.restricting _

theorem agree_nested : Agree near (Same Expr.bare) (nested g) (nested g) :=
  h.expression.restricting _

omit h in
theorem any_name_of_same {members members' : List MemberInit}
    (same : members.map MemberInit.bare = members'.map MemberInit.bare) (name : String) :
    members.any (·.name == name) = members'.any (·.name == name) := by
  have bare (members : List MemberInit) :
      members.any (·.name == name) = (members.map MemberInit.bare).any (·.name == name) := by
    simp only [List.any_map, Function.comp_def, MemberInit.name_bare]
  rw [bare members, bare members', same]

theorem agree_entityMembers :
    Agree near (Same (List.map MemberInit.bare)) (entityMembers g) (entityMembers g) := by
  refine (agree_consumeMark _ _).bind fun _ _ _ => ?_
  refine ((Agree.repeating (S := Same (List.map MemberInit.bare))
    (P := Same (List.map MemberInit.bare)) ?_ rfl).restricting _).bind
      fun members members' same => ?_
  · intro members members' same
    refine (agree_check _).next fun closes => ?_
    cases closes with
    | true => exact .ret (.inr same)
    | false =>
      refine agree_memberName.bind ?_
      rintro ⟨name, position⟩ ⟨_, position'⟩ ⟨rfl, at_⟩
      have again : members.any (·.name == name) = members'.any (·.name == name) :=
        any_name_of_same same name
      dsimp only
      rw [again]
      split
      · exact .fail_bind (.invalid _ at_)
      · refine (agree_consumeMark _ _).bind fun _ _ _ => h.expression.bind fun e e' sameValue => ?_
        refine (agree_accept _).next fun found => ?_
        have more : Same (List.map MemberInit.bare) (members ++ [⟨name, e, position⟩])
            (members' ++ [⟨name, e', position'⟩]) := by
          simp only [Same, List.map_append, List.map_cons, MemberInit.bare, same, sameValue]
        cases found with
        | true => exact .ret (.inl more)
        | false => exact .ret (.inr more)
  · exact (agree_consumeMark _ _).bind fun _ _ _ => .ret same

theorem agree_lambdaBody : Agree near (Same Body.bare) (lambdaBody g) (lambdaBody g) := by
  refine (agree_check _).next fun opens => (agree_membersAhead _).next fun members => ?_
  split
  · exact h.block.bind fun _ _ same => .ret (congrArg Body.block same)
  · exact h.expression.bind fun _ _ same => .ret (congrArg Body.expr same)

theorem agree_functionDef : Agree near (Same FunctionDef.bare) (functionDef g) (functionDef g) := by
  have named (start start' : Token) (name : Option String) : Agree near (Same FunctionDef.bare) (do
      let params ← parameters
      let body ← do
        if ← accept (.mark .fatArrow) then lambdaBody g else pure (Body.block (← g.block))
      return ⟨name, params, body, start.position⟩) (do
      let params ← parameters
      let body ← do
        if ← accept (.mark .fatArrow) then lambdaBody g else pure (Body.block (← g.block))
      return ⟨name, params, body, start'.position⟩) := by
    refine agree_parameters.next fun params => (agree_accept _).next fun found => ?_
    have made (body body' : Body) (same : Same Body.bare body body') :
        Agree near (Same FunctionDef.bare) (pure ⟨name, params, body, start.position⟩)
          (pure ⟨name, params, body', start'.position⟩) :=
      .ret (by simp only [Same, FunctionDef.bare, same])
    cases found with
    | true => exact (agree_lambdaBody h).bind made
    | false =>
      exact h.block.bind fun body body' same => .ret_bind
        (made (.block body) (.block body') (congrArg Body.block same))
  refine (agree_consume _ _).bind fun start start' _ => agree_peekKind.next fun kind => ?_
  cases kind with
  | name name => exact agree_advance.bind fun _ _ _ => named start start' (some name)
  | _ => exact named start start' none

theorem agree_armBody : Agree near (Same Body.bare) (armBody g) (armBody g) := by
  refine (agree_check _).next fun opens => (agree_membersAhead _).next fun members => ?_
  split
  · exact h.block.bind fun _ _ same => .ret (congrArg Body.block same)
  · exact (h.expression.restricting _).bind fun _ _ same => .ret (congrArg Body.expr same)

theorem agree_matchArms : Agree near (Same (List.map Arm.bare)) (matchArms g) (matchArms g) := by
  refine (agree_consumeMark _ _).bind fun _ _ _ => ?_
  refine (Agree.repeating (S := Same (List.map Arm.bare)) (P := Same (List.map Arm.bare)) ?_
    rfl).bind fun arms arms' same => (agree_consumeMark _ _).bind fun _ _ _ => .ret same
  intro arms arms' same
  refine (agree_check _).next fun closes => agree_atFinish.next fun finished => ?_
  split
  · exact .ret (.inr same)
  · refine agree_here.bind fun position position' _ => (agree_accept _).next fun barred => ?_
    have first : arms.isEmpty = arms'.isEmpty := by
      rw [← List.isEmpty_map (f := Arm.bare), same, List.isEmpty_map]
    rw [first]
    split
    · exact .unexpected_bind _
    · refine h.pattern.next fun pattern => (agree_accept _).next fun guarded => ?_
      have arm (guard guard' : Option Expr)
          (sameGuard : guard.map Expr.bare = guard'.map Expr.bare) :
          Agree near (Sum.LiftRel (Same (List.map Arm.bare)) (Same (List.map Arm.bare))) (do
            let _ ← consumeMark .fatArrow "'=>' in match arm"
            let body ← armBody g
            let _ ← accept (.mark .comma)
            return .inl (arms ++ [⟨pattern, guard, body, position⟩])) (do
            let _ ← consumeMark .fatArrow "'=>' in match arm"
            let body ← armBody g
            let _ ← accept (.mark .comma)
            return .inl (arms' ++ [⟨pattern, guard', body, position'⟩])) := by
        refine (agree_consumeMark _ _).bind fun _ _ _ => (agree_armBody h).bind
          fun body body' sameBody => (agree_accept _).bind fun _ _ _ => .ret (.inl ?_)
        simp only [Same, List.map_append, List.map_cons, Arm.bare_mk, same, sameGuard, sameBody]
      cases guarded with
      | true =>
        exact (h.expression.restricting _).bind fun e e' sameGuard => .ret_bind
          (arm (some e) (some e') (congrArg some sameGuard))
      | false => exact .ret_bind (arm none none rfl)

/-! ## Brackets -/

omit h in
theorem agree_lambda (params : List String) {body body' : Body} (same : body.bare = body'.bare)
    (position position' : Position) :
    Agree near (Same Expr.bare) (lambda params body position) (lambda params body' position') :=
  agree_node (by simp only [ExprKind.bare, FunctionDef.bare, same]) position position'

theorem agree_tupleItems {first first' : Expr} (same : first.bare = first'.bare) :
    Agree near (fun r r' => r.1.map Expr.bare = r'.1.map Expr.bare ∧ r.2 = r'.2)
      (tupleItems g first) (tupleItems g first') := by
  refine .repeating (S := Same (List.map Expr.bare)) ?_ (by simp only [Same, List.map_cons, same])
  intro items items' same
  refine (agree_accept _).next fun found => ?_
  cases found with
  | false => exact .ret (.inr ⟨same, rfl⟩)
  | true =>
    refine (agree_check _).next fun closes => ?_
    cases closes with
    | true => exact .ret (.inr ⟨same, rfl⟩)
    | false => exact h.expression.bind fun e e' sameItem => .ret (.inl (by
        simp only [Same, List.map_append, List.map_cons, same, sameItem]))

theorem agree_grouped (position position' : Position) :
    Agree near (Same Expr.bare) (grouped g position) (grouped g position') := by
  refine agree_advance.bind fun _ _ _ => (agree_accept _).next fun found => ?_
  cases found with
  | true => exact agree_node rfl position position'
  | false =>
    have items : Agree near (fun r r' => r.1.map Expr.bare = r'.1.map Expr.bare ∧ r.2 = r'.2)
        (do tupleItems g (← g.expression)) (do tupleItems g (← g.expression)) :=
      h.expression.bind fun _ _ same => agree_tupleItems h same
    refine (items.restricting _).bind ?_
    rintro ⟨items, trailing⟩ ⟨items', _⟩ ⟨same, rfl⟩
    refine (agree_consumeMark _ _).bind fun _ _ _ => ?_
    have tuple : Agree near (Same Expr.bare) (node (.tuple items) position)
        (node (.tuple items') position') :=
      agree_node (by simp only [ExprKind.bare, Expr.bareAll_eq, same]) position position'
    cases items with
    | nil =>
      obtain rfl := List.map_eq_nil_iff.mp same.symm
      exact tuple
    | cons e es =>
      obtain ⟨e', es', rfl, sameFirst, sameOthers⟩ := List.map_eq_cons_iff.mp same.symm
      cases es with
      | cons => 
        obtain ⟨_, _, rfl, -, -⟩ := List.map_eq_cons_iff.mp sameOthers
        exact tuple
      | nil =>
        obtain rfl := List.map_eq_nil_iff.mp sameOthers
        cases trailing with
        | false => exact .ret sameFirst.symm
        | true => exact tuple

theorem agree_parenthesized :
    Agree near (Same Expr.bare) (parenthesized g) (parenthesized g) := by
  refine agree_here.bind fun position position' _ => agree_get.bind fun c c' alike =>
    (agree_groupFollowedBy _).next fun arrow => ?_
  rw [alike.restrictions]
  split
  · exact agree_parameters.next fun params => (agree_consumeMark _ _).bind fun _ _ _ =>
      (agree_lambdaBody h).bind fun _ _ same => agree_lambda params same position position'
  · exact agree_grouped h position position'

theorem agree_mapEntries {first first' : Expr × Expr}
    (same : Expr.bareEntry first = Expr.bareEntry first') :
    Agree near (Same (List.map Expr.bareEntry)) (mapEntries g first) (mapEntries g first') := by
  refine .repeating (S := Same (List.map Expr.bareEntry)) ?_
    (by simp only [Same, List.map_cons, same])
  intro entries entries' same
  refine (agree_accept _).next fun found => ?_
  cases found with
  | false => exact .ret (.inr same)
  | true =>
    refine (agree_check _).next fun closes => ?_
    cases closes with
    | true => exact .ret (.inr same)
    | false =>
      exact h.expression.bind fun key key' sameKey => (agree_consumeMark _ _).bind fun _ _ _ =>
        h.expression.bind fun value value' sameValue => .ret (.inl (by
          simp only [Same, List.map_append, List.map_cons, Expr.bareEntry, same, sameKey,
            sameValue]))

theorem agree_arrayItems {first first' : Expr} (same : first.bare = first'.bare) :
    Agree near (Same (List.map Expr.bare)) (arrayItems g first) (arrayItems g first') := by
  refine .repeating (S := Same (List.map Expr.bare)) ?_ (by simp only [Same, List.map_cons, same])
  intro items items' same
  refine (agree_accept _).next fun found => ?_
  cases found with
  | false => exact .ret (.inr same)
  | true =>
    refine (agree_check _).next fun closes => ?_
    cases closes with
    | true => exact .ret (.inr same)
    | false => exact h.expression.bind fun e e' sameItem => .ret (.inl (by
        simp only [Same, List.map_append, List.map_cons, same, sameItem]))

theorem agree_bracketItems :
    Agree near (Same ExprKind.bare) (bracketItems g) (bracketItems g) := by
  refine (agree_check _).next fun closes => ?_
  cases closes with
  | true => exact .ret rfl
  | false =>
    refine agree_get.bind fun c c' alike => ?_
    rw [alike.current.kind, alike.kindAfter]
    split
    · exact agree_advance.bind fun _ _ _ => .ret rfl
    · refine h.expression.bind fun first first' same => (agree_accept _).next fun found => ?_
      cases found with
      | true =>
        exact h.expression.bind fun value value' sameValue =>
          (agree_mapEntries h (by simp only [Expr.bareEntry, same, sameValue])).bind
            fun entries entries' sameEntries =>
              .ret (by simp only [Same, ExprKind.bare, Expr.bareEntries_eq, sameEntries])
      | false =>
        exact (agree_arrayItems h same).bind fun items items' sameItems =>
          .ret (by simp only [Same, ExprKind.bare, Expr.bareAll_eq, sameItems])

theorem agree_bracketed : Agree near (Same Expr.bare) (bracketed g) (bracketed g) :=
  agree_advance.bind fun _ _ _ => ((agree_bracketItems h).restricting _).bind
    fun _ _ same => (agree_consumeMark _ _).bind fun _ _ _ => agree_node same _ _

theorem agree_arguments : Agree near (Same (List.map Expr.bare)) (arguments g) (arguments g) := by
  refine (agree_consumeMark _ _).bind fun _ _ _ => ?_
  refine ((Agree.repeating (S := Same (List.map Expr.bare)) (P := Same (List.map Expr.bare)) ?_
    rfl).restricting _).bind fun args args' same => (agree_consumeMark _ _).bind fun _ _ _ =>
      .ret same
  intro args args' same
  refine (agree_check _).next fun closes => ?_
  cases closes with
  | true => exact .ret (.inr same)
  | false =>
    refine h.expression.bind fun e e' sameItem => (agree_accept _).next fun found => ?_
    have more : Same (List.map Expr.bare) (args ++ [e]) (args' ++ [e']) := by
      simp only [Same, List.map_append, List.map_cons, same, sameItem]
    cases found with
    | true => exact .ret (.inl more)
    | false => exact .ret (.inr more)

/-! ## Primary expressions -/

omit h in
theorem agree_leaf (form : ExprKind) (position position' : Position) :
    Agree near (Same Expr.bare) (leaf form position) (leaf form position') :=
  agree_advance.bind fun _ _ _ => agree_node rfl position position'

theorem agree_named (name : String) (position position' : Position) :
    Agree near (Same Expr.bare) (named g name position) (named g name position') := by
  refine agree_get.bind fun c c' alike => agree_advance.bind fun _ _ _ => ?_
  rw [alike.restrictions, alike.kindAfter]
  split
  · exact agree_advance.bind fun _ _ _ => (agree_lambdaBody h).bind fun _ _ same =>
      agree_lambda [name] same position position'
  · refine (agree_membersAhead _).next fun members => ?_
    split
    · exact (agree_entityMembers h).bind fun _ _ same =>
        agree_node (by simp only [ExprKind.bare, MemberInit.bareAll_eq, same]) position position'
    · exact agree_node rfl position position'

theorem agree_braced (position position' : Position) :
    Agree near (Same Expr.bare) (braced g position) (braced g position') := by
  refine (agree_membersAhead _).next fun members => ?_
  cases members with
  | true =>
    exact (agree_entityMembers h).bind fun _ _ same =>
      agree_node (by simp only [ExprKind.bare, MemberInit.bareAll_eq, same]) position position'
  | false =>
    exact h.block.bind fun _ _ same =>
      agree_node (by simp only [ExprKind.bare, same]) position position'

theorem agree_locked (position position' : Position) :
    Agree near (Same Expr.bare) (locked g position) (locked g position') := by
  have body (key key' : Option Expr) (same : key.map Expr.bare = key'.map Expr.bare) :
      Agree near (Same Expr.bare) (do
        let body ← g.block
        node (.lock key body) position) (do
        let body ← g.block
        node (.lock key' body) position') :=
    h.block.bind fun _ _ sameBody =>
      agree_node (by simp only [ExprKind.bare, Expr.bareAny_eq, same, sameBody]) position position'
  refine agree_advance.bind fun _ _ _ => (agree_accept _).next fun found => ?_
  cases found with
  | true =>
    exact (agree_nested h).bind fun key key' same => (agree_consumeMark _ _).bind fun _ _ _ =>
      .ret_bind (body (some key) (some key') (congrArg some same))
  | false => exact .ret_bind (body none none rfl)

theorem agree_primary : Agree near (Same Expr.bare) (primary g) (primary g) := by
  refine agree_peek.bind fun token token' alike => ?_
  have blocked (form : Block → ExprKind) (bare : ∀ b, (form b).bare = form b.bare) :
      Agree near (Same Expr.bare) (do
        let _ ← advance
        let body ← g.block
        node (form body) token.position) (do
        let _ ← advance
        let body ← g.block
        node (form body) token'.position) :=
    agree_advance.bind fun _ _ _ => h.block.bind fun _ _ same =>
      agree_node (by rw [bare, bare, same]) _ _
  dsimp only
  rw [alike.kind]
  split
  · exact agree_leaf _ _ _
  · exact agree_leaf _ _ _
  · exact agree_named h _ _ _
  · exact agree_leaf _ _ _
  · exact agree_leaf _ _ _
  · exact agree_leaf _ _ _
  · exact agree_leaf _ _ _
  · exact agree_leaf _ _ _
  · exact agree_advance.bind fun _ _ _ => (agree_consumeMark _ _).bind fun _ _ _ =>
      (agree_consumeName _).next fun name => agree_node rfl _ _
  · exact (agree_functionDef h).bind fun _ _ same =>
      agree_node (by simp only [ExprKind.bare, same]) _ _
  · exact blocked .async fun _ => rfl
  · exact blocked .safe fun _ => rfl
  · exact blocked .safe fun _ => rfl
  · exact agree_locked h _ _
  · exact agree_advance.bind fun _ _ _ => (agree_header h).bind fun _ _ same =>
      (agree_matchArms h).bind fun _ _ sameArms =>
        agree_node (by simp only [ExprKind.bare, Arm.bareAll_eq, same, sameArms]) _ _
  · exact agree_parenthesized h
  · exact agree_bracketed h
  · exact agree_braced h _ _
  · exact agree_unexpected _

/-! ## Calls, accesses and operators -/

omit h in
theorem agree_access {object object' : Expr} (same : object.bare = object'.bare) :
    Agree near (Same ExprKind.bare) (access object) (access object') := by
  refine agree_advance.bind fun _ _ _ => agree_advance.bind fun token token' alike => ?_
  have fault : ParseError.Alike near
      (.unexpectedToken "member name or tuple index" token.lexeme token.position)
      (.unexpectedToken "member name or tuple index" token'.lexeme token'.position) :=
    alike.lexeme ▸ .unexpectedToken _ _ alike.position
  dsimp only
  rw [alike.kind]
  split
  · split
    · exact .ret (by simp only [Same, ExprKind.bare, same])
    · exact agree_fail fault
  · exact .ret (by simp only [Same, ExprKind.bare, same])
  · exact .ret (by simp only [Same, ExprKind.bare, same, alike.lexeme])
  · exact agree_fail fault

theorem agree_suffix? {object object' : Expr} (same : object.bare = object'.bare) :
    Agree near (Same (Option.map ExprKind.bare)) (suffix? g object) (suffix? g object') := by
  refine agree_peekKind.next fun kind => ?_
  have place : object.isPlace = object'.isPlace := by
    rw [← object.isPlace_bare, same, object'.isPlace_bare]
  split
  · exact (agree_arguments h).bind fun _ _ sameArgs => .ret (by
      simp only [Same, Option.map_some, ExprKind.bare, Expr.bareAll_eq, same, sameArgs])
  · exact (agree_access same).bind fun _ _ sameForm => .ret (congrArg some sameForm)
  · exact agree_advance.bind fun _ _ _ => (agree_nested h).bind fun _ _ sameIndex =>
      (agree_consumeMark _ _).bind fun _ _ _ => .ret (by
        simp only [Same, Option.map_some, ExprKind.bare, same, sameIndex])
  · refine agree_advance.bind fun _ _ _ => (agree_check _).next fun opens => ?_
    cases opens with
    | true =>
      exact (agree_entityMembers h).bind fun _ _ sameMembers => .ret (by
        simp only [Same, Option.map_some, ExprKind.bare, MemberInit.bareAll_eq, same, sameMembers])
    | false =>
      exact (agree_consumeName _).next fun name => .ret (by
        simp only [Same, Option.map_some, ExprKind.bare, same])
  · rw [place]
    split
    · split
      · exact agree_advance.bind fun _ _ _ => .ret (by
          simp only [Same, Option.map_some, ExprKind.bare, same])
      · exact .ret rfl
    · exact .ret rfl

theorem agree_postfixed : Agree near (Same Expr.bare) (postfixed g) (postfixed g) := by
  refine agree_here.bind fun position position' _ => (agree_primary h).bind
    fun object object' same => .repeating (S := Same Expr.bare) ?_ same
  intro object object' same
  refine (agree_suffix? h same).bind fun form form' sameForm => ?_
  cases form with
  | none =>
    obtain rfl := Option.map_eq_none_iff.mp sameForm.symm
    exact .ret (.inr same)
  | some form =>
    obtain ⟨form', rfl, sameParts⟩ := Option.map_eq_some_iff.mp sameForm.symm
    exact (agree_node sameParts.symm position position').bind fun _ _ same => .ret (.inl same)

theorem agree_unaryStep : Agree near (Same Expr.bare) (unaryStep g) (unaryStep g) := by
  refine Agree.descending (agree_peek.bind fun token token' alike => ?_)
  rw [alike.kind]
  split
  · exact agree_advance.bind fun _ _ _ => h.unary.bind fun _ _ same =>
      agree_node (by simp only [ExprKind.bare, same]) _ _
  · refine agree_advance.bind fun _ _ _ => h.unary.bind fun target target' same => ?_
    have place : target.isPlace = target'.isPlace := by
      rw [← target.isPlace_bare, same, target'.isPlace_bare]
    rw [place]
    split
    · exact .fail_bind (.invalid _ alike.position)
    · exact agree_node (by simp only [ExprKind.bare, same]) _ _
  · exact agree_postfixed h

omit h in
theorem agree_typeName : Agree near Eq typeName typeName := by
  refine agree_advance.bind fun token token' alike => ?_
  dsimp only
  rw [alike.kind, alike.lexeme]
  split
  · exact .ret rfl
  · exact agree_fail (.invalid _ alike.position)

omit h in
theorem agree_infixAhead? (least : Nat) :
    Agree near Eq (infixAhead? least) (infixAhead? least) := by
  refine agree_get.bind fun c c' alike => ?_
  rw [alike.current.kind, alike.restrictions]
  split
  · split <;> exact .ret rfl
  · exact .ret rfl

theorem agree_infixRight {left left' : Expr} (same : left.bare = left'.bare) (operator : Infix)
    (precedence : Nat) : Agree near (Same ExprKind.bare) (infixRight g left operator precedence)
      (infixRight g left' operator precedence) := by
  cases operator with
  | typeTest =>
    exact agree_typeName.next fun typeName => .ret (by simp only [Same, ExprKind.bare, same])
  | pipe | binary =>
    exact (h.infixFrom _).bind fun _ _ sameRight => .ret (by
      simp only [Same, ExprKind.bare, same, sameRight])

theorem agree_infixStep (least : Nat) :
    Agree near (Same Expr.bare) (infixStep g least) (infixStep g least) := by
  refine agree_here.bind fun position position' _ => h.unary.bind fun left left' same =>
    .repeating (S := Same Expr.bare) ?_ same
  intro left left' same
  refine (agree_infixAhead? least).next fun ahead => ?_
  split
  · exact agree_advance.bind fun _ _ _ => (agree_infixRight h same _ _).bind fun _ _ sameForm =>
      (agree_node sameForm position position').bind fun _ _ same => .ret (.inl same)
  · exact .ret (.inr same)

theorem agree_conditionalStep :
    Agree near (Same Expr.bare) (conditionalStep g) (conditionalStep g) := by
  refine agree_here.bind fun position position' _ => (h.infixFrom _).bind
    fun condition condition' same => (agree_accept _).next fun found => ?_
  cases found with
  | false => exact .ret same
  | true =>
    exact h.expression.bind fun _ _ sameThen => (agree_consumeMark _ _).bind fun _ _ _ =>
      h.conditional.bind fun _ _ sameElse =>
        agree_node (by simp only [ExprKind.bare, same, sameThen, sameElse]) position position'

theorem agree_assignmentStep :
    Agree near (Same Expr.bare) (assignmentStep g) (assignmentStep g) := by
  refine agree_here.bind fun position position' _ => (agree_groupFollowedBy _).next fun found => ?_
  cases found with
  | true =>
    exact h.pattern.next fun pattern => (agree_consumeMark _ _).bind fun _ _ _ =>
      h.assignment.bind fun _ _ same =>
        agree_node (by simp only [ExprKind.bare, AssignTarget.bare, same]) position position'
  | false =>
    refine h.conditional.bind fun target target' same => agree_peekKind.next fun kind => ?_
    have place : target.isPlace = target'.isPlace := by
      rw [← target.isPlace_bare, same, target'.isPlace_bare]
    split
    · exact .ret same
    · refine agree_advance.bind fun token token' alike => ?_
      rw [place]
      dsimp only
      split
      · exact .fail_bind (.invalid _ alike.position)
      · exact h.assignment.bind fun _ _ sameValue =>
          agree_node (by simp only [ExprKind.bare, AssignTarget.bare, same, sameValue]) position
            position'

end

end ScriptEngine.Parse
