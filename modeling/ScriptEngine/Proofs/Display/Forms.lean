import Mathlib.Data.List.Forall2
import ScriptEngine.Proofs.Display.Reading

/-!
# Forms of expressions that the parser reads

What each form of the grammar does with tokens that make an expression without infix operators: a
literal, a negated operand, or what stands between parentheses or brackets.

* `followerOf?`, `Balanced`: the parser looks past a group in parentheses to tell it from parameters
  and from a pattern.
* `Ends`: tokens in front of which an expression ends.
* `reads_expression`: an operand alone is an expression.
* `reads_repeating`: items behind one another.
-/

namespace ScriptEngine

namespace Parse

/-! ## Looking past a group -/

/-- What follows the bracket that answers those open so far, by the kinds of the tokens. -/
def followerOf? : Nat → List TokenKind → Option TokenKind
  | _, [] => none
  | opened, kind :: rest =>
    match kind with
    | .mark .leftParen | .mark .leftBracket | .mark .leftBrace => followerOf? (opened + 1) rest
    | .mark .rightParen | .mark .rightBracket | .mark .rightBrace =>
      if opened ≤ 1 then rest.head? else followerOf? (opened - 1) rest
    | .finish => none
    | _ => followerOf? opened rest

theorem followerOfGroup?_eq (opened : Nat) (tokens : List Token) :
    followerOfGroup? opened tokens = followerOf? opened (tokens.map (·.kind)) := by
  induction tokens generalizing opened with
  | nil => rfl
  | cons token tokens ih =>
    obtain ⟨kind, lexeme, position, stop⟩ := token
    cases kind with
    | mark mark => cases mark <;> simp [followerOfGroup?, followerOf?, ih]
    | _ => simp [followerOfGroup?, followerOf?, ih]

/-- Tokens among which each opening bracket is answered by a closing one. -/
def Balanced (kinds : List TokenKind) : Prop :=
  ∀ opened rest, 1 ≤ opened → followerOf? opened (kinds ++ rest) = followerOf? opened rest

variable {kinds kinds' rest : List TokenKind} {kind : TokenKind}

theorem Balanced.nil : Balanced [] :=
  fun _ _ _ => rfl

theorem Balanced.append (h : Balanced kinds) (h' : Balanced kinds') :
    Balanced (kinds ++ kinds') := by
  intro opened rest some
  rw [List.append_assoc, h opened _ some, h' opened rest some]

/-- A token that is no bracket, in front of others. -/
theorem Balanced.cons (plain : ∀ opened rest, followerOf? opened (kind :: rest) =
    followerOf? opened rest) (h : Balanced kinds) : Balanced (kind :: kinds) := by
  intro opened rest some
  rw [List.cons_append, plain, h opened rest some]

theorem Balanced.parens (h : Balanced kinds) :
    Balanced (.mark .leftParen :: (kinds ++ [.mark .rightParen])) := by
  intro opened rest some
  have deep : ¬ opened + 1 ≤ 1 := by omega
  rw [List.cons_append, followerOf?, List.append_assoc, h _ _ (by omega), List.singleton_append,
    followerOf?, if_neg deep, Nat.add_sub_cancel]

theorem Balanced.brackets (h : Balanced kinds) :
    Balanced (.mark .leftBracket :: (kinds ++ [.mark .rightBracket])) := by
  intro opened rest some
  have deep : ¬ opened + 1 ≤ 1 := by omega
  rw [List.cons_append, followerOf?, List.append_assoc, h _ _ (by omega), List.singleton_append,
    followerOf?, if_neg deep, Nat.add_sub_cancel]

/-- If a group in parentheses stands in front, it is followed by what follows. -/
def Grouped (kinds rest : List TokenKind) : Prop :=
  ∀ inside, kinds = .mark .leftParen :: inside → followerOf? 1 inside = rest.head?

theorem Grouped.of_ne (other : kind ≠ .mark .leftParen) : Grouped (kind :: kinds) rest :=
  fun _ same => absurd (List.cons.inj same).1 other

theorem Balanced.grouped (h : Balanced kinds) :
    Grouped (.mark .leftParen :: (kinds ++ .mark .rightParen :: rest)) rest := by
  intro inside same
  obtain rfl := (List.cons.inj same).2
  rw [h 1 _ (Nat.le_refl 1), followerOf?, if_pos (Nat.le_refl 1)]

/-! ## What follows an expression -/

/-- Tokens in front of which an expression ends. -/
def Ends (rest : List TokenKind) : Prop :=
  ∃ kind more, rest = kind :: more ∧ (kind = .mark .comma ∨ kind = .mark .rightParen ∨
    kind = .mark .rightBracket ∨ kind = .mark .rightBrace ∨ kind = .mark .colon ∨
      kind = .mark .semicolon ∨ kind = .finish)

theorem ends_comma : Ends (.mark .comma :: rest) := ⟨_, _, rfl, by simp⟩

theorem ends_paren : Ends (.mark .rightParen :: rest) := ⟨_, _, rfl, by simp⟩

theorem ends_bracket : Ends (.mark .rightBracket :: rest) := ⟨_, _, rfl, by simp⟩

theorem ends_colon : Ends (.mark .colon :: rest) := ⟨_, _, rfl, by simp⟩

theorem ends_finish : Ends [.finish] := ⟨_, _, rfl, by simp⟩

/-- Whether a token goes on with the operand in front of it: as a call, an access or a step, or
behind a name as an arrow or as the brace of members. -/
def extendsOperand : TokenKind → Bool
  | .mark .leftParen | .mark .dot | .mark .leftBracket | .mark .colonColon | .mark .plusPlus
  | .mark .minusMinus | .mark .fatArrow | .mark .leftBrace => true
  | _ => false

/-- Tokens in front of which an operand ends. -/
def OperandEnds (rest : List TokenKind) : Prop :=
  ∃ kind more, rest = kind :: more ∧ extendsOperand kind = false

theorem Ends.operand (ends : Ends rest) : OperandEnds rest := by
  obtain ⟨kind, more, rfl, rfl | rfl | rfl | rfl | rfl | rfl | rfl⟩ := ends
  all_goals exact ⟨_, _, rfl, rfl⟩

variable {under : Restrictions} {depth least : Nat} {P : Expr → Prop} {g : Grammar}

theorem reads_groupFollowedBy {follower : TokenKind} (grouped : Grouped kinds rest)
    (other : rest.head? ≠ some follower) :
    Reads under (groupFollowedBy follower) depth kinds kinds (· = false) := by
  refine reads_get.bind fun c stands => .ret ?_
  by_cases opens : c.current.kind = .mark .leftParen
  · have follows : followerOf? 1 (c.following.map (·.kind)) = rest.head? :=
      grouped _ (by rw [← stands.kinds, opens])
    rw [followerOfGroup?_eq, follows, opens]
    simp [other]
  · simp [opens]

theorem Ends.head?_ne (ends : Ends rest) {mark : Mark}
    (other : mark = .equal ∨ mark = .fatArrow) : rest.head? ≠ some (.mark mark) := by
  obtain ⟨kind, more, rfl, closes⟩ := ends
  intro same
  obtain rfl := Option.some.inj same
  rcases other with rfl | rfl <;> simp at closes

/-! ## Reading an expression without operators -/

/-- No call or access stands where an operand ends. -/
theorem reads_suffix? (object : Expr) (ends : OperandEnds rest) :
    Reads under (suffix? g object) depth rest rest (· = none) := by
  obtain ⟨kind, more, rfl, plain⟩ := ends
  refine reads_peekKind.next ?_
  cases kind with
  | mark mark => cases mark <;> first | exact .ret rfl | cases plain
  | _ => exact .ret rfl

/-- Nor an operator where an expression does. -/
theorem reads_infixAhead? (ends : Ends rest) :
    Reads under (infixAhead? least) depth rest rest (· = none) := by
  refine reads_get.bind fun c stands => ?_
  obtain ⟨kind, more, rfl, rfl | rfl | rfl | rfl | rfl | rfl | rfl⟩ := ends
  all_goals
    rw [stands.current]
    exact .ret rfl

theorem reads_question (ends : Ends rest) :
    Reads under (accept (.mark .question)) depth rest rest (· = false) := by
  obtain ⟨kind, more, rfl, rfl | rfl | rfl | rfl | rfl | rfl | rfl⟩ := ends
  all_goals exact reads_accept_of_ne (by decide)

theorem reads_postfixed (h : Reads under (primary g) depth kinds rest P)
    (ends : OperandEnds rest) : Reads under (postfixed g) depth kinds rest P := by
  refine reads_here.bind fun position _ => h.bind fun object holds =>
    .repeating fun fuel some => ?_
  obtain ⟨fuel, rfl⟩ := Nat.exists_eq_succ_of_ne_zero (Nat.ne_of_gt (Nat.zero_lt_of_lt some))
  exact .last ((reads_suffix? object ends).next (.ret ⟨object, rfl, holds⟩))

theorem reads_infixStep (h : Reads under g.unary depth kinds rest P) (ends : Ends rest) :
    Reads under (infixStep g least) depth kinds rest P := by
  refine reads_here.bind fun position _ => h.bind fun operand holds =>
    .repeating fun fuel some => ?_
  obtain ⟨fuel, rfl⟩ := Nat.exists_eq_succ_of_ne_zero (Nat.ne_of_gt (Nat.zero_lt_of_lt some))
  exact .last ((reads_infixAhead? ends).next (.ret ⟨operand, rfl, holds⟩))

theorem reads_conditionalStep (h : Reads under (g.infixFrom Infix.loosest) depth kinds rest P)
    (ends : Ends rest) : Reads under (conditionalStep g) depth kinds rest P :=
  reads_here.bind fun _ _ => h.bind fun _ holds => (reads_question ends).next (.ret holds)

theorem reads_assignmentStep (h : Reads under g.conditional depth kinds rest P)
    (grouped : Grouped kinds rest) (ends : Ends rest) :
    Reads under (assignmentStep g) depth kinds rest P := by
  refine reads_here.bind fun position _ =>
    (reads_groupFollowedBy grouped (ends.head?_ne (.inl rfl))).next (h.bind fun target holds => ?_)
  obtain ⟨kind, more, rfl, rfl | rfl | rfl | rfl | rfl | rfl | rfl⟩ := ends
  all_goals exact reads_peekKind.next (.ret holds)

/-- An operand without operators before it. -/
theorem reads_unaryStep (h : Reads under (primary g) (depth + 1) (kind :: kinds) rest P)
    (plain : UnaryOp.ofToken? kind = none ∧ UpdateOp.ofToken? kind = none)
    (ends : OperandEnds rest) (room : depth < maxDepth) :
    Reads under (unaryStep g) depth (kind :: kinds) rest P := by
  refine Reads.descending (reads_peek.bind fun token ofKind => ?_) room
  rw [ofKind, plain.1, plain.2]
  exact reads_postfixed h ends

/-- A negated operand. -/
theorem reads_negated (h : Reads under g.unary (depth + 1) (kind :: kinds) rest P)
    (room : depth < maxDepth) : Reads under (unaryStep g) depth (.mark .minus :: kind :: kinds) rest
      fun e => ∃ operand, e.kind = .unary .negate operand ∧ P operand := by
  refine Reads.descending (reads_peek.bind fun token ofKind => ?_) room
  rw [ofKind]
  refine (reads_advance (by decide)).bind fun _ _ => h.bind fun operand holds => ?_
  exact reads_node.imp fun _ same => ⟨operand, same, holds⟩

/-- What is read as operands and infix operators is an expression. -/
theorem reads_expression_of_infix {n : Nat}
    (h : Reads under (readForm n (.infixFrom Infix.loosest)) (depth + 1) kinds rest P)
    (grouped : Grouped kinds rest) (ends : Ends rest) (room : depth < maxDepth) :
    Reads under (readForm (n + 3) .expression) depth kinds rest P := by
  have conditional : Reads under (readForm (n + 1) .conditional) (depth + 1) kinds rest P :=
    reads_conditionalStep h ends
  have assignment : Reads under (readForm (n + 2) .assignment) (depth + 1) kinds rest P :=
    reads_assignmentStep conditional grouped ends
  exact assignment.descending room

/-- An operand alone is an expression. -/
theorem reads_expression {n : Nat} (h : Reads under (readForm n .unary) (depth + 1) kinds rest P)
    (grouped : Grouped kinds rest) (ends : Ends rest) (room : depth < maxDepth) :
    Reads under (readForm (n + 4) .expression) depth kinds rest P :=
  reads_expression_of_infix (n := n + 1) (reads_infixStep h ends) grouped ends room

/-- The value of a token that is a literal. -/
def literalOf? : TokenKind → Option Literal
  | .number value => some (.number value)
  | .string value => some (.string value)
  | .keyword .trueWord => some (.bool true)
  | .keyword .falseWord => some (.bool false)
  | .keyword .nullWord => some .null
  | _ => none

theorem reads_primary_literal {literal : Literal} (found : literalOf? kind = some literal)
    (ends : OperandEnds rest) :
    Reads under (primary g) depth (kind :: rest) rest (·.kind = .literal literal) := by
  obtain ⟨kind', more, rfl, -⟩ := ends
  refine reads_peek.bind fun token ofKind => ?_
  rw [ofKind]
  cases kind with
  | number value =>
    obtain rfl := Option.some.inj found
    exact reads_leaf (fun no => by cases no)
  | string value =>
    obtain rfl := Option.some.inj found
    exact reads_leaf (fun no => by cases no)
  | keyword word =>
    cases word with
    | trueWord | falseWord | nullWord =>
      obtain rfl := Option.some.inj found
      exact reads_leaf (fun no => by cases no)
    | _ => cases found
  | _ => cases found

theorem reads_unary_literal {literal : Literal} (found : literalOf? kind = some literal)
    (ends : OperandEnds rest) (room : depth < maxDepth) :
    Reads under (unaryStep g) depth (kind :: rest) rest (·.kind = .literal literal) := by
  refine reads_unaryStep (reads_primary_literal found ends) ?_ ends room
  cases kind with
  | mark mark => cases found
  | _ => exact ⟨rfl, rfl⟩

/-! ## Brackets -/

/-- Parentheses are not those of parameters, if no arrow is behind them. -/
theorem reads_primary_grouped (around : Grouped (.mark .leftParen :: kinds) rest) (ends : Ends rest)
    (h : ∀ position, Reads .none (grouped g position) depth (.mark .leftParen :: kinds) rest P) :
    Reads .none (primary g) depth (.mark .leftParen :: kinds) rest P := by
  refine reads_peek.bind fun token ofKind => ?_
  rw [ofKind]
  refine reads_here.bind fun position _ => reads_get.bind fun c _ =>
    (reads_groupFollowedBy around (ends.head?_ne (.inr rfl))).next ?_
  rw [Bool.and_false, if_neg (fun no => by cases no)]
  exact h position

/-- Empty parentheses are unit. -/
theorem reads_grouped_unit {position : Position} (ends : Ends rest) :
    Reads .none (grouped g position) depth (.mark .leftParen :: .mark .rightParen :: rest) rest
      (·.kind = .literal .unit) := by
  obtain ⟨kind, more, rfl, -⟩ := ends
  exact (reads_advance (by decide)).bind fun _ _ => (reads_accept (by decide)).next reads_node

/-- Two or more items between parentheses are a tuple. -/
theorem reads_grouped_tuple {position : Position} {I : List Expr → Prop}
    (other : kind ≠ .mark .rightParen)
    (items : Reads .none (do tupleItems g (← g.expression)) depth (kind :: kinds)
      (.mark .rightParen :: rest) fun found => found.2 = false ∧ 2 ≤ found.1.length ∧ I found.1) (ends : Ends rest) :
    Reads .none (grouped g position) depth (.mark .leftParen :: kind :: kinds) rest
      fun e => ∃ es, e.kind = .tuple es ∧ I es := by
  obtain ⟨kind', more, rfl, -⟩ := ends
  refine (reads_advance (by decide)).bind fun _ _ => (reads_accept_of_ne other).next
    (items.restricting.bind fun found ⟨last, several, holds⟩ => reads_consumeMark.bind fun _ _ => ?_)
  obtain ⟨es, trailing⟩ := found
  dsimp only at last several holds ⊢
  split
  · simp at several
  · exact reads_node.imp fun e same => ⟨es, same, holds⟩

/-- What stands between brackets makes the expression. -/
theorem reads_primary_bracketed {Q : ExprKind → Prop} (ends : Ends rest)
    (h : Reads .none (bracketItems g) depth (kind :: kinds) (.mark .rightBracket :: rest) Q) :
    Reads .none (primary g) depth (.mark .leftBracket :: kind :: kinds) rest (Q ·.kind) := by
  obtain ⟨kind', more, rfl, -⟩ := ends
  refine reads_peek.bind fun token ofKind => ?_
  rw [ofKind]
  refine (reads_advance (by decide)).bind fun start _ => h.restricting.bind fun form holds =>
    reads_consumeMark.bind fun _ _ => reads_node.imp ?_
  rintro e rfl
  exact holds

theorem reads_bracketItems_empty :
    Reads .none (bracketItems g) depth (.mark .rightBracket :: rest) (.mark .rightBracket :: rest)
      (· = .array []) :=
  reads_check_self.next (.ret rfl)

theorem reads_bracketItems_colon :
    Reads .none (bracketItems g) depth (.mark .colon :: .mark .rightBracket :: rest)
      (.mark .rightBracket :: rest) (· = .map []) := by
  refine (reads_check_of_ne (by decide)).next (reads_get.bind fun c stands => ?_)
  rw [stands.current, stands.kindAfter]
  exact (reads_advance (by decide)).bind fun _ _ => .ret rfl

/-- An expression that stands first between brackets. -/
theorem reads_bracketItems_first {Q : ExprKind → Prop} (ne_bracket : kind ≠ .mark .rightBracket)
    (ne_colon : kind ≠ .mark .colon)
    (first : Reads .none g.expression depth (kind :: kinds) kinds' P)
    (others : ∀ e, P e → Reads .none (do
      if ← accept (.mark .colon) then
        let value ← g.expression
        return .map (← mapEntries g (e, value))
      else return .array (← arrayItems g e)) depth kinds' rest Q) :
    Reads .none (bracketItems g) depth (kind :: kinds) rest Q := by
  refine (reads_check_of_ne ne_bracket).next (reads_get.bind fun c stands => ?_)
  rw [stands.current, decide_eq_false ne_colon]
  exact first.bind others

/-- Items between brackets are an array. -/
theorem reads_bracketItems_array {I : List Expr → Prop} (ne_bracket : kind ≠ .mark .rightBracket)
    (ne_colon : kind ≠ .mark .colon)
    (first : Reads .none g.expression depth (kind :: kinds) kinds' P)
    (noColon : Reads .none (accept (.mark .colon)) depth kinds' kinds' (· = false))
    (others : ∀ e, P e → Reads .none (arrayItems g e) depth kinds' rest I) :
    Reads .none (bracketItems g) depth (kind :: kinds) rest
      fun form => ∃ es, form = .array es ∧ I es :=
  reads_bracketItems_first ne_bracket ne_colon first fun e holds =>
    noColon.next ((others e holds).bind fun es all => .ret ⟨es, rfl, all⟩)

/-- A key with a colon behind it begins a map. -/
theorem reads_bracketItems_map {Q : Expr → Prop} {I : List (Expr × Expr) → Prop}
    {kind' : TokenKind} {mid : List TokenKind} (ne_bracket : kind ≠ .mark .rightBracket)
    (ne_colon : kind ≠ .mark .colon)
    (key : Reads .none g.expression depth (kind :: kinds) (.mark .colon :: kind' :: kinds') P)
    (value : Reads .none g.expression depth (kind' :: kinds') mid Q)
    (others : ∀ k v, P k → Q v → Reads .none (mapEntries g (k, v)) depth mid rest I) :
    Reads .none (bracketItems g) depth (kind :: kinds) rest
      fun form => ∃ rows, form = .map rows ∧ I rows :=
  reads_bracketItems_first ne_bracket ne_colon key fun k holds =>
    (reads_accept (by decide)).next (value.bind fun v holds' =>
      (others k v holds holds').bind fun rows all => .ret ⟨rows, rfl, all⟩)

/-! ## Items behind one another -/

section

variable {ι ε α : Type} {step : List ε → Parser (List ε ⊕ α)} {kindsOf : ι → List TokenKind}
  {W : ι → ε → Prop} {finished : List ε → α} {close : Mark} {fuel : Nat}

/-- Items behind others, each with a comma in front. -/
def behind (kindsOf : ι → List TokenKind) (is : List ι) : List TokenKind :=
  is.flatMap fun i => .mark .comma :: kindsOf i

theorem length_le_behind (kindsOf : ι → List TokenKind) (is : List ι) :
    is.length ≤ (behind kindsOf is).length := by
  induction is with
  | nil => exact Nat.le_refl 0
  | cons i is ih =>
    rw [behind, List.flatMap_cons, ← behind, List.length_append, List.length_cons, List.length_cons]
    omega

theorem ends_behind (closes : Ends (.mark close :: rest)) (kindsOf : ι → List TokenKind)
    (is : List ι) : Ends (behind kindsOf is ++ .mark close :: rest) := by
  cases is with
  | nil => exact closes
  | cons i is => exact ends_comma

/-- Rounds of a repetition that read an item each, and one that finds the closing mark. -/
theorem reads_rounds (closes : Ends (.mark close :: rest)) {is : List ι}
    (again : ∀ i ∈ is, ∀ found rest, Ends rest →
      Reads .none (step found) depth (.mark .comma :: (kindsOf i ++ rest)) rest fun next =>
        ∃ found', next = .inl found' ∧ ∃ e, found' = found ++ [e] ∧ W i e)
    (last : ∀ found, Reads .none (step found) depth (.mark close :: rest) (.mark close :: rest)
      (· = .inr (finished found)))
    (found : List ε) (rounds : is.length < fuel) :
    Reads .none (loop step fuel found) depth (behind kindsOf is ++ .mark close :: rest)
      (.mark close :: rest) fun value => ∃ es, value = finished (found ++ es) ∧
        List.Forall₂ W is es := by
  induction is generalizing found fuel with
  | nil =>
    obtain ⟨fuel, rfl⟩ := Nat.exists_eq_succ_of_ne_zero (Nat.ne_of_gt rounds)
    refine Reads.last ((last found).imp ?_)
    rintro _ rfl
    exact ⟨_, rfl, [], by rw [List.append_nil], .nil⟩
  | cons i is ih =>
    obtain ⟨fuel, rfl⟩ := Nat.exists_eq_succ_of_ne_zero (Nat.ne_of_gt (Nat.zero_lt_of_lt rounds))
    rw [behind, List.flatMap_cons, ← behind, List.append_assoc, List.cons_append]
    refine Reads.again _ (again i List.mem_cons_self found _ (ends_behind closes kindsOf is)) ?_
    rintro _ ⟨e, rfl, written⟩
    have others := ih (fun j mem => again j (List.mem_cons_of_mem i mem)) (found ++ [e])
      (Nat.lt_of_succ_lt_succ rounds)
    refine others.imp ?_
    rintro value ⟨es, rfl, writtenAll⟩
    exact ⟨e :: es, by rw [List.append_assoc, List.singleton_append], .cons written writtenAll⟩

theorem reads_repeating (finished : List ε → α) (closes : Ends (.mark close :: rest)) {is : List ι}
    (again : ∀ i ∈ is, ∀ found rest, Ends rest →
      Reads .none (step found) depth (.mark .comma :: (kindsOf i ++ rest)) rest fun next =>
        ∃ found', next = .inl found' ∧ ∃ e, found' = found ++ [e] ∧ W i e)
    (last : ∀ found, Reads .none (step found) depth (.mark close :: rest) (.mark close :: rest)
      (· = .inr (finished found)))
    (found : List ε) :
    Reads .none (repeating step found) depth (behind kindsOf is ++ .mark close :: rest)
      (.mark close :: rest) fun value => ∃ es, value = finished (found ++ es) ∧
        List.Forall₂ W is es := by
  refine .repeating fun fuel enough => reads_rounds closes again last found ?_
  have least := length_le_behind kindsOf is
  rw [List.length_append] at enough
  omega

end

end Parse

end ScriptEngine
