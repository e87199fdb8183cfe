import ScriptEngine.Proofs.Parse.Copied
import ScriptEngine.Proofs.Parse.Finishing

/-!
# Parentheses around an expression

An expression in parentheses is read as the tree that it is without them. The parser looks past the
closing parenthesis to tell a group from parameters and from a pattern, and what is inside copies its
success in front of that parenthesis, two levels deeper.

* `ReadsAs`: all of some tokens are read as an expression, from a depth.
* `expression_alone`: an operand in parentheses in front of the end is an expression.
* `expression_in_parentheses`: the same tree but for positions and numbers.
-/

namespace ScriptEngine.Parse

/-- From a depth an expression is read that takes all of the tokens. -/
def ReadsAs (depth : Nat) (tokens : List Token) (e : Expr) : Prop :=
  ∃ c, (grammarFor (closed tokens).length).expression { Cursor.ofTokens tokens with depth } =
    .ok (e, c) ∧ c.current.kind = .finish

variable {α σ : Type} {g : Grammar} {c c' : Cursor} {e : Expr}

/-! ## In front of the end -/

theorem repeating_of_last {step : σ → Parser (σ ⊕ α)} {state : σ} {a : α}
    (h : step state c = .ok (.inr a, c')) : repeating step state c = .ok (a, c') := by
  show loop step (c.following.length + 2) state c = _
  rw [loop, bind_of_ok h]
  rfl

section

variable (ended : c'.current.kind = .finish)

include ended

theorem suffix?_of_finish (object : Expr) : suffix? g object c' = .ok (none, c') := by
  rw [suffix?, peekKind_bind, ended]
  rfl

theorem postfixed_alone (h : primary g c = .ok (e, c')) : postfixed g c = .ok (e, c') := by
  rw [postfixed, here_bind, bind_of_ok h]
  refine repeating_of_last ?_
  rw [bind_of_ok (suffix?_of_finish ended e)]
  rfl

theorem infixStep_alone (least : Nat) (h : g.unary c = .ok (e, c')) :
    infixStep g least c = .ok (e, c') := by
  rw [infixStep, here_bind, bind_of_ok h]
  refine repeating_of_last ?_
  rw [bind_of_ok (infixAhead?_of_finish ended least)]
  rfl

theorem conditionalStep_alone (h : g.infixFrom Infix.loosest c = .ok (e, c')) :
    conditionalStep g c = .ok (e, c') := by
  have other : c'.current.kind ≠ .mark .question := ended ▸ nofun
  rw [conditionalStep, here_bind, bind_of_ok h, bind_of_ok (accept_of_ne other)]
  rfl

theorem assignmentStep_alone (h : g.conditional c = .ok (e, c'))
    (group : groupFollowedBy (.mark .equal) c = .ok (false, c)) :
    assignmentStep g c = .ok (e, c') := by
  rw [assignmentStep, here_bind, bind_of_ok group]
  show (g.conditional >>= _) c = _
  rw [bind_of_ok h, peekKind_bind, ended]
  rfl

end

/-! ## Between parentheses -/

variable {follower : TokenKind}

theorem groupFollowedBy_of_ne {wanted : TokenKind}
    (follows : followerOfGroup? 1 c.following = some follower) (other : follower ≠ wanted) :
    groupFollowedBy wanted c = .ok (false, c) := by
  have unlike : decide (followerOfGroup? 1 c.following = some wanted) = false :=
    decide_eq_false fun same => other (Option.some.inj (follows.symm.trans same))
  show Except.ok (decide (c.current.kind = _) && decide _, c) = _
  rw [unlike, Bool.and_false]

/-- One expression up to the closing parenthesis is that expression. -/
theorem grouped_one (position : Position) (first : c.next.current.kind ≠ .mark .rightParen)
    (h : g.expression { c.next with restrictions := .none } = .ok (e, c'))
    (closes : c'.current.kind = .mark .rightParen) (more : c'.following ≠ []) :
    ∃ d, grouped g position c = .ok (e, d) ∧ d.tokens = c'.following := by
  let inner : Cursor := { c' with restrictions := c.next.restrictions }
  have taken : advance c = .ok (c.current, c.next) := rfl
  have last : tupleItems g e c' = .ok (([e], false), c') := by
    have other : c'.current.kind ≠ .mark .comma := closes ▸ nofun
    refine repeating_of_last ?_
    rw [bind_of_ok (accept_of_ne other)]
    rfl
  have items : restricting .none (do tupleItems g (← g.expression)) c.next =
      .ok (([e], false), inner) := restricting_of_ok ((bind_of_ok h).trans last)
  have closed : consumeMark .rightParen "')'" inner = .ok (c'.current, inner.next) := by
    have found : check (.mark .rightParen) inner = .ok (true, inner) :=
      congrArg (fun b => Except.ok (b, _)) (decide_eq_true closes)
    rw [consumeMark, consume, bind_of_ok found]
    rfl
  refine ⟨inner.next, ?_, Cursor.tokens_next (c := inner) (closes ▸ mark_ne_finish) more⟩
  rw [grouped, bind_of_ok taken, bind_of_ok (accept_of_ne first)]
  show (restricting .none _ >>= _) c.next = _
  rw [bind_of_ok items]
  show (consumeMark .rightParen "')'" >>= _) inner = _
  rw [bind_of_ok closed]
  rfl

section

variable (opens : c.current.kind = .mark .leftParen)

include opens

theorem primary_grouped (follows : followerOfGroup? 1 c.following = some follower)
    (other : follower ≠ .mark .fatArrow) : primary g c = grouped g c.current.position c := by
  rw [primary, peek_bind, opens]
  show parenthesized g c = _
  rw [parenthesized, here_bind, get_bind, bind_of_ok (groupFollowedBy_of_ne follows other),
    Bool.and_false]
  rfl

theorem unaryStep_alone (room : c.depth < maxDepth) (ended : c'.current.kind = .finish)
    (h : primary g { c with depth := c.depth + 1 } = .ok (e, c')) :
    unaryStep g c = .ok (e, { c' with depth := c'.depth - 1 }) := by
  refine descending_of_ok room ?_
  rw [peek_bind]
  dsimp only
  rw [opens]
  exact postfixed_alone ended h

/-- What parentheses open is an expression, if nothing stands behind it. -/
theorem expression_alone {n : Nat} (room : c.depth + 1 < maxDepth) (ended : c'.current.kind = .finish)
    (follows : followerOfGroup? 1 c.following = some .finish)
    (h : primary (.fuelled n) { c with depth := c.depth + 2 } = .ok (e, c')) :
    ∃ c'', (Grammar.fuelled (n + 5)).expression c = .ok (e, c'') ∧ c''.current.kind = .finish := by
  let inner : Cursor := { c with depth := c.depth + 1 }
  let outer : Cursor := { c' with depth := c'.depth - 1 }
  have unary : (Grammar.fuelled (n + 1)).unary inner = .ok (e, outer) :=
    unaryStep_alone (g := .fuelled n) (c := inner) opens room ended h
  have last : outer.current.kind = .finish := ended
  have infixFrom : (Grammar.fuelled (n + 2)).infixFrom Infix.loosest inner = .ok (e, outer) :=
    infixStep_alone (g := .fuelled (n + 1)) last _ unary
  have conditional : (Grammar.fuelled (n + 3)).conditional inner = .ok (e, outer) :=
    conditionalStep_alone (g := .fuelled (n + 2)) last infixFrom
  have group : groupFollowedBy (.mark .equal) inner = .ok (false, inner) :=
    groupFollowedBy_of_ne (c := inner) follows nofun
  have assignment : (Grammar.fuelled (n + 4)).assignment inner = .ok (e, outer) :=
    assignmentStep_alone (g := .fuelled (n + 3)) last conditional group
  exact ⟨_, descending_of_ok (Nat.lt_of_succ_lt room) assignment, ended⟩

end

/-! ## Tokens and their end -/

theorem kind_finishAfter (tokens : List Token) : (finishAfter tokens).kind = .finish := by
  rw [finishAfter]
  split <;> rfl

variable {tokens : List Token}

theorem closed_of_inside (inside : ∀ t ∈ tokens, t.kind ≠ .finish) :
    closed tokens = tokens ++ [finishAfter tokens] := by
  refine closed_of_not_finish fun ended => ?_
  obtain ⟨last, found, kind⟩ := Option.map_eq_some_iff.mp ended
  exact inside last (List.mem_of_getLast? found) kind

theorem getLast?_append_finish {last : Token} (ended : last.kind = .finish) :
    (tokens ++ [last]).getLast?.map (·.kind) = some .finish := by
  rw [List.getLast?_concat]
  exact congrArg some ended

theorem surroundings_ofTokens (tokens : List Token) :
    (Cursor.ofTokens tokens).restrictions = .none ∧ (Cursor.ofTokens tokens).nextId = 1 := by
  rw [Cursor.ofTokens]
  split <;> exact ⟨rfl, rfl⟩

/-- Tokens that close all that they open do not begin with a closing bracket. -/
theorem Closes.head_ne {t : Token} (h : Closes 0 (t :: tokens)) : t.kind ≠ .mark .rightParen := by
  intro closing
  have none := h 1 [finishAfter []] (Nat.le_refl 1)
  rw [List.cons_append, followerOfGroup?_cons, closing] at none
  cases tokens with
  | nil => cases none
  | cons t tokens => cases none

/-- The same result but for positions from tokens of the same text. -/
theorem Outcome.of_ok {near : Position → Position → Prop} {P : α → α → Prop} {a : α}
    {r r' : Except Stop (α × Cursor)} (h : Outcome near P r r') (run : r = .ok (a, c)) :
    ∃ a' c', r' = .ok (a', c') ∧ P a a' ∧ c.Alike near c' := by
  cases h with
  | ok same alike =>
    cases run
    exact ⟨_, _, rfl, same, alike⟩
  | error => cases run

/-- Less deep, the same tree is read. -/
theorem ReadsAs.eq_of_deeper {depth more : Nat} {e' : Expr} (inside : ∀ t ∈ tokens, t.kind ≠ .finish)
    (h : ReadsAs depth tokens e) (deeper : ReadsAs (depth + more) tokens e') : e' = e := by
  obtain ⟨c, run, -⟩ := h
  obtain ⟨c', run', ended⟩ := deeper
  have front := (Cursor.tokens_ofTokens_closed tokens).trans (closed_of_inside inside)
  have last := kind_finishAfter tokens
  have twin : Cursor.Twin [finishAfter tokens] { Cursor.ofTokens tokens with depth := depth + more }
      { Cursor.ofTokens tokens with depth } :=
    ⟨⟨tokens, finishAfter tokens, front, front, inside, last, _, _, rfl, rfl⟩,
      List.forall_mem_singleton.mpr (.inl last), rfl, rfl, Nat.le_add_right depth more⟩
  obtain ⟨-, d, again, -⟩ := (copied_fuelled (Nat.le_refl _)).expression.to_end twin front run' ended
  exact congrArg Prod.fst (Except.ok.inj (again.symm.trans run))

theorem ofTokens_closed (inside : ∀ t ∈ tokens, t.kind ≠ .finish) :
    Cursor.ofTokens (closed tokens) = Cursor.ofTokens tokens := by
  have ended : (closed tokens).getLast?.map (·.kind) = some .finish := by
    rw [closed_of_inside inside]
    exact getLast?_append_finish (kind_finishAfter tokens)
  rw [Cursor.ofTokens, closed_of_finish ended]
  rfl

/-- It does not matter where the end is. -/
theorem ReadsAs.end_at {depth : Nat} (inside : ∀ t ∈ tokens, t.kind ≠ .finish)
    (h : ReadsAs depth tokens e) (position : Position) :
    ∃ e' c, (grammarFor (closed tokens).length).expression { Cursor.ofTokens
      (tokens ++ [{ finishAfter tokens with position }]) with depth } = .ok (e', c) ∧
        c.current.kind = .finish ∧ e'.bare = e.bare := by
  obtain ⟨c, run, ended⟩ := h
  let last : Token := { finishAfter tokens with position }
  have text : List.Forall₂ SameText (closed tokens) (tokens ++ [last]) := by
    rw [closed_of_inside inside]
    exact List.rel_append (List.forall₂_same.mpr fun _ _ => ⟨rfl, rfl⟩) (.cons ⟨rfl, rfl⟩ .nil)
  have alike := alike_ofTokens text
  rw [ofTokens_closed inside] at alike
  have agree := agrees_fuelled (fuelFor (closed tokens).length) .expression
    { Cursor.ofTokens tokens with depth } { Cursor.ofTokens (tokens ++ [last]) with depth }
    ⟨alike.current, alike.following, alike.restrictions, rfl⟩
  obtain ⟨e', c', run', same, alike'⟩ := agree.of_ok run
  exact ⟨e', c', run', alike'.current.kind.symm.trans ended, same.symm⟩

/-- What is read up to the end is read up to a closing parenthesis. -/
theorem expression_before_closing {depth n : Nat} {closing : Token} {more : List Token}
    (inside : ∀ t ∈ tokens, t.kind ≠ .finish) (h : ReadsAs depth tokens e)
    (closes : ClosesAll (closing :: more)) (front : c.tokens = tokens ++ closing :: more)
    (surroundings : c.restrictions = .none ∧ c.nextId = 1) (deep : c.depth = depth)
    (steps : fuelFor (closed tokens).length ≤ n) :
    Closes 0 tokens ∧ ∃ e' c', (Grammar.fuelled n).expression c = .ok (e', c') ∧
      c'.tokens = closing :: more ∧ e'.bare = e.bare := by
  -- Twins are at the same place, so the end has to be where the parenthesis is.
  obtain ⟨e', c', run, ended, same⟩ := h.end_at inside closing.position
  let last : Token := { finishAfter tokens with position := closing.position }
  have isLast : last.kind = .finish := kind_finishAfter tokens
  have all : (Cursor.ofTokens (tokens ++ [last])).tokens = tokens ++ [last] :=
    Cursor.tokens_ofTokens (getLast?_append_finish isLast)
  have start := surroundings_ofTokens (tokens ++ [last])
  have twin : Cursor.Twin (closing :: more) { Cursor.ofTokens (tokens ++ [last]) with depth } c :=
    ⟨⟨tokens, last, all, front, inside, isLast, closing, more, rfl, rfl⟩, closes,
      start.1.trans surroundings.1.symm, start.2.trans surroundings.2.symm, Nat.le_of_eq deep⟩
  obtain ⟨balanced, c', again, stands⟩ :=
    (copied_fuelled steps).expression.to_end twin all run ended
  exact ⟨balanced, e', c', again, stands, same⟩

theorem ReadsAs.ne_nil {depth : Nat} (h : ReadsAs depth tokens e) : tokens ≠ [] := by
  rintro rfl
  obtain ⟨c, run, -⟩ := h
  exact barren_fuelled _ .expression _ (kind_finishAfter []) _ run

theorem ReadsAs.room {depth : Nat} (h : ReadsAs depth tokens e) : depth < maxDepth := by
  obtain ⟨c, run, -⟩ := h
  have run : descending _ { Cursor.ofTokens tokens with depth } = .ok (e, c) := run
  exact room_of_ok run

/-- A cursor in front of tokens in parentheses, behind which is the end. -/
theorem expression_of_group {n : Nat} {opening closing last : Token}
    (inside : ∀ t ∈ tokens, t.kind ≠ .finish) (opens : opening.kind = .mark .leftParen)
    (closes : closing.kind = .mark .rightParen) (ended : last.kind = .finish)
    (front : c.tokens = opening :: (tokens ++ [closing, last]))
    (surroundings : c.restrictions = .none ∧ c.nextId = 1) (h : ReadsAs (c.depth + 2) tokens e)
    (steps : fuelFor (closed tokens).length ≤ n) :
    ∃ e' c', (Grammar.fuelled (n + 5)).expression c = .ok (e', c') ∧ c'.current.kind = .finish ∧
      e'.bare = e.bare := by
  obtain ⟨first, following⟩ := List.cons.inj front
  let deep : Cursor := { c with depth := c.depth + 2 }
  let within : Cursor := { deep.next with restrictions := .none }
  have isFirst : deep.current.kind = .mark .leftParen := (congrArg Token.kind first).trans opens
  have more : deep.following ≠ [] :=
    following ▸ List.append_ne_nil_of_right_ne_nil _ (List.cons_ne_nil _ _)
  have next : within.tokens = tokens ++ [closing, last] :=
    (Cursor.tokens_next (isFirst ▸ mark_ne_finish) more).trans following
  have behind : ClosesAll [closing, last] :=
    List.forall_mem_cons.mpr ⟨.inr closes, List.forall_mem_singleton.mpr (.inl ended)⟩
  obtain ⟨balanced, e', d, inner, stands, same⟩ := expression_before_closing inside h behind next
    ⟨rfl, (Cursor.nextId_next deep).trans surroundings.2⟩ (Cursor.moves_next deep).depth steps
  obtain ⟨current, follows⟩ := List.cons.inj stands
  -- What is inside closes all that it opens: the first token is no closing parenthesis, and the one
  -- that answers the opening parenthesis is behind all of them.
  have head : deep.next.current.kind ≠ .mark .rightParen := by
    obtain ⟨t, ts, rfl⟩ := List.exists_cons_of_ne_nil h.ne_nil
    rw [(List.cons.inj next).1]
    exact balanced.head_ne
  have group : followerOfGroup? 1 c.following = some .finish := by
    rw [following, balanced 1 _ (Nat.le_refl 1), followerOfGroup?_cons, closes]
    exact congrArg some ended
  obtain ⟨d', read, stands'⟩ := grouped_one c.current.position head inner (current ▸ closes)
    (follows ▸ List.cons_ne_nil _ _)
  have primary := (primary_grouped isFirst group nofun).trans read
  have atEnd : d'.current.kind = .finish := by
    rw [(List.cons.inj (stands'.trans follows)).1, ended]
  have opens' : c.current.kind = .mark .leftParen := isFirst
  obtain ⟨c', result, ended'⟩ :=
    expression_alone opens' (Nat.lt_of_succ_lt h.room) atEnd group primary
  exact ⟨e', c', result, ended', same⟩

/-- Parentheses are transparent. Tokens, the end not among them, that are read as an expression from a
depth, and still are from two levels deeper, are read in parentheses as the same tree but for positions
and numbers. -/
theorem expression_in_parentheses {tokens : List Token} {opening closing : Token} {depth : Nat}
    {e e' : Expr} (inside : ∀ t ∈ tokens, t.kind ≠ .finish)
    (opens : opening.kind = .mark .leftParen) (closes : closing.kind = .mark .rightParen)
    (h : ReadsAs depth tokens e) (deeper : ReadsAs (depth + 2) tokens e') :
    ∃ e'', ReadsAs depth (opening :: tokens ++ [closing]) e'' ∧ e''.bare = e.bare := by
  obtain rfl := h.eq_of_deeper inside deeper
  let whole : List Token := opening :: tokens ++ [closing]
  have inside' : ∀ t ∈ whole, t.kind ≠ .finish := by
    refine List.forall_mem_append.mpr ⟨List.forall_mem_cons.mpr ⟨opens ▸ mark_ne_finish, inside⟩, ?_⟩
    exact List.forall_mem_singleton.mpr (closes ▸ mark_ne_finish)
  have closedWhole : closed whole = opening :: (tokens ++ [closing, finishAfter whole]) := by
    rw [closed_of_inside inside']
    exact congrArg (opening :: ·) (List.append_assoc _ _ _)
  have steps : fuelFor (closed tokens).length ≤ 16 * tokens.length + 59 := by
    rw [closed_of_inside inside, List.length_append, List.length_singleton, fuelFor]
    omega
  have fuel : fuelFor (closed whole).length = 16 * tokens.length + 59 + 5 := by
    rw [closedWhole, fuelFor, List.length_cons, List.length_append, List.length_cons,
      List.length_singleton]
    omega
  obtain ⟨e'', c, read, ended, same⟩ := expression_of_group
    (c := { Cursor.ofTokens whole with depth }) inside opens closes (kind_finishAfter whole)
    ((Cursor.tokens_ofTokens_closed whole).trans closedWhole) (surroundings_ofTokens whole) deeper steps
  refine ⟨e'', ⟨c, ?_, ended⟩, same⟩
  rw [grammarFor, fuel]
  exact read

/-- The tokens of `[true]`. -/
def bracketedTokens : List Token :=
  [⟨.mark .leftBracket, "[", ⟨1, 1, 0⟩, 1⟩, ⟨.keyword .trueWord, "true", ⟨1, 2, 1⟩, 5⟩,
    ⟨.mark .rightBracket, "]", ⟨1, 6, 5⟩, 6⟩]

/-- Their tree. -/
def bracketedTree : Expr :=
  ⟨2, ⟨1, 1, 0⟩, .array [⟨1, ⟨1, 2, 1⟩, .literal (.bool true)⟩]⟩

theorem expression_in_parentheses_bracketed :
    ∃ e, ReadsAs 0 (⟨.mark .leftParen, "(", ⟨1, 1, 0⟩, 1⟩ :: bracketedTokens ++
      [⟨.mark .rightParen, ")", ⟨1, 7, 6⟩, 7⟩]) e ∧ e.bare = bracketedTree.bare := by
  have reads : ReadsAs 0 bracketedTokens bracketedTree := ⟨_, rfl, rfl⟩
  have deeper : ReadsAs 2 bracketedTokens bracketedTree := ⟨_, rfl, rfl⟩
  exact expression_in_parentheses (by decide) rfl rfl reads deeper

end ScriptEngine.Parse
