import Mathlib.Data.List.Forall2
import Mathlib.Data.Sum.Order
import ScriptEngine.Proofs.Display.Forms
import ScriptEngine.Proofs.Tree.Bare

/-!
# Parsers that agree on alike tokens

Two lists of tokens are alike if they agree in kinds and lexemes, and their positions are related in
some way that no parser knows of. `Agree` says that two parsers do the same with such tokens: both
give a result, and the results are related, or both fail with errors that differ in nothing but
positions, which are related again. A parser made of others is put together by `Agree.bind`.

* `Token.Alike`, `Cursor.Alike`, `ParseError.Alike`: equal but for the positions.
* `Agree`: related results on alike tokens.
* `Agree.loop`: a repeated step.
-/

namespace ScriptEngine

variable (near : Position → Position → Prop)

/-- Tokens of one kind and lexeme, at related positions. -/
structure Token.Alike (t t' : Token) : Prop where
  kind : t.kind = t'.kind
  lexeme : t.lexeme = t'.lexeme
  position : near t.position t'.position

/-- The same error at related positions. -/
inductive ParseError.Alike : ParseError → ParseError → Prop
  | unexpectedToken (expected found : String) {p p' : Position} : near p p' →
    Alike (.unexpectedToken expected found p) (.unexpectedToken expected found p')
  | unexpectedEnd (expected : String) {p p' : Position} : near p p' →
    Alike (.unexpectedEnd expected p) (.unexpectedEnd expected p')
  | invalid (fault : SyntaxFault) {p p' : Position} : near p p' →
    Alike (.invalid fault p) (.invalid fault p')

namespace Parse

/-- Parsers stop for the same reason. -/
inductive Stop.Alike : Stop → Stop → Prop
  | fault {error error' : ParseError} : error.Alike near error' →
    Alike (.fault error) (.fault error')
  | unfinished : Alike .unfinished .unfinished

/-- Cursors in front of alike tokens, in the same surroundings. -/
structure Cursor.Alike (c c' : Cursor) : Prop where
  current : c.current.Alike near c'.current
  following : List.Forall₂ (Token.Alike near) c.following c'.following
  restrictions : c.restrictions = c'.restrictions
  depth : c.depth = c'.depth

variable {α β σ : Type}

/-- Related results in front of alike tokens, or the same error. -/
inductive Outcome (P : α → α → Prop) :
    Except Stop (α × Cursor) → Except Stop (α × Cursor) → Prop
  | ok {a a' : α} {c c' : Cursor} : P a a' → c.Alike near c' → Outcome P (.ok (a, c)) (.ok (a', c'))
  | error {s s' : Stop} : s.Alike near s' → Outcome P (.error s) (.error s')

/-- Equal, as far as a view shows. -/
abbrev Same {γ : Type} (view : α → γ) (a a' : α) : Prop := view a = view a'

/-- On alike tokens two parsers give related results or fail with the same error. -/
def Agree (P : α → α → Prop) (p p' : Parser α) : Prop :=
  ∀ c c' : Cursor, c.Alike near c' → Outcome near P (p c) (p' c')

variable {near} {P : α → α → Prop} {Q : β → β → Prop} {p p' : Parser α} {f f' : α → Parser β}
  {c c' : Cursor}

/-! ## Parts -/

theorem Agree.bind (h : Agree near P p p') (h' : ∀ a a', P a a' → Agree near Q (f a) (f' a')) :
    Agree near Q (p >>= f) (p' >>= f') := by
  intro c c' alike
  have first := h c c' alike
  simp only [Bind.bind, StateT.bind]
  generalize p c = read, p' c' = read' at first ⊢
  cases first with
  | ok related alike' => exact h' _ _ related _ _ alike'
  | error stops => exact .error stops

/-- A first parser whose results are equal. -/
theorem Agree.next (h : Agree near Eq p p') (h' : ∀ a, Agree near Q (f a) (f' a)) :
    Agree near Q (p >>= f) (p' >>= f') :=
  h.bind fun a _ same => same ▸ h' a

theorem Agree.ret {a a' : α} (related : P a a') : Agree near P (pure a) (pure a') :=
  fun _ _ alike => .ok related alike

theorem Agree.ret_bind {a a' : α} (h : Agree near Q (f a) (f' a')) :
    Agree near Q (pure a >>= f) (pure a' >>= f') :=
  h

theorem agree_get : Agree near (Cursor.Alike near) get get :=
  fun _ _ alike => .ok alike alike

theorem agree_modify {g g' : Cursor → Cursor}
    (h : ∀ c c', Cursor.Alike near c c' → Cursor.Alike near (g c) (g' c')) :
    Agree near Eq (modify g) (modify g') :=
  fun c c' alike => .ok rfl (h c c' alike)

theorem agree_fail {error error' : ParseError} (h : error.Alike near error') :
    Agree near P (fail error) (fail error') :=
  fun _ _ _ => .error (.fault h)

theorem Agree.fail_bind {error error' : ParseError} (h : error.Alike near error') :
    Agree near Q ((fail error : Parser α) >>= f) ((fail error' : Parser α) >>= f') :=
  fun _ _ _ => .error (.fault h)

theorem agree_unfinished : Agree near P (throw .unfinished) (throw .unfinished) :=
  fun _ _ _ => .error .unfinished

/-! ## Looking at tokens -/

theorem agree_peek : Agree near (Token.Alike near) peek peek :=
  agree_get.bind fun _ _ alike => .ret alike.current

theorem agree_peekKind : Agree near Eq peekKind peekKind :=
  agree_get.bind fun _ _ alike => .ret alike.current.kind

theorem agree_here : Agree near near here here :=
  agree_get.bind fun _ _ alike => .ret alike.current.position

theorem agree_check (kind : TokenKind) : Agree near Eq (check kind) (check kind) :=
  agree_get.bind fun _ _ alike => .ret (by rw [alike.current.kind])

theorem agree_atFinish : Agree near Eq atFinish atFinish :=
  agree_check .finish

theorem Cursor.Alike.kindAfter (h : c.Alike near c') (n : Nat) :
    c.kindAfter n = c'.kindAfter n := by
  rw [Cursor.kindAfter, Cursor.kindAfter]
  by_cases inside : n < c.following.length
  · have inside' : n < c'.following.length := h.following.length_eq ▸ inside
    rw [List.getElem?_eq_getElem inside, List.getElem?_eq_getElem inside']
    exact (h.following.get inside inside').kind
  · have outside : c'.following.length ≤ n := h.following.length_eq ▸ Nat.le_of_not_lt inside
    rw [List.getElem?_eq_none (Nat.le_of_not_lt inside), List.getElem?_eq_none outside]

theorem Cursor.Alike.next (h : c.Alike near c') : c.next.Alike near c'.next := by
  obtain ⟨current, following, restrictions, depth, id⟩ := c
  obtain ⟨current', following', restrictions', depth', id'⟩ := c'
  rw [Cursor.next, Cursor.next, h.current.kind]
  split
  · exact h
  · cases following with
    | nil =>
      cases h.following
      exact h
    | cons token following =>
      cases h.following with
      | cons alike rest => exact ⟨alike, rest, h.restrictions, h.depth⟩

theorem agree_next : Agree near Eq (modify Cursor.next) (modify Cursor.next) :=
  agree_modify fun _ _ => Cursor.Alike.next

theorem agree_advance : Agree near (Token.Alike near) advance advance :=
  agree_peek.bind fun _ _ alike => agree_next.bind fun _ _ _ => .ret alike

theorem agree_accept (kind : TokenKind) : Agree near Eq (accept kind) (accept kind) := by
  refine (agree_check kind).next fun found => ?_
  cases found with
  | true => exact agree_next.bind fun _ _ _ => .ret rfl
  | false => exact .ret rfl

theorem unexpectedAt_alike {t t' : Token} (h : t.Alike near t') (expected : String) :
    (unexpectedAt t expected).Alike near (unexpectedAt t' expected) := by
  rw [unexpectedAt, unexpectedAt, h.kind, h.lexeme]
  split
  · exact .unexpectedEnd expected h.position
  · exact .unexpectedToken expected _ h.position

theorem agree_unexpected (expected : String) :
    Agree near P (unexpected expected) (unexpected expected) :=
  agree_peek.bind fun _ _ alike => agree_fail (unexpectedAt_alike alike expected)

theorem Agree.unexpected_bind (expected : String) :
    Agree near Q ((unexpected expected : Parser α) >>= f)
      ((unexpected expected : Parser α) >>= f') :=
  (agree_unexpected (P := fun _ _ => False) expected).bind fun _ _ none => none.elim

theorem agree_consume (kind : TokenKind) (expected : String) :
    Agree near (Token.Alike near) (consume kind expected) (consume kind expected) := by
  refine (agree_check kind).next fun found => ?_
  cases found with
  | true => exact agree_advance
  | false => exact agree_unexpected expected

theorem agree_consumeMark (mark : Mark) (expected : String) :
    Agree near (Token.Alike near) (consumeMark mark expected) (consumeMark mark expected) :=
  agree_consume (.mark mark) expected

theorem agree_consumeName (expected : String) :
    Agree near Eq (consumeName expected) (consumeName expected) := by
  refine agree_peekKind.next fun kind => ?_
  cases kind with
  | name name => exact agree_advance.bind fun _ _ _ => .ret rfl
  | _ => exact agree_unexpected expected

/-! ## Surroundings -/

theorem agree_restrict {restrictions restrictions' : Restrictions}
    (same : restrictions = restrictions') :
    Agree near Eq (modify ({ · with restrictions }))
      (modify ({ · with restrictions := restrictions' })) :=
  agree_modify fun _ _ alike => ⟨alike.current, alike.following, same, alike.depth⟩

theorem Agree.restricting (restrictions : Restrictions) (h : Agree near P p p') :
    Agree near P (restricting restrictions p) (restricting restrictions p') :=
  agree_get.bind fun _ _ alike => (agree_restrict rfl).bind fun _ _ _ =>
    h.bind fun _ _ related => (agree_restrict alike.restrictions).bind fun _ _ _ => .ret related

theorem agree_depth (g : Nat → Nat) :
    Agree near Eq (modify fun c => { c with depth := g c.depth })
      (modify fun c => { c with depth := g c.depth }) :=
  agree_modify fun _ _ alike =>
    ⟨alike.current, alike.following, alike.restrictions, congrArg g alike.depth⟩

theorem Agree.descending (h : Agree near P p p') :
    Agree near P (descending p) (descending p') := by
  have deeper : Agree near P (do
      modify fun c => { c with depth := c.depth + 1 }
      let value ← p
      modify fun c => { c with depth := c.depth - 1 }
      return value) (do
      modify fun c => { c with depth := c.depth + 1 }
      let value ← p'
      modify fun c => { c with depth := c.depth - 1 }
      return value) :=
    (agree_depth (· + 1)).bind fun _ _ _ => h.bind fun _ _ related =>
      (agree_depth (· - 1)).bind fun _ _ _ => .ret related
  refine agree_get.bind fun c c' alike => ?_
  rw [alike.depth]
  split
  · exact agree_here.bind fun _ _ at_ => .fail_bind (.invalid _ at_)
  · exact deeper

/-- A node is made of the parts it is given. -/
theorem agree_node {form form' : ExprKind} (same : form.bare = form'.bare)
    (position position' : Position) :
    Agree near (Same Expr.bare) (node form position) (node form' position') := by
  intro c c' alike
  refine .ok ?_ ⟨alike.current, alike.following, alike.restrictions, alike.depth⟩
  simp only [Same, Expr.bare, same]

/-! ## Looking ahead -/

theorem kinds_eq {tokens tokens' : List Token}
    (h : List.Forall₂ (Token.Alike near) tokens tokens') :
    tokens.map (·.kind) = tokens'.map (·.kind) := by
  induction h with
  | nil => rfl
  | cons alike _ ih => rw [List.map_cons, List.map_cons, alike.kind, ih]

theorem agree_groupFollowedBy (follower : TokenKind) :
    Agree near Eq (groupFollowedBy follower) (groupFollowedBy follower) :=
  agree_get.bind fun _ _ alike => .ret (by
    rw [alike.current.kind, followerOfGroup?_eq, followerOfGroup?_eq, kinds_eq alike.following])

theorem agree_membersAhead (allowEmpty : Bool) :
    Agree near Eq (membersAhead allowEmpty) (membersAhead allowEmpty) := by
  refine agree_get.bind fun c c' alike => ?_
  rw [alike.current.kind, alike.kindAfter, alike.kindAfter]
  split
  · split <;> exact .ret rfl
  · exact .ret rfl

/-! ## Repetition -/

theorem Agree.loop {S : σ → σ → Prop} {step step' : σ → Parser (σ ⊕ α)}
    (h : ∀ s s', S s s' → Agree near (Sum.LiftRel S P) (step s) (step' s')) (fuel : Nat) {s s' : σ}
    (related : S s s') : Agree near P (loop step fuel s) (loop step' fuel s') := by
  induction fuel generalizing s s' with
  | zero => exact agree_unfinished
  | succ fuel ih =>
    refine (h s s' related).bind fun next next' follows => ?_
    cases follows with
    | inl related => exact ih related
    | inr related => exact .ret related

theorem Agree.repeating {S : σ → σ → Prop} {step step' : σ → Parser (σ ⊕ α)} {s s' : σ}
    (h : ∀ s s', S s s' → Agree near (Sum.LiftRel S P) (step s) (step' s')) (related : S s s') :
    Agree near P (repeating step s) (repeating step' s') := by
  refine agree_get.bind fun c c' alike => ?_
  rw [alike.following.length_eq]
  exact .loop h _ related

end Parse

end ScriptEngine
