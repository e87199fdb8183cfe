import ScriptEngine.Parse.Statement

/-!
# Parsers move on

A parser that succeeds has moved on, past tokens of which none is the end, and leaves the
surroundings as it found them; one that fails has met a fault at a token. So nothing is read for
ever: whatever is repeated takes a token each time, and there are only so many of them.

* `Cursor.Moves`: from one place in the tokens to a later one, in the same surroundings.
* `Result`: a value behind such a move, or a fault at a place.
* `Takes`: in front of so many tokens a parser comes to a result, and takes a token for it.
* `Takes.next`, `Takes.after`: parsers one after the other; behind a token there are fewer of them.
* `Takes.repeating`: a step that is repeated and takes a token each time but the last.
-/

namespace ScriptEngine.Parse

/-- The tokens from the cursor on. -/
def Cursor.tokens (c : Cursor) : List Token := c.current :: c.following

/-- One cursor comes to another one past tokens of which none is the end, and in the same
surroundings. -/
structure Cursor.Moves (c c' : Cursor) : Prop where
  taken : ∃ taken, c.tokens = taken ++ c'.tokens ∧ ∀ t ∈ taken, t.kind ≠ .finish
  restrictions : c'.restrictions = c.restrictions
  depth : c'.depth = c.depth

/-- A cursor stands in front of at most `k` tokens, among which is the end. They are at places that
are as `place` says. -/
structure Cursor.Within (place : Position → Prop) (k : Nat) (c : Cursor) : Prop where
  places : ∀ t ∈ c.tokens, place t.position
  ended : ∃ t ∈ c.tokens, t.kind = .finish
  few : c.tokens.length ≤ k

namespace Cursor

variable {place : Position → Prop} {k : Nat} {c c' c'' : Cursor}

/-! ## Moves -/

theorem Moves.refl (c : Cursor) : c.Moves c :=
  ⟨⟨[], rfl, List.forall_mem_nil _⟩, rfl, rfl⟩

theorem Moves.trans (h : c.Moves c') (h' : c'.Moves c'') : c.Moves c'' := by
  obtain ⟨first, same, inside⟩ := h.taken
  obtain ⟨second, same', inside'⟩ := h'.taken
  refine ⟨⟨first ++ second, ?_, List.forall_mem_append.mpr ⟨inside, inside'⟩⟩,
    h'.restrictions.trans h.restrictions, h'.depth.trans h.depth⟩
  rw [same, same', List.append_assoc]

theorem Moves.length_le (h : c.Moves c') : c'.tokens.length ≤ c.tokens.length := by
  obtain ⟨taken, same, -⟩ := h.taken
  rw [same, List.length_append]
  exact Nat.le_add_left _ _

/-- The last token is never passed. -/
theorem moves_next (c : Cursor) : c.Moves c.next := by
  rw [next]
  split
  · exact .refl c
  · next inside =>
    split
    · exact .refl c
    · next current following same =>
      refine ⟨⟨[c.current], ?_, List.forall_mem_singleton.mpr inside⟩, rfl, rfl⟩
      rw [tokens, same]
      rfl

/-- A move within tokens stays within them. -/
theorem Within.moves (h : c.Within place k) (moves : c.Moves c') : c'.Within place k := by
  obtain ⟨taken, same, inside⟩ := moves.taken
  obtain ⟨t, mem, kind⟩ := h.ended
  refine ⟨fun t mem => h.places t ?_, ⟨t, ?_, kind⟩, Nat.le_trans moves.length_le h.few⟩
  · rw [same]
    exact List.mem_append_right taken mem
  · rw [same] at mem
    rcases List.mem_append.mp mem with passed | ahead
    · exact absurd kind (inside t passed)
    · exact ahead

theorem Within.mono (h : c.Within place k) {l : Nat} (le : k ≤ l) : c.Within place l :=
  ⟨h.places, h.ended, Nat.le_trans h.few le⟩

/-- Behind a token there are fewer of them. -/
theorem Within.fewer (h : c.Within place (k + 1)) (moves : c.Moves c')
    (fewer : c'.tokens.length < c.tokens.length) : c'.Within place k := by
  have within := h.moves moves
  have few := h.few
  exact ⟨within.places, within.ended, by omega⟩

theorem Within.here (h : c.Within place k) : place c.current.position :=
  h.places c.current List.mem_cons_self

/-- A token that is not the end has another one behind it. -/
theorem Within.lt_next (h : c.Within place k) (inside : c.current.kind ≠ .finish) :
    c.next.tokens.length < c.tokens.length := by
  obtain ⟨t, mem, kind⟩ := h.ended
  rw [next, if_neg inside]
  rcases List.mem_cons.mp mem with rfl | mem
  · exact absurd kind inside
  · split
    · next none =>
      rw [none] at mem
      exact absurd mem List.not_mem_nil
    · next current following same =>
      rw [tokens, tokens, same]
      exact Nat.lt_succ_self _

end Cursor

/-! ## Results -/

variable {α β σ : Type}

/-- What a parser comes to in front of a cursor: a value, behind a token if `taken` says so, or a
fault at a place. -/
inductive Result (place : Position → Prop) (taken : α → Prop) (c : Cursor) :
    Except Stop (α × Cursor) → Prop
  | value {a : α} {c' : Cursor} : c.Moves c' → (taken a → c'.tokens.length < c.tokens.length) →
    Result place taken c (.ok (a, c'))
  | fault {error : ParseError} : place error.position → Result place taken c (.error (.fault error))

/-- Whatever the value, a token has been taken for it. -/
def Surely (_ : α) : Prop := True

/-- Whatever the value, maybe no token has been taken for it. -/
def Maybe (_ : α) : Prop := False

/-- Another round takes a token, the last one may take none. -/
def Again (r : σ ⊕ α) : Prop := r.isLeft = true

/-- A parser comes to a result from a cursor. -/
def TakesAt (place : Position → Prop) (c : Cursor) (taken : α → Prop) (p : Parser α) : Prop :=
  Result place taken c (p c)

/-- A parser comes to a result in front of at most `k` tokens. -/
def Takes (place : Position → Prop) (k : Nat) (taken : α → Prop) (p : Parser α) : Prop :=
  ∀ c, c.Within place k → TakesAt place c taken p

variable {place : Position → Prop} {k : Nat} {c : Cursor} {taken : α → Prop} {taken' : β → Prop}
  {p : Parser α} {f : α → Parser β}

/-! ## Parsers one after the other -/

/-- Behind the value of one parser another one comes to a result. -/
theorem TakesAt.bind (h : TakesAt place c taken p)
    (h' : ∀ a c', p c = .ok (a, c') → c.Moves c' →
      (taken a → c'.tokens.length < c.tokens.length) →
      Result place (fun b => taken' b ∧ ¬ c'.tokens.length < c.tokens.length) c' (f a c')) :
    TakesAt place c taken' (p >>= f) := by
  simp only [TakesAt, Bind.bind, StateT.bind] at h ⊢
  generalize p c = read at h h' ⊢
  cases h with
  | fault at_ => exact .fault at_
  | @value a c' moves fewer =>
    have second := h' a c' rfl moves fewer
    change Result place taken' c (f a c')
    generalize f a c' = read at second ⊢
    cases second with
    | fault at_ => exact .fault at_
    | @value b c'' moves' fewer' =>
      refine .value (moves.trans moves') fun takes => ?_
      by_cases already : c'.tokens.length < c.tokens.length
      · exact Nat.lt_of_le_of_lt moves'.length_le already
      · exact Nat.lt_of_lt_of_le (fewer' ⟨takes, already⟩) moves.length_le

theorem Result.imp {taken'' : α → Prop} {read : Except Stop (α × Cursor)}
    (h : Result place taken c read) (weaker : ∀ a, taken'' a → taken a) :
    Result place taken'' c read := by
  cases h with
  | fault at_ => exact .fault at_
  | value moves fewer => exact .value moves fun takes => fewer (weaker _ takes)

theorem TakesAt.next (within : c.Within place k) (h : TakesAt place c taken p)
    (h' : ∀ a, Takes place k taken' (f a)) : TakesAt place c taken' (p >>= f) :=
  h.bind fun a c' _ moves _ => (h' a c' (within.moves moves)).imp fun _ takes => takes.1

theorem Takes.next (h : Takes place k taken p) (h' : ∀ a, Takes place k taken' (f a)) :
    Takes place k taken' (p >>= f) :=
  fun c within => (h c within).next within h'

/-- Behind a token that has been taken there are fewer of them, and the rest need not take one. -/
theorem TakesAt.cases (within : c.Within place (k + 1)) (h : TakesAt place c taken p)
    (took : ∀ a, taken a → Takes place k Maybe (f a))
    (none : ∀ a, ¬ taken a → Takes place (k + 1) taken' (f a)) :
    TakesAt place c taken' (p >>= f) := by
  refine h.bind fun a c' _ moves fewer => ?_
  by_cases one : taken a
  · exact (took a one c' (within.fewer moves (fewer one))).imp fun _ takes => takes.2 (fewer one)
  · exact (none a one c' (within.moves moves)).imp fun _ takes => takes.1

theorem Takes.cases (h : Takes place (k + 1) taken p)
    (took : ∀ a, taken a → Takes place k Maybe (f a))
    (none : ∀ a, ¬ taken a → Takes place (k + 1) taken' (f a)) :
    Takes place (k + 1) taken' (p >>= f) :=
  fun c within => (h c within).cases within took none

theorem TakesAt.after (within : c.Within place (k + 1)) (h : TakesAt place c Surely p)
    (h' : ∀ a, Takes place k Maybe (f a)) : TakesAt place c taken' (p >>= f) :=
  h.cases within (fun a _ => h' a) fun _ none => absurd trivial none

theorem Takes.after (h : Takes place (k + 1) Surely p) (h' : ∀ a, Takes place k Maybe (f a)) :
    Takes place (k + 1) taken' (p >>= f) :=
  fun c within => (h c within).after within h'

/-- A token that has been taken counts for the rest too. -/
theorem TakesAt.behind (within : c.Within place k) (h : TakesAt place c Surely p)
    (h' : ∀ a, Takes place k Maybe (f a)) : TakesAt place c taken' (p >>= f) :=
  h.bind fun a c' _ moves fewer => (h' a c' (within.moves moves)).imp
    fun _ takes => takes.2 (fewer trivial)

theorem Takes.behind (h : Takes place k Surely p) (h' : ∀ a, Takes place k Maybe (f a)) :
    Takes place k taken' (p >>= f) :=
  fun c within => (h c within).behind within h'

theorem Takes.imp {taken'' : α → Prop} (h : Takes place k taken p)
    (weaker : ∀ a, taken'' a → taken a) : Takes place k taken'' p :=
  fun c within => (h c within).imp weaker

/-- What takes a token may do so where none has to be taken. -/
theorem Takes.maybe (h : Takes place k taken p) : Takes place k Maybe p :=
  h.imp fun _ none => none.elim

theorem Takes.mono {l : Nat} (h : Takes place k taken p) (le : l ≤ k) : Takes place l taken p :=
  fun c within => h c (within.mono le)

theorem Takes.less (h : Takes place (k + 1) taken p) : Takes place k taken p :=
  h.mono (Nat.le_succ k)

theorem Takes.ret {a : α} (h : ¬ taken a) : Takes place k taken (pure a) :=
  fun c _ => .value (.refl c) fun takes => absurd takes h

theorem takes_ret {a : α} : Takes place k Maybe (pure a) := .ret id

/-- The last round. -/
theorem takes_last {a : α} : Takes place k (Again (σ := σ)) (pure (.inr a)) :=
  .ret Bool.false_ne_true

theorem Takes.ret_bind {a : α} (h : Takes place k taken' (f a)) :
    Takes place k taken' (pure a >>= f) :=
  h

theorem takes_fail {error : ParseError} (at_ : place error.position) :
    Takes place k taken (fail error) :=
  fun _ _ => .fault at_

theorem Takes.fail_bind {error : ParseError} (at_ : place error.position) :
    Takes place k taken' ((fail error : Parser α) >>= f) :=
  fun _ _ => .fault at_

/-! ## Looking at tokens -/

/-- From a cursor a parser only looks at tokens. -/
def LooksAt (c : Cursor) (p : Parser α) : Prop := ∃ a, p c = .ok (a, c)

/-- A parser only looks at tokens. -/
def Looks (p : Parser α) : Prop := ∀ c, LooksAt c p

theorem TakesAt.looking {a : α} (same : p c = .ok (a, c)) (h : TakesAt place c taken' (f a)) :
    TakesAt place c taken' (p >>= f) := by
  simp only [TakesAt, Bind.bind, StateT.bind, same]
  exact h

theorem TakesAt.look (looks : Looks p) (h : ∀ a, TakesAt place c taken' (f a)) :
    TakesAt place c taken' (p >>= f) := by
  obtain ⟨a, same⟩ := looks c
  exact .looking same (h a)

theorem Takes.look (looks : Looks p) (h : ∀ a, Takes place k taken' (f a)) :
    Takes place k taken' (p >>= f) :=
  fun c within => .look looks fun a => h a c within

/-- What comes next may depend on the cursor. -/
theorem Takes.reading {f : Cursor → Parser β}
    (h : ∀ c, c.Within place k → TakesAt place c taken' (f c)) :
    Takes place k taken' (get >>= f) :=
  h

theorem Takes.peek {f : Token → Parser β}
    (h : ∀ c, c.Within place k → TakesAt place c taken' (f c.current)) :
    Takes place k taken' (peek >>= f) :=
  h

theorem Takes.peekKind {f : TokenKind → Parser β}
    (h : ∀ c, c.Within place k → TakesAt place c taken' (f c.current.kind)) :
    Takes place k taken' (peekKind >>= f) :=
  h

theorem Takes.here {f : Position → Parser β} (h : ∀ at_, place at_ → Takes place k taken' (f at_)) :
    Takes place k taken' (here >>= f) :=
  fun c within => h _ within.here c within

theorem looks_get : Looks get := fun c => ⟨c, rfl⟩

theorem looks_peekKind : Looks peekKind := fun c => ⟨c.current.kind, rfl⟩

theorem looks_here : Looks here := fun c => ⟨c.current.position, rfl⟩

theorem looks_check (kind : TokenKind) : Looks (check kind) := fun _ => ⟨_, rfl⟩

theorem looks_atFinish : Looks atFinish := fun _ => ⟨_, rfl⟩

theorem looks_groupFollowedBy (follower : TokenKind) : Looks (groupFollowedBy follower) :=
  fun _ => ⟨_, rfl⟩

theorem looksAt_ret {a : α} : LooksAt c (pure a) := ⟨a, rfl⟩

theorem Looks.reading {f : Cursor → Parser β} (h : ∀ c, LooksAt c (f c)) : Looks (get >>= f) :=
  h

theorem looks_membersAhead (allowEmpty : Bool) : Looks (membersAhead allowEmpty) := by
  refine .reading fun c => ?_
  split
  · split <;> exact looksAt_ret
  · exact looksAt_ret

theorem unexpectedAt_place {t : Token} (at_ : place t.position) (expected : String) :
    place (unexpectedAt t expected).position := by
  rw [unexpectedAt]
  split <;> exact at_

theorem takes_unexpected (expected : String) : Takes place k taken (unexpected expected) :=
  .peek fun _ within => .fault (unexpectedAt_place within.here expected)

theorem Takes.unexpected_bind (expected : String) :
    Takes place k taken' ((unexpected expected : Parser α) >>= f) :=
  fun _ within => .fault (unexpectedAt_place within.here expected)

/-! ## Taking tokens -/

theorem takes_advance : Takes place k Maybe advance :=
  fun c _ => .value c.moves_next fun none => none.elim

/-- A token that is not the end is taken. -/
theorem takesAt_advance (within : c.Within place k) (inside : c.current.kind ≠ .finish) :
    TakesAt place c Surely advance :=
  .value c.moves_next fun _ => within.lt_next inside

theorem TakesAt.advance {f : Token → Parser β} (within : c.Within place (k + 1))
    (inside : c.current.kind ≠ .finish)
    (h : ∀ token, place token.position → Takes place k Maybe (f token)) :
    TakesAt place c taken' (advance >>= f) := by
  refine (takesAt_advance within inside).bind fun token c' same moves fewer => ?_
  cases same
  exact (h c.current within.here _ (within.fewer moves (fewer trivial))).imp
    fun _ takes => takes.2 (fewer trivial)

/-- Where a token need not be taken, the one under the cursor may be the end. -/
theorem Takes.token {f : Token → Parser β}
    (h : ∀ token, place token.position → Takes place k Maybe (f token)) :
    Takes place k Maybe (Parse.advance >>= f) := by
  intro c within
  refine (takes_advance c within).bind fun token c' same moves _ => ?_
  cases same
  exact (h c.current within.here _ (within.moves moves)).imp fun _ takes => takes.1

/-- Unless the token under the cursor is the end, it is taken. -/
theorem Takes.advance {f : Token → Parser β}
    (inside : ∀ token, place token.position → Takes place k Maybe (f token))
    (ends : ∀ token, place token.position → token.kind = .finish →
      Takes place (k + 1) taken' (f token)) : Takes place (k + 1) taken' (advance >>= f) := by
  intro c within
  by_cases last : c.current.kind = .finish
  · have same : Parse.advance c = .ok (c.current, c) := by
      change Except.ok (c.current, c.next) = _
      rw [Cursor.next, if_pos last]
    exact .looking same (ends c.current within.here last c within)
  · exact .advance within last inside

/-- A parser that begins with the token under the cursor, whichever it is. If that is not the end,
it is taken, and what is read behind it is in front of at most `k` tokens. -/
structure Opens (place : Position → Prop) (k : Nat) (p : Parser α) : Prop where
  anyhow : Takes place k Maybe p
  opened {c : Cursor} : c.Within place (k + 1) → c.current.kind ≠ .finish →
    TakesAt place c Surely p

namespace Opens

theorem advance {f : Token → Parser β}
    (h : ∀ token, place token.position → Takes place k Maybe (f token)) :
    Opens place k (Parse.advance >>= f) where
  anyhow := .token h
  opened within inside := .advance within inside h

theorem look (looks : Looks p) (h : ∀ a, Opens place k (f a)) : Opens place k (p >>= f) where
  anyhow := .look looks fun a => (h a).anyhow
  opened within inside := .look looks fun a => (h a).opened within inside

/-- What always takes a token does so here. -/
theorem of_takes (h : Takes place (k + 1) Surely p) : Opens place k p where
  anyhow := h.less.maybe
  opened within _ := h _ within

end Opens

/-- A token of this kind is taken if it is there. -/
theorem takes_accept (kind : TokenKind) :
    Takes place k (fun found => found = true ∧ kind ≠ .finish) (accept kind) := by
  intro c within
  change TakesAt place c _ (if decide (c.current.kind = kind) = true then
    (do modify Cursor.next; return true) else return false)
  split
  · next found =>
    refine .value c.moves_next fun takes => within.lt_next ?_
    rw [of_decide_eq_true found]
    exact takes.2
  · exact .value (.refl c) fun takes => by cases takes.1

theorem takes_acceptMark (mark : Mark) : Takes place k (· = true) (accept (.mark mark)) :=
  (takes_accept _).imp fun _ found => ⟨found, nofun⟩

/-- A token of another kind is a fault. -/
theorem takes_consume {kind : TokenKind} (inside : kind ≠ .finish) (expected : String) :
    Takes place k Surely (consume kind expected) := by
  intro c within
  change TakesAt place c Surely
    (if decide (c.current.kind = kind) = true then advance else unexpected expected)
  split
  · next found => exact takesAt_advance within (of_decide_eq_true found ▸ inside)
  · exact takes_unexpected expected c within

theorem takes_consumeMark (mark : Mark) (expected : String) :
    Takes place k Surely (consumeMark mark expected) :=
  takes_consume (fun same => by cases same) expected

theorem takes_consumeWord (word : Keyword) (expected : String) :
    Takes place k Surely (consume (.keyword word) expected) :=
  takes_consume (fun same => by cases same) expected

theorem takes_consumeName (expected : String) :
    Takes place k Surely (consumeName expected) := by
  refine .peekKind fun c within => ?_
  split
  · next name kind =>
    have inside : c.current.kind ≠ .finish := fun ends => by rw [kind] at ends; cases ends
    exact (takesAt_advance within inside).behind within fun _ => takes_ret
  · exact takes_unexpected expected c within

/-! ## Surroundings -/

/-- What is read under other restrictions goes back to those before. -/
theorem TakesAt.restricting (restrictions : Restrictions)
    (h : TakesAt place { c with restrictions } taken p) :
    TakesAt place c taken (restricting restrictions p) := by
  change Result place taken c (((p >>= fun value => do
    modify ({ · with restrictions := c.restrictions })
    return value) : Parser α) { c with restrictions })
  simp only [TakesAt, Bind.bind, StateT.bind] at h ⊢
  generalize p { c with restrictions } = read at h ⊢
  cases h with
  | fault at_ => exact .fault at_
  | value moves fewer => exact .value ⟨moves.taken, rfl, moves.depth⟩ fewer

theorem Takes.restricting (restrictions : Restrictions) (h : Takes place k taken p) :
    Takes place k taken (restricting restrictions p) :=
  fun _ within => .restricting restrictions (h _ ⟨within.places, within.ended, within.few⟩)

/-- What is read one level deeper goes back to the level before. -/
theorem Takes.descending (h : Takes place k taken p) : Takes place k taken (descending p) := by
  intro c within
  change TakesAt place c taken (do
    if maxDepth ≤ c.depth then
      fail (.invalid .nestingTooDeep (← Parse.here))
    modify fun c => { c with depth := c.depth + 1 }
    let value ← p
    modify fun c => { c with depth := c.depth - 1 }
    return value)
  split
  · exact .fault within.here
  · have inner := h { c with depth := c.depth + 1 } ⟨within.places, within.ended, within.few⟩
    change Result place taken c (((p >>= fun value => do
      modify fun c => { c with depth := c.depth - 1 }
      return value) : Parser α) { c with depth := c.depth + 1 })
    simp only [TakesAt, Bind.bind, StateT.bind] at inner ⊢
    generalize p { c with depth := c.depth + 1 } = read at inner ⊢
    cases inner with
    | fault at_ => exact .fault at_
    | value moves fewer =>
      refine .value ⟨moves.taken, moves.restrictions, ?_⟩ fewer
      exact congrArg (· - 1) moves.depth

theorem takes_node (kind : ExprKind) (position : Position) :
    Takes place k Maybe (node kind position) :=
  fun _ _ => .value ⟨⟨[], rfl, List.forall_mem_nil _⟩, rfl, rfl⟩ fun none => none.elim

/-! ## Repetition -/

/-- A step that takes a token whenever it is to be repeated comes to an end within as many rounds as
there are tokens, and one. -/
theorem Takes.loop {step : σ → Parser (σ ⊕ α)} (h : ∀ s, Takes place k Again (step s)) (fuel : Nat)
    (s : σ) (c : Cursor) (within : c.Within place k) (enough : c.tokens.length < fuel) :
    TakesAt place c Maybe (loop step fuel s) := by
  induction fuel generalizing s c with
  | zero => exact absurd enough (Nat.not_lt_zero _)
  | succ fuel ih =>
    refine (h s c within).bind fun next c' _ moves fewer => ?_
    cases next with
    | inl s =>
      have lt := fewer rfl
      exact (ih s c' (within.moves moves) (by omega)).imp fun _ takes => takes.1
    | inr a => exact .value (.refl c') fun takes => takes.1.elim

theorem Takes.repeating {step : σ → Parser (σ ⊕ α)} {s : σ}
    (h : ∀ s, Takes place k Again (step s)) : Takes place k Maybe (repeating step s) :=
  .reading fun c within => Takes.loop h _ s c within (Nat.lt_succ_self _)

/-- Behind an item a list ends, unless a comma stands there and no closing mark behind it. -/
theorem takes_anotherItem {close : Mark} {done closed : α} {more : Parser (σ ⊕ α)}
    (h : Takes place k Maybe more) : Takes place (k + 1) Again (do
      if ← accept (.mark .comma) then
        if ← check (.mark close) then return .inr closed else more
      else return .inr done) := by
  refine (takes_acceptMark _).cases (fun comma found => ?_) fun comma missing => ?_
  · rw [if_pos found]
    refine .look (looks_check _) fun closes => ?_
    cases closes with
    | true => exact takes_ret
    | false => exact h
  · rw [if_neg missing]
    exact takes_last

/-- Behind an item a list ends or goes on with a comma. -/
theorem takes_nextItem {done : α} {more : Parser (σ ⊕ α)} (h : Takes place k Maybe more) :
    Takes place (k + 1) Again (do
      if ← accept (.mark .comma) then more else return .inr done) := by
  refine (takes_acceptMark _).cases (fun comma found => ?_) fun comma missing => ?_
  · rw [if_pos found]
    exact h
  · rw [if_neg missing]
    exact takes_last

end ScriptEngine.Parse
