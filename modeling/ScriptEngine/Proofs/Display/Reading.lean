import ScriptEngine.Parse.Statement

/-!
# Parsers that succeed

What a parser makes of tokens depends on their kinds. `Reads` says that it takes the tokens of some
kinds up to those that follow and gives a result with a property; each definition of the parser has
a lemma of this form, and a parser made of others is put together by `Reads.bind`.

* `Cursor.StandsAt`: the kinds of the tokens that a cursor has in front of it.
* `bind_of_ok`, `restricting_of_ok`, `descending_of_ok`: a run of a parser made of others.
* `Reads`: a parser succeeds, whatever stands in the tokens besides their kinds.
* `Reads.loop`: a repeated step, if it succeeds in each round.
-/

namespace ScriptEngine

namespace Parse

/-- A cursor stands in front of tokens of these kinds at a depth, under some restrictions. -/
structure Cursor.StandsAt (c : Cursor) (under : Restrictions) (depth : Nat)
    (kinds : List TokenKind) : Prop where
  kinds : c.current.kind :: c.following.map (·.kind) = kinds
  restrictions : c.restrictions = under
  depth : c.depth = depth

variable {α β σ : Type} {c : Cursor} {under : Restrictions} {depth : Nat}
  {kind kind' : TokenKind} {kinds mid rest : List TokenKind}

theorem Cursor.StandsAt.current (h : c.StandsAt under depth (kind :: kinds)) :
    c.current.kind = kind :=
  (List.cons.inj h.kinds).1

theorem Cursor.StandsAt.following (h : c.StandsAt under depth (kind :: kinds)) :
    c.following.map (·.kind) = kinds :=
  (List.cons.inj h.kinds).2

theorem Cursor.StandsAt.kindAfter (h : c.StandsAt under depth (kind :: kind' :: kinds)) :
    c.kindAfter 0 = kind' := by
  obtain ⟨token, following, same, rfl, -⟩ := List.map_eq_cons_iff.mp h.following
  rw [Cursor.kindAfter, same]
  rfl

/-- A token that does not end the list is passed. -/
theorem Cursor.StandsAt.next (h : c.StandsAt under depth (kind :: kind' :: kinds))
    (goes : kind ≠ .finish) : c.next.StandsAt under depth (kind' :: kinds) := by
  obtain ⟨token, following, same, ofToken, ofFollowing⟩ := List.map_eq_cons_iff.mp h.following
  have stays : ¬ c.current.kind = .finish := h.current ▸ goes
  rw [Cursor.next, if_neg stays, same]
  refine ⟨?_, h.restrictions, h.depth⟩
  rw [← ofToken, ← ofFollowing]

/-- From tokens of some kinds a parser comes to those that follow, its result with a property. -/
def Reads (under : Restrictions) (parser : Parser α) (depth : Nat) (kinds rest : List TokenKind)
    (P : α → Prop) : Prop :=
  ∀ c : Cursor, c.StandsAt under depth kinds →
    ∃ a c', parser c = .ok (a, c') ∧ P a ∧ c'.StandsAt under depth rest

variable {parser : Parser α} {f : α → Parser β} {P : α → Prop} {Q : β → Prop}

/-! ## Runs of parts -/

section

variable {c' : Cursor} {a : α}

theorem bind_of_ok (run : parser c = .ok (a, c')) : (parser >>= f) c = f a c' := by
  show (parser c >>= fun read => f read.1 read.2) = f a c'
  rw [run]
  rfl

theorem get_bind {f : Cursor → Parser α} : ((get : Parser Cursor) >>= f) c = f c c :=
  rfl

theorem here_bind {f : Position → Parser α} : (here >>= f) c = f c.current.position c :=
  rfl

theorem peek_bind {f : Token → Parser α} : (peek >>= f) c = f c.current c :=
  rfl

theorem peekKind_bind {f : TokenKind → Parser α} : (peekKind >>= f) c = f c.current.kind c :=
  rfl

theorem restricting_of_ok {inner : Restrictions}
    (run : parser { c with restrictions := inner } = .ok (a, c')) :
    restricting inner parser c = .ok (a, { c' with restrictions := c.restrictions }) := by
  have whole : restricting inner parser c =
      (parser { c with restrictions := inner }).bind fun read =>
        .ok (read.1, { read.2 with restrictions := c.restrictions }) := rfl
  rw [whole, run]
  rfl

theorem descending_of_ok (room : c.depth < maxDepth)
    (run : parser { c with depth := c.depth + 1 } = .ok (a, c')) :
    descending parser c = .ok (a, { c' with depth := c'.depth - 1 }) := by
  have deep : ¬ maxDepth ≤ c.depth := Nat.not_le_of_lt room
  have whole : descending parser c =
      (parser { c with depth := c.depth + 1 }).bind fun read =>
        .ok (read.1, { read.2 with depth := read.2.depth - 1 }) := by
    rw [descending, get_bind, if_neg deep]
    rfl
  rw [whole, run]
  rfl

theorem room_of_ok (run : descending parser c = .ok (a, c')) : c.depth < maxDepth := by
  refine Nat.lt_of_not_le fun deep => ?_
  rw [descending, get_bind, if_pos deep] at run
  cases run

end

/-! ## Parts one after the other -/

theorem Reads.imp {P' : α → Prop} (h : Reads under parser depth kinds rest P)
    (imp : ∀ a, P a → P' a) : Reads under parser depth kinds rest P' := by
  intro c stands
  obtain ⟨a, c', result, holds, stands'⟩ := h c stands
  exact ⟨a, c', result, imp a holds, stands'⟩

theorem Reads.bind (h : Reads under parser depth kinds mid P)
    (h' : ∀ a, P a → Reads under (f a) depth mid rest Q) :
    Reads under (parser >>= f) depth kinds rest Q := by
  intro c stands
  obtain ⟨a, c', result, holds, stands'⟩ := h c stands
  obtain ⟨b, c'', result', holds', stands''⟩ := h' a holds c' stands'
  exact ⟨b, c'', (bind_of_ok result).trans result', holds', stands''⟩

/-- A parser whose result is known. -/
theorem Reads.next {a : α} (h : Reads under parser depth kinds mid (· = a))
    (h' : Reads under (f a) depth mid rest Q) :
    Reads under (parser >>= f) depth kinds rest Q :=
  h.bind fun _ same => same ▸ h'

theorem Reads.ret {a : α} (holds : P a) : Reads under (pure a : Parser α) depth kinds kinds P :=
  fun c stands => ⟨a, c, rfl, holds, stands⟩

theorem reads_get : Reads under get depth kinds kinds (·.StandsAt under depth kinds) :=
  fun c stands => ⟨c, c, rfl, stands, stands⟩

theorem reads_peek : Reads under peek depth (kind :: kinds) (kind :: kinds) (·.kind = kind) :=
  reads_get.bind fun _ stands => .ret stands.current

theorem reads_peekKind : Reads under peekKind depth (kind :: kinds) (kind :: kinds) (· = kind) :=
  reads_get.bind fun _ stands => .ret stands.current

theorem reads_here : Reads under here depth kinds kinds fun _ => True :=
  reads_get.bind fun _ _ => .ret trivial

theorem reads_check {wanted : TokenKind} {found : Bool} (same : decide (kind = wanted) = found) :
    Reads under (check wanted) depth (kind :: kinds) (kind :: kinds) (· = found) :=
  reads_get.bind fun _ stands => .ret (by rw [← same, stands.current])

theorem reads_check_self :
    Reads under (check kind) depth (kind :: kinds) (kind :: kinds) (· = true) :=
  reads_check (decide_eq_true rfl)

theorem reads_check_of_ne {wanted : TokenKind} (other : kind ≠ wanted) :
    Reads under (check wanted) depth (kind :: kinds) (kind :: kinds) (· = false) :=
  reads_check (decide_eq_false other)

theorem reads_next (goes : kind ≠ .finish) :
    Reads under (modify Cursor.next) depth (kind :: kind' :: kinds) (kind' :: kinds)
      fun _ => True :=
  fun c stands => ⟨(), c.next, rfl, trivial, stands.next goes⟩

theorem reads_advance (goes : kind ≠ .finish) :
    Reads under advance depth (kind :: kind' :: kinds) (kind' :: kinds) (·.kind = kind) :=
  reads_peek.bind fun _ ofKind => (reads_next goes).bind fun _ _ => .ret ofKind

/-- A token that is looked for is taken. -/
theorem reads_accept (goes : kind ≠ .finish) :
    Reads under (accept kind) depth (kind :: kind' :: kinds) (kind' :: kinds) (· = true) :=
  reads_check_self.next ((reads_next goes).bind fun _ _ => .ret rfl)

/-- Another token stays. -/
theorem reads_accept_of_ne {wanted : TokenKind} (other : kind ≠ wanted) :
    Reads under (accept wanted) depth (kind :: kinds) (kind :: kinds) (· = false) :=
  (reads_check_of_ne other).next (.ret rfl)

theorem reads_consumeMark {mark : Mark} {expected : String} :
    Reads under (consumeMark mark expected) depth (.mark mark :: kind' :: kinds) (kind' :: kinds)
      fun _ => True :=
  reads_check_self.next
    ((reads_advance (fun no => by cases no)).imp fun _ _ => trivial)

theorem reads_node {form : ExprKind} {position : Position} :
    Reads under (node form position) depth kinds kinds (·.kind = form) :=
  fun _ stands => ⟨_, _, rfl, rfl, stands.kinds, stands.restrictions, stands.depth⟩

theorem reads_leaf {form : ExprKind} {position : Position} (goes : kind ≠ .finish) :
    Reads under (leaf form position) depth (kind :: kind' :: kinds) (kind' :: kinds)
      (·.kind = form) :=
  (reads_advance goes).bind fun _ _ => reads_node

/-- What stands inside may be under other restrictions. -/
theorem Reads.restricting {inner : Restrictions} (h : Reads inner parser depth kinds rest P) :
    Reads under (restricting inner parser) depth kinds rest P := by
  intro c stands
  obtain ⟨a, c', result, holds, stands'⟩ :=
    h { c with restrictions := inner } ⟨stands.kinds, rfl, stands.depth⟩
  exact ⟨a, { c' with restrictions := c.restrictions }, restricting_of_ok result, holds,
    stands'.kinds, stands.restrictions, stands'.depth⟩

theorem Reads.descending (h : Reads under parser (depth + 1) kinds rest P)
    (room : depth < maxDepth) : Reads under (descending parser) depth kinds rest P := by
  intro c stands
  obtain ⟨a, c', result, holds, stands'⟩ :=
    h { c with depth := c.depth + 1 } ⟨stands.kinds, stands.restrictions, by rw [stands.depth]⟩
  refine ⟨a, { c' with depth := c'.depth - 1 }, descending_of_ok (stands.depth ▸ room) result,
    holds, stands'.kinds, stands'.restrictions, ?_⟩
  rw [stands'.depth, Nat.add_sub_cancel]

/-! ## Repetition -/

variable {step : σ → Parser (σ ⊕ α)} {state : σ} {fuel : Nat}

/-- A step that ends the repetition. -/
theorem Reads.last (h : Reads under (step state) depth kinds rest fun next =>
      ∃ value, next = .inr value ∧ P value) :
    Reads under (loop step (fuel + 1) state) depth kinds rest P := by
  rw [loop]
  refine h.bind fun next ended => ?_
  obtain ⟨value, rfl, holds⟩ := ended
  exact .ret holds

/-- A step behind which the repetition goes on. -/
theorem Reads.again {I : σ → Prop} (mid : List TokenKind)
    (h : Reads under (step state) depth kinds mid fun next =>
      ∃ state', next = .inl state' ∧ I state')
    (h' : ∀ state', I state' → Reads under (loop step fuel state') depth mid rest P) :
    Reads under (loop step (fuel + 1) state) depth kinds rest P := by
  rw [loop]
  refine h.bind fun next going => ?_
  obtain ⟨state', rfl, holds⟩ := going
  exact h' state' holds

/-- There are more rounds than tokens. -/
theorem Reads.repeating
    (h : ∀ fuel, kinds.length < fuel → Reads under (loop step fuel state) depth kinds rest P) :
    Reads under (repeating step state) depth kinds rest P := by
  refine reads_get.bind fun c stands => h _ ?_
  rw [← stands.kinds, List.length_cons, List.length_map]
  exact Nat.lt_succ_self _

end Parse

end ScriptEngine
