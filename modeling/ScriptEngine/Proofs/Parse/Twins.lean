import ScriptEngine.Proofs.Parse.Moving

/-!
# The same tokens with something else behind them

The same tokens may stand in front of their end, or in front of closing parentheses. Each cursor there
has a twin, which comes past the same tokens. Among the tokens that a parser passes each closing
bracket answers an opening one, but for those that the parser is said to owe.

* `Cursor.Twin`: the same tokens, and behind them the end or what stands in its place.
* `Cursor.Twin.cases`: twins are on the same token, or at what stands behind all tokens.
* `Closes`, `Cursor.Passes`: tokens with so many closing brackets more than opening ones.
* `followerOfGroup?_append`: a group in parentheses has the same token behind it.
-/

namespace ScriptEngine.Parse

variable {tail : List Token}

/-! ## Twins -/

theorem mark_ne_finish {mark : Mark} : TokenKind.mark mark ≠ .finish := nofun

/-- Tokens that may stand in the place of the end: the end, and closing parentheses before it. -/
def ClosesAll (tail : List Token) : Prop :=
  ∀ t ∈ tail, t.kind = .finish ∨ t.kind = .mark .rightParen

/-- Cursors in front of the same tokens, behind which stands the end for one of them and `tail` for
the other one. That one is not deeper. -/
structure Cursor.Twin (tail : List Token) (c d : Cursor) : Prop where
  tokens : ∃ ahead last, c.tokens = ahead ++ [last] ∧ d.tokens = ahead ++ tail ∧
    (∀ t ∈ ahead, t.kind ≠ .finish) ∧ last.kind = .finish ∧
      ∃ stop more, tail = stop :: more ∧ stop.position = last.position
  closes : ClosesAll tail
  restrictions : c.restrictions = d.restrictions
  nextId : c.nextId = d.nextId
  depth : d.depth ≤ c.depth

namespace Cursor

variable {c d : Cursor}

theorem nextId_next (c : Cursor) : c.next.nextId = c.nextId := by
  rw [next]
  split
  · rfl
  · split <;> rfl

/-- The cursor behind a token that is not the end. -/
theorem tokens_next (inside : c.current.kind ≠ .finish) (more : c.following ≠ []) :
    c.next.tokens = c.following := by
  obtain ⟨token, following, same⟩ := List.exists_cons_of_ne_nil more
  rw [next, if_neg inside, same]
  rfl

/-- Twins stand on the same token, and behind it are twins again, or at their ends. -/
theorem Twin.cases (h : c.Twin tail d) :
    (c.current.kind ≠ .finish ∧ d.current = c.current ∧ c.tokens = c.current :: c.next.tokens ∧
        c.next.Twin tail d.next) ∨
      (c.current.kind = .finish ∧ c.following = [] ∧ d.tokens = tail ∧
        d.current.position = c.current.position) := by
  obtain ⟨⟨ahead, last, ofC, ofD, inside, ended, stop, more, rfl, place⟩, closes, surroundings, id,
    depth⟩ := h
  cases ahead with
  | nil =>
    obtain ⟨rfl, none⟩ := List.cons.inj ofC
    obtain ⟨current, -⟩ := List.cons.inj ofD
    exact .inr ⟨ended, none, ofD, current ▸ place⟩
  | cons token ahead =>
    obtain ⟨rfl, behind⟩ := List.cons.inj ofC
    obtain ⟨current, behind'⟩ := List.cons.inj ofD
    have word : c.current.kind ≠ .finish := inside _ List.mem_cons_self
    have inside' : ∀ t ∈ ahead, t.kind ≠ .finish :=
      fun t mem => inside t (List.mem_cons_of_mem _ mem)
    have next : c.next.tokens = ahead ++ [last] :=
      (tokens_next word (behind ▸ List.concat_ne_nil _ _)).trans behind
    have next' : d.next.tokens = ahead ++ stop :: more :=
      (tokens_next (current ▸ word) (behind' ▸ List.append_ne_nil_of_right_ne_nil _
        (List.cons_ne_nil _ _))).trans behind'
    refine .inl ⟨word, current, ?_, ⟨ahead, last, next, next', inside', ended, stop, more, rfl, place⟩,
      closes, ?_, ?_, ?_⟩
    · rw [next]
      exact congrArg _ behind
    · rw [(moves_next c).restrictions, (moves_next d).restrictions, surroundings]
    · rw [nextId_next, nextId_next, id]
    · rw [(moves_next c).depth, (moves_next d).depth]
      exact depth

/-- Twins are at the same place. -/
theorem Twin.position (h : c.Twin tail d) : d.current.position = c.current.position := by
  rcases h.cases with ⟨-, same, -⟩ | ⟨-, -, -, place⟩
  · rw [same]
  · exact place

theorem Twin.length_le (h : c.Twin tail d) : c.following.length ≤ d.following.length := by
  obtain ⟨⟨ahead, last, ofC, ofD, -, -, stop, more, rfl, -⟩, -⟩ := h
  have first := congrArg List.length ofC
  have second := congrArg List.length ofD
  simp only [Cursor.tokens, List.length_cons, List.length_append, List.length_nil] at first second
  omega

/-- Where one cursor is at its end, the other one is in front of what stands in its place. -/
theorem Twin.stops (h : c.Twin tail d) (ended : c.current.kind = .finish) :
    d.current.kind = .finish ∨ d.current.kind = .mark .rightParen := by
  rcases h.cases with ⟨inside, -⟩ | ⟨-, -, same, -⟩
  · exact absurd ended inside
  · exact h.closes d.current (same ▸ List.mem_cons_self)

/-- Further on stand tokens of the same kinds, or those that close them. -/
theorem Twin.kindAfter (h : c.Twin tail d) (n : Nat) :
    d.kindAfter n = c.kindAfter n ∨
      (c.kindAfter n = .finish ∧ (d.kindAfter n = .finish ∨ d.kindAfter n = .mark .rightParen)) := by
  obtain ⟨⟨ahead, last, ofC, ofD, -, ended, -⟩, closes, -⟩ := h
  have ofC' : c.following[n]? = (ahead ++ [last])[n + 1]? := by rw [← ofC]; rfl
  have ofD' : d.following[n]? = (ahead ++ tail)[n + 1]? := by rw [← ofD]; rfl
  unfold Cursor.kindAfter
  rw [ofC', ofD']
  rcases Nat.lt_or_ge (n + 1) ahead.length with inside | outside
  · rw [List.getElem?_append_left inside, List.getElem?_append_left inside]
    exact .inl rfl
  · right
    rw [List.getElem?_append_right outside, List.getElem?_append_right outside]
    constructor
    · cases n + 1 - ahead.length with
      | zero => exact ended
      | succ k => rfl
    · cases found : tail[n + 1 - ahead.length]? with
      | none => exact .inl rfl
      | some t => exact closes t (List.mem_of_getElem? found)

theorem Twin.kind_next (h : c.Twin tail d) (inside : c.current.kind ≠ .finish) :
    c.next.current.kind = c.kindAfter 0 := by
  rcases h.cases with ⟨-, -, front, -⟩ | ⟨ended, -⟩
  · rw [Cursor.kindAfter, (List.cons.inj front).2]
    rfl
  · exact absurd ended inside

/-- Twins are in front of the same kind, but for those that close the tokens. -/
theorem Twin.decide_kind (h : c.Twin tail d) {kind : TokenKind} (goes : kind ≠ .finish)
    (other : kind ≠ .mark .rightParen) :
    decide (d.current.kind = kind) = decide (c.current.kind = kind) := by
  rcases h.cases with ⟨-, same, -⟩ | ⟨ended, -⟩
  · rw [same]
  · rcases h.stops ended with ended' | closed
    · rw [ended, ended']
    · rw [ended, closed, decide_eq_false other.symm, decide_eq_false goes.symm]

theorem Twin.decide_kindAfter (h : c.Twin tail d) (n : Nat) {kind : TokenKind}
    (goes : kind ≠ .finish) (other : kind ≠ .mark .rightParen) :
    decide (d.kindAfter n = kind) = decide (c.kindAfter n = kind) := by
  rcases h.kindAfter n with same | ⟨ended, ended' | closed⟩
  · rw [same]
  · rw [ended, ended']
  · rw [ended, closed, decide_eq_false other.symm, decide_eq_false goes.symm]

end Cursor

/-! ## Brackets that are owed -/

/-- What a token means to groups in brackets. -/
inductive Weight
  | opens | closes | ends | plain

/-- What a token of a kind means to groups in brackets. -/
def weight : TokenKind → Weight
  | .mark .leftParen | .mark .leftBracket | .mark .leftBrace => .opens
  | .mark .rightParen | .mark .rightBracket | .mark .rightBrace => .closes
  | .finish => .ends
  | _ => .plain

/-- Whether a token may be taken where so many closing brackets are owed. -/
def Weight.may (owed : Nat) : Weight → Prop
  | opens | plain => True
  | closes => 0 < owed
  | ends => False

/-- How many closing brackets are owed behind a token. -/
def Weight.owing (owed : Nat) : Weight → Nat
  | opens => owed + 1
  | closes => owed - 1
  | ends | plain => owed

variable {owed opened : Nat} {taken taken' rest : List Token} {t : Token}

theorem followerOfGroup?_cons : followerOfGroup? opened (t :: rest) = match weight t.kind with
    | .opens => followerOfGroup? (opened + 1) rest
    | .closes =>
      if opened ≤ 1 then rest.head?.map (·.kind) else followerOfGroup? (opened - 1) rest
    | .ends => none
    | .plain => followerOfGroup? opened rest := by
  obtain ⟨kind, lexeme, position, stop⟩ := t
  cases kind with
  | mark mark => cases mark <;> rfl
  | _ => rfl

/-- Among some tokens each closing bracket answers an opening one, but for so many that are owed. -/
def Closes (owed : Nat) (taken : List Token) : Prop :=
  ∀ opened rest, 1 ≤ opened →
    followerOfGroup? (opened + owed) (taken ++ rest) = followerOfGroup? opened rest

theorem Closes.nil : Closes 0 [] := fun _ _ _ => rfl

theorem Closes.append {owed' : Nat} (h : Closes owed taken) (h' : Closes owed' taken') :
    Closes (owed' + owed) (taken ++ taken') := by
  intro opened rest deep
  rw [List.append_assoc, ← Nat.add_assoc]
  exact (h (opened + owed') (taken' ++ rest) (by omega)).trans (h' opened rest deep)

theorem Closes.cons (may : (weight t.kind).may owed)
    (h : Closes ((weight t.kind).owing owed) taken) : Closes owed (t :: taken) := by
  intro opened rest deep
  rw [List.cons_append, followerOfGroup?_cons]
  cases kind : weight t.kind with
  | opens =>
    rw [kind] at h
    exact h opened rest deep
  | closes =>
    rw [kind] at h may
    have owes : 0 < owed := may
    have less : opened + owed - 1 = opened + (owed - 1) := by omega
    show (if opened + owed ≤ 1 then _ else followerOfGroup? (opened + owed - 1) (taken ++ rest)) = _
    rw [if_neg (by omega), less]
    exact h opened rest deep
  | ends =>
    rw [kind] at may
    exact may.elim
  | plain =>
    rw [kind] at h
    exact h opened rest deep

/-- What closes a group that nothing inside the tokens closes is followed by their end. -/
theorem followerOfGroup?_tail (closes : ClosesAll tail) {follower : TokenKind}
    (found : followerOfGroup? opened tail = some follower) :
    follower = .finish ∨ follower = .mark .rightParen := by
  induction tail generalizing opened with
  | nil => cases found
  | cons t tail ih =>
    have closes' : ClosesAll tail := fun t mem => closes t (List.mem_cons_of_mem _ mem)
    rw [followerOfGroup?_cons] at found
    rcases closes t List.mem_cons_self with ended | closing
    · rw [ended] at found
      cases found
    · rw [closing] at found
      by_cases last : opened ≤ 1
      · obtain ⟨next, head, rfl⟩ := Option.map_eq_some_iff.mp ((if_pos last).symm.trans found)
        exact closes' next (List.mem_of_mem_head? head)
      · exact ih closes' ((if_neg last).symm.trans found)

/-- A group is followed by the same token, whatever closes the tokens. -/
theorem followerOfGroup?_append (closes : ClosesAll tail) {ahead : List Token} {last : Token}
    {follower : TokenKind} (ended : last.kind = .finish) (goes : follower ≠ .finish)
    (other : follower ≠ .mark .rightParen) :
    followerOfGroup? opened (ahead ++ [last]) = some follower ↔
      followerOfGroup? opened (ahead ++ tail) = some follower := by
  have only : ClosesAll [last] := List.forall_mem_singleton.mpr (.inl ended)
  have never {opened : Nat} {tail : List Token} (closes : ClosesAll tail) :
      ¬ followerOfGroup? opened tail = some follower := fun found =>
    (followerOfGroup?_tail closes found).elim goes other
  induction ahead generalizing opened with
  | nil => exact iff_of_false (never only) (never closes)
  | cons t ahead ih =>
    rw [List.cons_append, List.cons_append, followerOfGroup?_cons, followerOfGroup?_cons]
    cases weight t.kind with
    | opens => exact ih
    | closes =>
      dsimp only
      by_cases last' : opened ≤ 1
      · rw [if_pos last', if_pos last']
        cases ahead with
        | nil =>
          refine iff_of_false (fun found => ?_) fun found => ?_
          · obtain ⟨next, head, rfl⟩ := Option.map_eq_some_iff.mp found
            exact (only next (List.mem_of_mem_head? head)).elim goes other
          · obtain ⟨next, head, rfl⟩ := Option.map_eq_some_iff.mp found
            exact (closes next (List.mem_of_mem_head? head)).elim goes other
        | cons t ahead => exact .rfl
      · rw [if_neg last', if_neg last']
        exact ih
    | ends => exact .rfl
    | plain => exact ih

/-! ## Passing tokens -/

/-- From one cursor to another one tokens are passed in which so many closing brackets are owed. -/
def Cursor.Passes (owed : Nat) (c c' : Cursor) : Prop :=
  ∃ taken, c.tokens = taken ++ c'.tokens ∧ Closes owed taken

namespace Cursor

variable {c c' c'' d : Cursor}

theorem Passes.of_same (same : c'.tokens = c.tokens) : c.Passes 0 c' := ⟨[], same.symm, .nil⟩

theorem Passes.trans {owed' : Nat} (h : c.Passes owed c') (h' : c'.Passes owed' c'') :
    c.Passes (owed' + owed) c'' := by
  obtain ⟨taken, same, closes⟩ := h
  obtain ⟨taken', same', closes'⟩ := h'
  exact ⟨taken ++ taken', by rw [same, same', List.append_assoc], closes.append closes'⟩

theorem Passes.of_next (front : c.tokens = c.current :: c.next.tokens)
    (may : (weight c.current.kind).may owed)
    (h : c.next.Passes ((weight c.current.kind).owing owed) c') : c.Passes owed c' := by
  obtain ⟨taken, same, closes⟩ := h
  exact ⟨c.current :: taken, by rw [front, same, List.cons_append], closes.cons may⟩

/-- Where something may be taken, twins stand on the same token, with twins behind it. -/
theorem Twin.of_may (h : c.Twin tail d) (may : (weight c.current.kind).may owed) :
    d.current = c.current ∧ c.tokens = c.current :: c.next.tokens ∧ c.next.Twin tail d.next := by
  rcases h.cases with ⟨-, same, front, next⟩ | ⟨ended, -⟩
  · exact ⟨same, front, next⟩
  · rw [ended] at may
    exact may.elim

end Cursor

end ScriptEngine.Parse
