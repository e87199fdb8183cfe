import ScriptEngine.Proofs.Display.Reading
import ScriptEngine.Proofs.Parse.Results
import ScriptEngine.Proofs.Parse.Twins

/-!
# What follows an expression does not matter

A parser that succeeds in front of the end of the tokens copies its success in front of a closing
parenthesis: it comes to the same result past the same tokens. It may have more steps and be less deep
there. So it is for each part of the parser, and for parts one after the other.

* `CopiesAt`, `Copies`: the same success at a twin.
* `Copies.bind`, `Copies.consume`, `Copies.accept`, `Copies.advance`: parsers one after the other.
* `Copies.repeating`, `Copies.repeating_to_end`: a repeated step.
* `Copies.to_end`: a parser that takes all tokens stops in front of what follows them.
* `Barren`: what fails at the end.
-/

namespace ScriptEngine.Parse

variable {tail : List Token} {owed : Nat}

/-! ## Copies -/

variable {α β σ : Type} {whole : Bool} {p p' : Parser α} {f f' : α → Parser β} {c c' d d' : Cursor}
  {kind : TokenKind}

/-- Where the first parser succeeds from a cursor, the second one does the same from the other cursor,
and the tokens are passed in which so many closing brackets are owed. If this is not the whole truth,
it is so unless the first parser comes to the end of the tokens. -/
def CopiesAt (tail : List Token) (whole : Bool) (owed : Nat) (p p' : Parser α) (c d : Cursor) :
    Prop :=
  ∀ a c', p c = .ok (a, c') → (whole = true ∨ c'.current.kind ≠ .finish) →
    c.Passes owed c' ∧ ∃ d', p' d = .ok (a, d') ∧ c'.Twin tail d'

/-- So it is from all twins. -/
def Copies (tail : List Token) (whole : Bool) (owed : Nat) (p p' : Parser α) : Prop :=
  ∀ c d, c.Twin tail d → CopiesAt tail whole owed p p' c d

/-- So it is from all twins in front of a token of a kind. -/
def CopiesAhead (tail : List Token) (kind : TokenKind) (whole : Bool) (owed : Nat)
    (p p' : Parser α) : Prop :=
  ∀ c d, c.Twin tail d → c.current.kind = kind → CopiesAt tail whole owed p p' c d

/-- A parser fails at the end of the tokens. -/
def Barren (p : Parser α) : Prop := ∀ c, c.current.kind = .finish → ∀ r, p c ≠ .ok r

theorem CopiesAt.of_fails (fails : ∀ r, p c ≠ .ok r) : CopiesAt tail whole owed p p' c d :=
  fun _ _ run => absurd run (fails _)

theorem CopiesAt.bind (h : CopiesAt tail true 0 p p' c d)
    (h' : ∀ a c' d', c'.Twin tail d' → CopiesAt tail whole owed (f a) (f' a) c' d') :
    CopiesAt tail whole owed (p >>= f) (p' >>= f') c d := by
  intro b c'' run goesOn
  obtain ⟨a, c', first, second⟩ := exists_of_bind run
  obtain ⟨passes, d', first', twin⟩ := h a c' first (.inl rfl)
  obtain ⟨passes', d'', second', twin'⟩ := h' a c' d' twin b c'' second goesOn
  exact ⟨passes.trans passes', d'', (bind_of_ok first').trans second', twin'⟩

/-- What only looks at the tokens may see something else from the other cursor. -/
theorem CopiesAt.look {a b : α} (sees : p c = .ok (a, c)) (sees' : p' d = .ok (b, d))
    (h : CopiesAt tail whole owed (f a) (f' b) c d) :
    CopiesAt tail whole owed (p >>= f) (p' >>= f') c d := by
  intro b c' run goesOn
  rw [bind_of_ok sees] at run
  rw [bind_of_ok sees']
  exact h b c' run goesOn

/-- Both take the same token. -/
theorem CopiesAt.advance_next {f f' : Token → Parser β} (twin : c.Twin tail d)
    (may : (weight c.current.kind).may owed)
    (h : c.next.Twin tail d.next → CopiesAt tail whole ((weight c.current.kind).owing owed)
      (f c.current) (f' c.current) c.next d.next) :
    CopiesAt tail whole owed (advance >>= f) (advance >>= f') c d := by
  intro b c' run goesOn
  obtain ⟨same, front, next⟩ := twin.of_may may
  obtain ⟨passes, d', run', twin'⟩ := h next b c' run goesOn
  refine ⟨passes.of_next front may, d', ?_, twin'⟩
  rw [← same] at run'
  exact run'

theorem CopiesAt.advance {f g : Token → Parser β} (twin : c.Twin tail d)
    (may : (weight c.current.kind).may owed)
    (h : ∀ token, token.kind = c.current.kind →
      Copies tail whole ((weight c.current.kind).owing owed) (f token) (g token)) :
    CopiesAt tail whole owed (advance >>= f) (advance >>= g) c d :=
  .advance_next twin may fun next => h c.current rfl c.next d.next next

/-- A token of a kind stands in front of both twins or of none, unless it is in the place of the end.
Then the first parser has to fail without one. -/
theorem CopiesAt.check {f f' : Bool → Parser β} (twin : c.Twin tail d) (goes : kind ≠ .finish)
    (h : c.current.kind = kind → CopiesAt tail whole owed (f true) (f' true) c d)
    (h' : CopiesAt tail whole owed (f false) (f' false) c d)
    (barren : kind = .mark .rightParen → Barren (f false)) :
    CopiesAt tail whole owed (Parse.check kind >>= f) (Parse.check kind >>= f') c d := by
  have look (b b' : Bool) (sees : decide (c.current.kind = kind) = b)
      (sees' : decide (d.current.kind = kind) = b')
      (copies : CopiesAt tail whole owed (f b) (f' b') c d) :
      CopiesAt tail whole owed (Parse.check kind >>= f) (Parse.check kind >>= f') c d :=
    .look (congrArg (fun b => Except.ok (b, c)) sees) (congrArg (fun b => Except.ok (b, d)) sees')
      copies
  by_cases paren : kind = .mark .rightParen
  · rcases twin.cases with ⟨-, same, -⟩ | ⟨ended, -⟩
    · by_cases at_ : c.current.kind = kind
      · exact look true true (decide_eq_true at_) (decide_eq_true (same ▸ at_)) (h at_)
      · exact look false false (decide_eq_false at_) (decide_eq_false (same ▸ at_)) h'
    · exact look false _ (decide_eq_false (ended ▸ goes.symm)) rfl (.of_fails (barren paren c ended))
  · have same := twin.decide_kind goes paren
    by_cases at_ : c.current.kind = kind
    · exact look true true (decide_eq_true at_) (same.trans (decide_eq_true at_)) (h at_)
    · exact look false false (decide_eq_false at_) (same.trans (decide_eq_false at_)) h'

theorem Copies.ahead (h : Copies tail whole owed p p') :
    CopiesAhead tail kind whole owed p p' :=
  fun c d twin _ => h c d twin

namespace CopiesAhead

theorem of_fails (fails : ∀ c, c.current.kind = kind → ∀ r, p c ≠ .ok r) :
    CopiesAhead tail kind whole owed p p' :=
  fun c _ _ at_ => .of_fails (fails c at_)

theorem advance {f g : Token → Parser β} (may : (weight kind).may owed)
    (h : ∀ token, token.kind = kind →
      Copies tail whole ((weight kind).owing owed) (f token) (g token)) :
    CopiesAhead tail kind whole owed (advance >>= f) (advance >>= g) := by
  rintro c d twin rfl
  exact .advance twin may h

theorem bind (h : CopiesAhead tail kind true 0 p p')
    (h' : ∀ a, Copies tail whole owed (f a) (f' a)) :
    CopiesAhead tail kind whole owed (p >>= f) (p' >>= f') :=
  fun c d twin at_ => (h c d twin at_).bind fun a c' d' twin' => h' a c' d' twin'

end CopiesAhead

namespace Copies

/-! ### Parts -/

theorem bind (h : Copies tail true 0 p p') (h' : ∀ a, Copies tail whole owed (f a) (f' a)) :
    Copies tail whole owed (p >>= f) (p' >>= f') :=
  fun c d twin => (h c d twin).bind fun a c' d' twin' => h' a c' d' twin'

/-- The closing brackets may be owed in the first part. -/
theorem before (h : Copies tail true owed p p') (h' : ∀ a, Copies tail whole 0 (f a) (f' a)) :
    Copies tail whole owed (p >>= f) (p' >>= f') := by
  intro c d twin b c'' run goesOn
  obtain ⟨a, c', first, second⟩ := exists_of_bind run
  obtain ⟨passes, d', first', twin'⟩ := h c d twin a c' first (.inl rfl)
  obtain ⟨passes', d'', second', twin''⟩ := h' a c' d' twin' b c'' second goesOn
  have all := passes.trans passes'
  rw [Nat.zero_add] at all
  exact ⟨all, d'', (bind_of_ok first').trans second', twin''⟩

theorem ret {a : α} : Copies tail whole 0 (pure a) (pure a) := by
  rintro c d twin _ _ ⟨⟩ -
  exact ⟨.of_same rfl, d, rfl, twin⟩

theorem ret_bind {a : α} (h : Copies tail whole owed (f a) (f' a)) :
    Copies tail whole owed (pure a >>= f) (pure a >>= f') :=
  h

theorem of_fails (fails : ∀ c r, p c ≠ .ok r) : Copies tail whole owed p p' :=
  fun c _ _ => .of_fails (fails c)

theorem fail {error : ParseError} : Copies tail whole owed (fail error : Parser α) p' :=
  of_fails fun _ _ => nofun

theorem fail_bind {error : ParseError} {g : Parser β} :
    Copies tail whole owed ((Parse.fail error : Parser α) >>= f) g :=
  of_fails fun _ _ => nofun

theorem unexpected {expected : String} : Copies tail whole owed (unexpected expected : Parser α) p' :=
  of_fails fun _ _ => nofun

theorem unexpected_bind {expected : String} {g : Parser β} :
    Copies tail whole owed ((Parse.unexpected expected : Parser α) >>= f) g :=
  of_fails fun _ _ => nofun

/-! ### Looking at tokens -/

theorem reading {f f' : Cursor → Parser β}
    (h : ∀ c d, c.Twin tail d → CopiesAt tail whole owed (f c) (f' d) c d) :
    Copies tail whole owed (get >>= f) (get >>= f') :=
  fun c d twin => h c d twin

theorem here {f f' : Position → Parser β}
    (h : ∀ position, Copies tail whole owed (f position) (f' position)) :
    Copies tail whole owed (here >>= f) (Parse.here >>= f') :=
  fun c d twin => .look (a := c.current.position) (b := c.current.position) rfl
    (congrArg (fun p => Except.ok (p, d)) twin.position) (h _ c d twin)

theorem peek {f f' : Token → Parser β}
    (h : ∀ token, CopiesAhead tail token.kind whole owed (f token) (f' token))
    (barren : ∀ token, token.kind = .finish → Barren (f token)) :
    Copies tail whole owed (peek >>= f) (Parse.peek >>= f') := by
  intro c d twin
  rcases twin.cases with ⟨-, same, -⟩ | ⟨ended, -⟩
  · exact .look (a := c.current) (b := c.current) rfl (congrArg (fun t => Except.ok (t, d)) same)
      (h _ c d twin rfl)
  · exact .of_fails (barren c.current ended c ended)

theorem check {f f' : Bool → Parser β} (goes : kind ≠ .finish)
    (h : ∀ found, Copies tail whole owed (f found) (f' found))
    (barren : kind = .mark .rightParen → Barren (f false)) :
    Copies tail whole owed (check kind >>= f) (Parse.check kind >>= f') :=
  fun c d twin => .check twin goes (fun _ => h true c d twin) (h false c d twin) barren

theorem peekKind {f f' : TokenKind → Parser β}
    (h : ∀ kind, CopiesAhead tail kind whole owed (f kind) (f' kind))
    (same : f' (.mark .rightParen) = f' .finish) :
    Copies tail whole owed (peekKind >>= f) (Parse.peekKind >>= f') := by
  intro c d twin
  refine .look (a := c.current.kind) (b := d.current.kind) rfl rfl ?_
  have copies := h c.current.kind c d twin rfl
  rcases twin.cases with ⟨-, sameToken, -⟩ | ⟨ended, -⟩
  · rwa [sameToken]
  · rcases twin.stops ended with ended' | closes
    · rwa [ended', ← ended]
    · rwa [closes, same, ← ended]

end Copies

/-- What a parser sees from twins is the same. -/
def Sees (tail : List Token) (p : Parser α) : Prop :=
  ∀ c d, c.Twin tail d → ∃ a, p c = .ok (a, c) ∧ p d = .ok (a, d)

theorem Copies.look (sees : Sees tail p) (h : ∀ a, Copies tail whole owed (f a) (f' a)) :
    Copies tail whole owed (p >>= f) (p >>= f') := by
  intro c d twin
  obtain ⟨a, run, run'⟩ := sees c d twin
  exact .look run run' (h a c d twin)

/-- A question about the tokens that twins answer alike. -/
theorem Sees.reading {f : Cursor → Parser α} (looks : ∀ c, ∃ a, f c = pure a)
    (same : ∀ c d, c.Twin tail d → f d = f c) : Sees tail (get >>= f) := by
  intro c d twin
  obtain ⟨a, answer⟩ := looks c
  exact ⟨a, congrArg (· c) answer, congrArg (· d) ((same c d twin).trans answer)⟩

theorem sees_groupFollowedBy {follower : TokenKind} (goes : follower ≠ .finish)
    (other : follower ≠ .mark .rightParen) : Sees tail (groupFollowedBy follower) := by
  refine .reading (fun c => ⟨_, rfl⟩) fun c d twin => congrArg pure ?_
  rcases twin.cases with ⟨-, same, -⟩ | ⟨ended, -⟩
  · obtain ⟨ahead, last, ofC, ofD, -, ended, -⟩ := twin.tokens
    cases ahead with
    | nil =>
      have here : c.current.kind = .finish := by rw [(List.cons.inj ofC).1, ended]
      rw [same, here]
      rfl
    | cons token ahead =>
      have followers : followerOfGroup? 1 d.following = some follower ↔
          followerOfGroup? 1 c.following = some follower := by
        rw [(List.cons.inj ofC).2, (List.cons.inj ofD).2]
        exact (followerOfGroup?_append twin.closes ended goes other).symm
      rw [same, decide_eq_decide.mpr followers]
  · rcases twin.stops ended with ended' | closes
    · rw [ended, ended']
      rfl
    · rw [ended, closes]
      rfl

theorem sees_membersAhead (allowEmpty : Bool) : Sees tail (membersAhead allowEmpty) := by
  refine .reading (fun c => ?_) fun c d twin => ?_
  · split
    · split <;> exact ⟨_, rfl⟩
    · exact ⟨_, rfl⟩
  have colon : decide (d.kindAfter 1 = .mark .colon) = decide (c.kindAfter 1 = .mark .colon) :=
    twin.decide_kindAfter 1 (by decide) (by decide)
  rw [colon]
  rcases twin.cases with ⟨-, same, -⟩ | ⟨ended, -⟩
  · rw [same]
    rcases twin.kindAfter 0 with same | ⟨ended, ended' | closes⟩
    · rw [same]
    · rw [ended, ended']
    · rw [ended, closes]
  · rcases twin.stops ended with ended' | closes
    · rw [ended, ended']
      rfl
    · rw [ended, closes]
      rfl

theorem sees_infixAhead? (least : Nat) : Sees tail (infixAhead? least) := by
  refine .reading (fun c => ?_) fun c d twin => ?_
  · split
    · split <;> exact ⟨_, rfl⟩
    · exact ⟨_, rfl⟩
  rw [twin.restrictions]
  rcases twin.cases with ⟨-, same, -⟩ | ⟨ended, -⟩
  · rw [same]
  · rcases twin.stops ended with ended' | closes
    · rw [ended, ended']
    · rw [ended, closes]
      rfl

namespace Copies

/-! ### Taking tokens -/

theorem advance {f f' : Token → Parser β}
    (h : ∀ token, (weight token.kind).may owed →
      Copies tail whole ((weight token.kind).owing owed) (f token) (f' token))
    (stops : ∀ token, ¬ (weight token.kind).may owed → ∀ c r, f token c ≠ .ok r) :
    Copies tail whole owed (advance >>= f) (Parse.advance >>= f') := by
  intro c d twin
  by_cases may : (weight c.current.kind).may owed
  · refine .advance twin may fun token same => ?_
    rw [← same] at may ⊢
    exact h token may
  · exact .of_fails fun r => stops c.current may c.next r

theorem accept {f f' : Bool → Parser β} (goes : kind ≠ .finish) (may : (weight kind).may owed)
    (h : Copies tail whole ((weight kind).owing owed) (f true) (f' true))
    (h' : Copies tail whole owed (f false) (f' false))
    (barren : kind = .mark .rightParen → Barren (f false)) :
    Copies tail whole owed (accept kind >>= f) (Parse.accept kind >>= f') := by
  rw [Parse.accept, bind_assoc, bind_assoc]
  intro c d twin
  refine .check twin goes (fun at_ => ?_) (h' c d twin) barren
  exact CopiesAt.advance (f := fun _ => f true) (g := fun _ => f' true) twin (at_ ▸ may)
    fun _ _ => at_ ▸ h

theorem consume {f f' : Token → Parser β} {expected : String} (may : (weight kind).may owed)
    (h : ∀ token, Copies tail whole ((weight kind).owing owed) (f token) (f' token)) :
    Copies tail whole owed (consume kind expected >>= f) (Parse.consume kind expected >>= f') := by
  rw [Parse.consume, bind_assoc, bind_assoc]
  intro c d twin
  refine .check twin (fun ended => ?_) (fun at_ => ?_) (.of_fails fun _ => nofun) fun _ _ _ _ => nofun
  · rw [ended] at may
    exact may.elim
  · exact .advance twin (at_ ▸ may) fun token _ => at_ ▸ h token

theorem consumeName {f f' : String → Parser β} {expected : String}
    (h : ∀ name, Copies tail whole owed (f name) (f' name)) :
    Copies tail whole owed (consumeName expected >>= f) (Parse.consumeName expected >>= f') := by
  rw [Parse.consumeName, bind_assoc, bind_assoc]
  refine .peekKind (fun kind => ?_) rfl
  cases kind with
  | name name =>
    exact CopiesAhead.advance (f := fun _ => f name) (g := fun _ => f' name) trivial fun _ _ => h name
  | _ => exact .of_fails fun _ _ _ => nofun

/-! ### Surroundings -/

theorem node {form : ExprKind} {position : Position} :
    Copies tail whole 0 (node form position) (Parse.node form position) := by
  rintro c d twin _ _ ⟨⟩ -
  refine ⟨.of_same rfl, { d with nextId := d.nextId + 1 }, ?_, twin.tokens, twin.closes,
    twin.restrictions, congrArg Nat.succ twin.nextId, twin.depth⟩
  show Except.ok ((⟨d.nextId, position, form⟩ : Expr), _) = _
  rw [← twin.nextId]

/-- The surroundings may change for a while. -/
theorem surrounded (enter enter' : Cursor → Cursor) {leave leave' : Cursor → Cursor}
    (h : Copies tail whole owed p p') (into : (enter c).Twin tail (enter' d))
    (same : (enter c).tokens = c.tokens) (same' : ∀ c, (leave c).tokens = c.tokens)
    (back : ∀ c d, c.Twin tail d → (leave c).Twin tail (leave' d)) :
    CopiesAt tail whole owed (do
      modify enter
      let value ← p
      modify leave
      return value) (do
      modify enter'
      let value ← p'
      modify leave'
      return value) c d := by
  intro a c' run goesOn
  obtain ⟨_, _, ⟨⟩, run⟩ := exists_of_bind run
  obtain ⟨a, c'', read, run⟩ := exists_of_bind run
  obtain ⟨_, _, ⟨⟩, ⟨⟩⟩ := exists_of_bind run
  have current : (leave c'').current = c''.current := (List.cons.inj (same' c'')).1
  obtain ⟨⟨taken, passes, closes⟩, d', read', twin'⟩ := h _ _ into a c'' read (current ▸ goesOn)
  refine ⟨⟨taken, ?_, closes⟩, leave' d', ?_, back c'' d' twin'⟩
  · rw [← same, passes, same']
  · show (p' >>= fun value => do
      modify leave'
      return value) (enter' d) = _
    rw [bind_of_ok read']
    rfl

theorem restricting (restrictions : Restrictions) (h : Copies tail whole owed p p') :
    Copies tail whole owed (restricting restrictions p) (Parse.restricting restrictions p') :=
  .reading fun _ _ twin => h.surrounded _ _
    ⟨twin.tokens, twin.closes, rfl, twin.nextId, twin.depth⟩ rfl (fun _ => rfl) fun _ _ twin' =>
      ⟨twin'.tokens, twin'.closes, twin.restrictions, twin'.nextId, twin'.depth⟩

/-- A parser that goes deeper may start less deep. -/
theorem descending (h : Copies tail whole owed p p') :
    Copies tail whole owed (descending p) (Parse.descending p') := by
  refine .reading fun c d twin => ?_
  by_cases deep : maxDepth ≤ c.depth
  · rw [if_pos deep]
    exact .of_fails fun _ => nofun
  · have less : ¬ maxDepth ≤ d.depth := fun le => deep (Nat.le_trans le twin.depth)
    rw [if_neg deep, if_neg less]
    exact h.surrounded (fun c => { c with depth := c.depth + 1 })
      (fun c => { c with depth := c.depth + 1 })
      ⟨twin.tokens, twin.closes, twin.restrictions, twin.nextId, Nat.succ_le_succ twin.depth⟩ rfl
      (fun _ => rfl) fun c' d' twin' => ⟨twin'.tokens, twin'.closes, twin'.restrictions,
        twin'.nextId, Nat.sub_le_sub_right twin'.depth 1⟩

/-! ### Repetition -/

theorem loop {step step' : σ → Parser (σ ⊕ α)} (h : ∀ s, Copies tail true 0 (step s) (step' s))
    {fuel fuel' : Nat} (le : fuel ≤ fuel') (s : σ) :
    Copies tail whole 0 (loop step fuel s) (Parse.loop step' fuel' s) := by
  induction fuel generalizing fuel' s with
  | zero => exact .of_fails fun _ _ => nofun
  | succ fuel ih =>
    obtain ⟨more, rfl⟩ := Nat.exists_eq_add_of_lt le
    refine (h s).bind fun next => ?_
    cases next with
    | inl s => exact ih (Nat.le_add_right fuel more) s
    | inr a => exact .ret

theorem repeating {step step' : σ → Parser (σ ⊕ α)} (h : ∀ s, Copies tail true 0 (step s) (step' s))
    (s : σ) : Copies tail whole 0 (repeating step s) (Parse.repeating step' s) :=
  .reading fun c d twin => loop h (Nat.add_le_add_right twin.length_le 2) s c d twin

/-! ### Up to the end -/

/-- What comes next need not be known where the tokens end, if that is where it stays. -/
theorem bind_inside (h : Copies tail false 0 p p')
    (goesOn : ∀ a c b c', f a c = .ok (b, c') → (whole = true ∨ c'.current.kind ≠ .finish) →
      c.current.kind ≠ .finish)
    (h' : ∀ a, Copies tail whole owed (f a) (f' a)) :
    Copies tail whole owed (p >>= f) (p' >>= f') := by
  intro c d twin b c'' run asked
  obtain ⟨a, c', first, second⟩ := exists_of_bind run
  obtain ⟨passes, d', first', twin'⟩ := h c d twin a c' first (.inr (goesOn a c' b c'' second asked))
  obtain ⟨passes', d'', second', twin''⟩ := h' a c' d' twin' b c'' second asked
  exact ⟨passes.trans passes', d'', (bind_of_ok first').trans second', twin''⟩

/-- Where the tokens end something else may be done, if it stays there. -/
theorem glance {f g : TokenKind → Parser β}
    (h : ∀ kind, CopiesAhead tail kind false owed (f kind) (g kind))
    (stays : ∀ c r, c.current.kind = .finish → f .finish c = .ok r → r.2.current.kind = .finish) :
    Copies tail false owed (Parse.peekKind >>= f) (Parse.peekKind >>= g) := by
  intro c d twin
  rcases twin.cases with ⟨-, same, -⟩ | ⟨ended, -⟩
  · exact .look (a := c.current.kind) (b := c.current.kind) rfl
      (congrArg (fun t : Token => Except.ok (t.kind, d)) same) (h _ c d twin rfl)
  · intro b c' run goesOn
    have run : f c.current.kind c = .ok (b, c') := run
    rw [ended] at run
    exact absurd (stays c _ ended run) (goesOn.resolve_left Bool.false_ne_true)

theorem atFinish {f f' : Bool → Parser β} (h : ∀ ended, Copies tail false owed (f ended) (f' ended))
    (stays : ∀ c r, c.current.kind = .finish → f true c = .ok r → r.2.current.kind = .finish) :
    Copies tail false owed (Parse.atFinish >>= f) (Parse.atFinish >>= f') :=
  glance (f := fun kind => f (decide (kind = .finish))) (g := fun kind => f' (decide (kind = .finish)))
    (fun _ => (h _).ahead) stays

/-- What fails at the end of the tokens makes up for what is not known there. -/
theorem sealed (h : Copies tail false 0 p p') (barren : ∀ a, Barren (f a))
    (h' : ∀ a, Copies tail whole owed (f a) (f' a)) :
    Copies tail whole owed (p >>= f) (p' >>= f') :=
  h.bind_inside (fun a c _ _ run _ ended => barren a c ended _ run) h'

/-- A step that ends the repetition where the tokens end may do something else in the place of that. -/
theorem repeating_to_end {step step' : σ → Parser (σ ⊕ α)}
    (h : ∀ s, Copies tail false 0 (step s) (step' s))
    (ends : ∀ s c r, c.current.kind = .finish → step s c = .ok r → ∃ a, r = (.inr a, c)) (s : σ) :
    Copies tail false 0 (Parse.repeating step s) (Parse.repeating step' s) := by
  have stays {fuel : Nat} {s : σ} {c c' : Cursor} {b : α} (ended : c.current.kind = .finish)
      (run : Parse.loop step fuel s c = .ok (b, c')) : c' = c := by
    cases fuel with
    | zero => cases run
    | succ fuel =>
      obtain ⟨next, c'', first, second⟩ := exists_of_bind run
      obtain ⟨a, same⟩ := ends s c _ ended first
      cases same
      cases second
      rfl
  have rounds (fuel : Nat) : ∀ fuel' s, fuel ≤ fuel' →
      Copies tail false 0 (Parse.loop step fuel s) (Parse.loop step' fuel' s) := by
    induction fuel with
    | zero => exact fun _ _ _ => .of_fails fun _ _ => nofun
    | succ fuel ih =>
      intro fuel' s le
      obtain ⟨more, rfl⟩ := Nat.exists_eq_add_of_lt le
      refine (h s).bind_inside (fun next c b c' run asked ended => ?_) fun next => ?_
      · have goesOn := asked.resolve_left Bool.false_ne_true
        cases next with
        | inl s => exact goesOn ((stays ended run).symm ▸ ended)
        | inr a =>
          cases run
          exact goesOn ended
      · cases next with
        | inl s => exact ih _ s (Nat.le_add_right fuel more)
        | inr a => exact .ret
  exact .reading fun c d twin => rounds _ _ s (Nat.add_le_add_right twin.length_le 2) c d twin

end Copies

/-- What passes all tokens from one cursor passes them from its twin too, and stops in front of what
follows them. -/
theorem Copies.to_end {ahead : List Token} {last : Token} {a : α} (h : Copies tail true 0 p p')
    (twin : c.Twin tail d) (front : c.tokens = ahead ++ [last]) (run : p c = .ok (a, c'))
    (ended : c'.current.kind = .finish) :
    Closes 0 ahead ∧ ∃ d', p' d = .ok (a, d') ∧ d'.tokens = tail := by
  obtain ⟨⟨taken, passed, closes⟩, d', run', twin'⟩ := h c d twin a c' run (.inl rfl)
  rcases twin'.cases with ⟨inside, -⟩ | ⟨-, none, same, -⟩
  · exact absurd ended inside
  · have whole : ahead ++ [last] = taken ++ [c'.current] := by
      rw [← front, passed, Cursor.tokens, none]
    obtain rfl := List.append_inj_left' whole rfl
    exact ⟨closes, d', run', same⟩

/-! ## What fails at the end -/

theorem Barren.bind (h : Barren p) : Barren (p >>= f) := by
  intro c ended ⟨b, c''⟩ run
  obtain ⟨a, c', first, -⟩ := exists_of_bind run
  exact h c ended _ first

theorem Barren.look (looks : Looks p) (h : ∀ a, Barren (f a)) : Barren (p >>= f) := by
  intro c ended r run
  obtain ⟨a, sees⟩ := looks c
  exact h a c ended r ((bind_of_ok sees).symm.trans run)

theorem Barren.peek {f : Token → Parser β} (h : ∀ token, token.kind = .finish → Barren (f token)) :
    Barren (peek >>= f) :=
  fun c ended => h c.current ended c ended

theorem Barren.advance {f : Token → Parser β}
    (h : ∀ token, token.kind = .finish → ∀ c r, f token c ≠ .ok r) : Barren (advance >>= f) :=
  fun c ended => h c.current ended c.next

theorem Barren.restricting (restrictions : Restrictions) (h : Barren p) :
    Barren (restricting restrictions p) := by
  intro c ended ⟨a, c'⟩ run
  obtain ⟨_, _, ⟨⟩, run⟩ := exists_of_bind run
  obtain ⟨_, _, ⟨⟩, run⟩ := exists_of_bind run
  obtain ⟨_, _, read, -⟩ := exists_of_bind run
  exact h { c with restrictions } ended _ read

theorem Barren.descending (h : Barren p) : Barren (descending p) := by
  refine .look looks_get fun c => ?_
  split
  · exact fun _ _ _ => nofun
  · intro c ended ⟨a, c'⟩ run
    obtain ⟨_, _, ⟨⟩, run⟩ := exists_of_bind run
    obtain ⟨_, _, read, -⟩ := exists_of_bind run
    exact h { c with depth := c.depth + 1 } ended _ read

theorem check_of_ne (other : c.current.kind ≠ kind) : check kind c = .ok (false, c) :=
  congrArg (fun b => Except.ok (b, c)) (decide_eq_false other)

theorem accept_of_ne (other : c.current.kind ≠ kind) : accept kind c = .ok (false, c) := by
  rw [accept, bind_of_ok (check_of_ne other)]
  rfl

theorem barren_consume (goes : kind ≠ .finish) (expected : String) : Barren (consume kind expected) := by
  intro c ended r run
  have other : c.current.kind ≠ kind := ended ▸ goes.symm
  rw [consume, bind_of_ok (check_of_ne other)] at run
  cases run

theorem barren_consumeMark (mark : Mark) (expected : String) : Barren (consumeMark mark expected) :=
  barren_consume mark_ne_finish expected

theorem barren_consumeName (expected : String) : Barren (consumeName expected) := by
  intro c ended r run
  rw [consumeName, peekKind_bind, ended] at run
  cases run

end ScriptEngine.Parse
