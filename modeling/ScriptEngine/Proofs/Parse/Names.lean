import ScriptEngine.Proofs.Display.Lexing
import ScriptEngine.Proofs.Parse.Accepted
import ScriptEngine.Proofs.Parse.Moving
import ScriptEngine.Proofs.Token.Spacing

/-!
# Names come from the source

The names that a pattern binds are names among the tokens that it is read from. So they are written
as the lexer takes names, and none of them is reserved.

* `Token.IsName`, `Token.isName_of_mem`: the names among the tokens of a source.
* `Draws`: what a parser gives from tokens that are all as a predicate says.
* `draws_patternStep`, `isName_of_pattern`: the names that a pattern binds.
-/

namespace ScriptEngine

/-! ## Names of a source -/

namespace Token

/-- A name as the lexer takes it from a source. -/
structure IsName (name : String) : Prop where
  begins : ∃ c rest, name.toList = c :: rest ∧ isWordStart c = true
  parts : name.toList.all isNamePart = true
  free : Keyword.ofText? name = none

theorem name_of_wordKind {text name : String} (h : wordKind text = .name name) :
    text = name ∧ Keyword.ofText? name = none := by
  unfold wordKind at h
  split at h
  · cases h
  · next free =>
    obtain rfl := TokenKind.name.inj h
    exact ⟨rfl, free⟩

/-- A name that is read again from its lexeme is as the lexer takes names. -/
theorem Again.isName {dot : Bool} {t : Token} {name : String} (again : t.Again dot)
    (kind : t.kind = .name name) : IsName name := by
  have read := again.scan .start [] .nil
  have stands := again.stands [] .nil
  rw [kind, List.append_nil] at read
  rw [List.append_nil] at stands
  obtain ⟨c, rest, lexeme⟩ := List.exists_cons_of_ne_nil again.ne_nil
  rw [lexeme] at read stands
  have blank := stands.solid c rest rfl
  rw [Token.scan] at read
  split at read
  · obtain ⟨⟨content, string⟩, -⟩ := takesString_of_ok read
    cases string
  · next unquoted =>
    split at read
    · cases congrArg Scan.kind (Except.ok.inj read)
    · next digit =>
      split at read
      · next start =>
        obtain ⟨same, free⟩ := name_of_wordKind (congrArg Scan.kind (Except.ok.inj read))
        have slash : c ≠ '/' := by
          rintro rfl
          cases start
        have chars : name.toList = c :: rest.takeWhile isNamePart := by
          rw [← same, String.toList_ofList, List.takeWhile_cons_of_pos (isNamePart_of_start start)]
        refine ⟨⟨c, _, chars, ?_⟩, ?_, free⟩
        · simp only [Bool.or_eq_true, decide_eq_true_eq, not_or] at unquoted
          simp [isWordStart, blank, slash, unquoted, digit, start]
        · rw [← same, String.toList_ofList]
          exact List.all_takeWhile
      · split at read
        · next found =>
          obtain ⟨_, _, rfl⟩ := Option.map_eq_some_iff.mp found
          cases congrArg Scan.kind (Except.ok.inj read)
        · cases read

theorem Chain.exists_again {dot : Bool} {words : List Token} (h : Chain dot words) :
    ∀ t ∈ words, ∃ behind, t.Again behind := by
  induction h with
  | nil => nofun
  | cons again _ ih => exact List.forall_mem_cons.mpr ⟨⟨_, again⟩, ih⟩

/-- Names among the tokens of a source are as the lexer takes them. -/
theorem isName_of_mem {source : String} {tokens : List Token} (h : ofSource source = .ok tokens)
    {t : Token} (mem : t ∈ tokens) {name : String} (kind : t.kind = .name name) : IsName name := by
  obtain ⟨words, finish, rfl, chain, ended⟩ := chain_of_scanAll (length_toList_lt source) h
  rw [List.reverse_nil, List.nil_append] at mem
  rcases List.mem_append.mp mem with word | last
  · obtain ⟨behind, again⟩ := chain.exists_again t word
    exact again.isName kind
  · obtain rfl := List.mem_singleton.mp last
    have finishes : t.kind = .finish := congrArg Prod.fst ended
    rw [finishes] at kind
    cases kind

end Token

/-! ## Names of a pattern -/

namespace Parse

variable {α β σ : Type} {T : Token → Prop} {P : α → Prop} {Q : β → Prop} {p : Parser α}
  {f : α → Parser β}

/-- From tokens that are all as `T` says, what a parser gives is as `P` says, and it leaves some of
them. -/
def Draws (T : Token → Prop) (P : α → Prop) (p : Parser α) : Prop :=
  ∀ c : Cursor, (∀ t ∈ c.tokens, T t) → ∀ a c', p c = .ok (a, c') → P a ∧ ∀ t ∈ c'.tokens, T t

theorem Draws.bind (h : Draws T P p) (h' : ∀ a, P a → Draws T Q (f a)) : Draws T Q (p >>= f) := by
  intro c all b c'' read
  obtain ⟨a, c', first, second⟩ := exists_of_bind read
  obtain ⟨holds, left⟩ := h c all a c' first
  exact h' a holds c' left b c'' second

theorem Draws.imp {P' : α → Prop} (h : Draws T P p) (weaker : ∀ a, P a → P' a) : Draws T P' p := by
  intro c all a c' read
  obtain ⟨holds, left⟩ := h c all a c' read
  exact ⟨weaker a holds, left⟩

theorem Draws.ret {a : α} (h : P a) : Draws T P (pure a) := by
  intro c all b c' read
  cases read
  exact ⟨h, all⟩

theorem draws_fail {error : ParseError} : Draws T P (fail error) := by
  intro c all a c' read
  cases read

theorem draws_get : Draws T (fun c => ∀ t ∈ c.tokens, T t) get := by
  intro c all a c' read
  cases read
  exact ⟨all, all⟩

theorem draws_next : Draws T (fun _ => True) (modify Cursor.next) := by
  intro c all a c' read
  cases read
  obtain ⟨taken, same, -⟩ := (Cursor.moves_next c).taken
  refine ⟨trivial, fun t mem => all t ?_⟩
  rw [same]
  exact List.mem_append_right taken mem

theorem draws_peek : Draws T T peek :=
  draws_get.bind fun c all => .ret (all c.current List.mem_cons_self)

theorem draws_advance : Draws T T advance :=
  draws_peek.bind fun _ holds => draws_next.bind fun _ _ => .ret holds

theorem draws_check (kind : TokenKind) : Draws T (fun _ => True) (check kind) :=
  draws_get.bind fun _ _ => .ret trivial

theorem draws_accept (kind : TokenKind) : Draws T (fun _ => True) (accept kind) := by
  refine (draws_check kind).bind fun found _ => ?_
  cases found with
  | true => exact draws_next.bind fun _ _ => .ret trivial
  | false => exact .ret trivial

theorem draws_consumeMark (mark : Mark) (expected : String) :
    Draws T (fun _ => True) (consumeMark mark expected) := by
  refine (draws_check _).bind fun found _ => ?_
  cases found with
  | true => exact draws_advance.imp fun _ _ => trivial
  | false => exact draws_peek.bind fun _ _ => draws_fail

theorem Draws.loop {I : σ → Prop} {step : σ → Parser (σ ⊕ α)}
    (h : ∀ s, I s → Draws T (Sum.elim I P) (step s)) (fuel : Nat) {s : σ} (holds : I s) :
    Draws T P (loop step fuel s) := by
  induction fuel generalizing s with
  | zero =>
    intro c all a c' read
    cases read
  | succ fuel ih =>
    refine (h s holds).bind fun next follows => ?_
    cases next with
    | inl s => exact ih follows
    | inr a => exact .ret follows

section

variable {N : String → Prop}
  (named : ∀ t name, T t → t.kind = .name name → name ≠ "_" → N name)

/-- The names that a pattern binds are all as `N` says. -/
def BindsOnly (N : String → Prop) (p : Pattern) : Prop := ∀ name ∈ p.bindings, N name

theorem forall_mem_bindingsOfAll {items : List Pattern} :
    (∀ name ∈ Pattern.bindingsOfAll items, N name) ↔ Each (BindsOnly N) items := by
  induction items with
  | nil => simp [Pattern.bindingsOfAll, Each]
  | cons item items ih =>
    rw [Pattern.bindingsOfAll, List.forall_mem_append, ih]
    unfold Each
    rw [List.forall_mem_cons]
    rfl

variable {pattern : Parser Pattern} (h : Draws T (BindsOnly N) pattern)

include h

theorem draws_patternItems (close : Mark) :
    Draws T (Each (BindsOnly N)) (patternItems pattern close) := by
  have round (items : List Pattern) (sound : Each (BindsOnly N) items) :
      Draws T (Sum.elim (Each (BindsOnly N)) (Each (BindsOnly N))) (do
        if ← accept (.mark .comma) then
          if ← check (.mark close) then return .inr items
          else return .inl (items ++ [← pattern])
        else return .inr items) := by
    refine (draws_accept _).bind fun comma _ => ?_
    cases comma with
    | false => exact .ret sound
    | true =>
      refine (draws_check _).bind fun mark _ => ?_
      cases mark with
      | true => exact .ret sound
      | false => exact h.bind fun item binds => .ret (sound.push binds)
  refine h.bind fun first binds => ?_
  refine Draws.bind (P := Each (BindsOnly N)) ?_ fun items sound => ?_
  · exact draws_get.bind fun _ _ => .loop round _ (.singleton binds)
  · refine (draws_consumeMark close _).bind fun _ _ => ?_
    dsimp only
    split
    · exact draws_get.bind fun _ _ => Draws.bind (P := fun _ => True) draws_fail fun _ _ => .ret sound
    · exact .ret sound

include named

/-- A pattern binds names among the tokens that it is read from. -/
theorem draws_patternStep : Draws T (BindsOnly N) (patternStep pattern) := by
  have none : BindsOnly N .wildcard := List.forall_mem_nil _
  refine draws_advance.bind fun token holds => ?_
  split
  · next name kind =>
    refine .ret ?_
    split
    · exact none
    · next bound => exact List.forall_mem_singleton.mpr (named token name holds kind bound)
  · exact .ret none
  · exact .ret none
  · exact .ret none
  · exact .ret none
  · exact .ret none
  · exact .ret none
  · refine draws_advance.bind fun number _ => ?_
    split
    · exact .ret none
    · exact draws_fail
  · refine (draws_accept _).bind fun found _ => ?_
    cases found with
    | true => exact .ret none
    | false =>
      refine (draws_patternItems h _).bind fun items binds => ?_
      split
      · next item =>
        refine .ret ?_
        split
        · exact forall_mem_bindingsOfAll.mpr binds
        · exact List.forall_mem_singleton.mp binds
      · exact .ret (forall_mem_bindingsOfAll.mpr binds)
  · refine (draws_accept _).bind fun found _ => ?_
    cases found with
    | true => exact .ret none
    | false =>
      exact (draws_patternItems h _).bind fun items binds => .ret (forall_mem_bindingsOfAll.mpr binds)
  · exact draws_fail

end

/-- The names that a pattern binds are as the lexer takes them from the source. -/
theorem isName_of_pattern {source : String} {tokens : List Token}
    (lexed : Token.ofSource source = .ok tokens) {fuel : Nat} {c c' : Cursor} {p : Pattern}
    (within : ∀ t ∈ c.tokens, t ∈ tokens)
    (read : (Grammar.fuelled fuel).pattern c = .ok (p, c')) :
    ∀ name ∈ p.bindings, Token.IsName name ∧ name ≠ "_" := by
  have draws (fuel : Nat) : Draws (· ∈ tokens)
      (BindsOnly fun name => Token.IsName name ∧ name ≠ "_") (Grammar.fuelled fuel).pattern := by
    induction fuel with
    | zero =>
      intro c all p c' read
      cases read
    | succ fuel ih =>
      exact draws_patternStep
        (fun t name mem kind bound => ⟨Token.isName_of_mem lexed mem kind, bound⟩) ih
  exact (draws fuel c within p c' read).1

end Parse

end ScriptEngine
