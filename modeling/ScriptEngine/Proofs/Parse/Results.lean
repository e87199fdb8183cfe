import ScriptEngine.Parse.Module
import ScriptEngine.Proofs.Tree.WellFormed

/-!
# What parsers give

A parser that succeeds gives a tree that is as the checks on its way say. `Gives` says so of a
parser, from any cursor: there is one rule for each way to compose parsers, and one lemma for each
form of pattern and expression, if the grammar inside it gives well-formed trees.

* `Gives`: every result of a parser is as a predicate says.
* `Gives.bind`, `Gives.repeating`, `Gives.restricting`, `Gives.descending`: composed parsers.
* `Each`, `Gives.collecting`: lists that are read item by item.
* `Form.WellFormed`, `Grammar.Sound`: the trees of a form are well formed, and those of all forms.
* `gives_patternStep`, `gives_primary`, `gives_assignmentStep` and the others: the forms of patterns
  and expressions.
-/

namespace ScriptEngine.Parse

variable {α β σ : Type}

/-- Whatever a parser gives from a cursor is as `P` says. -/
def GivesAt (c : Cursor) (P : α → Prop) (p : Parser α) : Prop :=
  ∀ a c', p c = .ok (a, c') → P a

/-- So it is from any cursor. -/
def Gives (P : α → Prop) (p : Parser α) : Prop :=
  ∀ c, GivesAt c P p

variable {P : α → Prop} {Q : β → Prop} {p : Parser α} {f : α → Parser β}

/-! ## Parts -/

/-- A parser made of two succeeds if both do. -/
theorem exists_of_bind {c c' : Cursor} {b : β} (h : (p >>= f) c = .ok (b, c')) :
    ∃ a c'', p c = .ok (a, c'') ∧ f a c'' = .ok (b, c') := by
  simp only [Bind.bind, StateT.bind] at h
  cases first : p c with
  | error stop =>
    rw [first] at h
    cases h
  | ok read =>
    rw [first] at h
    exact ⟨read.1, read.2, rfl, h⟩

theorem GivesAt.bind {c : Cursor} (h : GivesAt c P p) (h' : ∀ a, P a → Gives Q (f a)) :
    GivesAt c Q (p >>= f) := by
  intro b c' read
  obtain ⟨a, c'', first, second⟩ := exists_of_bind read
  exact h' a (h a c'' first) c'' b c' second

theorem Gives.bind (h : Gives P p) (h' : ∀ a, P a → Gives Q (f a)) : Gives Q (p >>= f) :=
  fun c => (h c).bind h'

/-- Nothing is used of the first result. -/
theorem Gives.next (h : ∀ a, Gives Q (f a)) : Gives Q (p >>= f) := by
  intro c b c' read
  obtain ⟨a, c'', -, second⟩ := exists_of_bind read
  exact h a c'' b c' second

theorem Gives.ret {a : α} (h : P a) : Gives P (pure a) := by
  intro c b c' read
  cases read
  exact h

theorem Gives.ret_bind {a : α} (h : Gives Q (f a)) : Gives Q (pure a >>= f) :=
  h

/-- What comes next may depend on the cursor that is read. -/
theorem Gives.reading {f : Cursor → Parser β} (h : ∀ c, GivesAt c Q (f c)) :
    Gives Q (get >>= f) :=
  h

theorem GivesAt.anywhere {c : Cursor} (h : Gives P p) : GivesAt c P p :=
  h c

theorem Gives.imp {P' : α → Prop} (h : Gives P p) (weaker : ∀ a, P a → P' a) : Gives P' p :=
  fun c a c' read => weaker a (h c a c' read)

theorem gives_fail {error : ParseError} : Gives P (fail error) := by
  intro c a c' read
  cases read

theorem Gives.fail_bind {error : ParseError} : Gives Q ((fail error : Parser α) >>= f) :=
  gives_fail (P := fun _ => False) |>.bind fun _ none => none.elim

theorem gives_unexpected {expected : String} : Gives P (unexpected expected) :=
  .next fun _ => gives_fail

theorem Gives.unexpected_bind {expected : String} :
    Gives Q ((unexpected expected : Parser α) >>= f) :=
  gives_unexpected (P := fun _ => False) |>.bind fun _ none => none.elim

theorem gives_unfinished : Gives P (throw .unfinished) := by
  intro c a c' read
  cases read

theorem Gives.restricting (restrictions : Restrictions) (h : Gives P p) :
    Gives P (restricting restrictions p) :=
  .next fun _ => .next fun _ => h.bind fun _ value => .next fun _ => .ret value

theorem Gives.descending (h : Gives P p) : Gives P (descending p) := by
  have deeper : Gives P (do
      modify fun c => { c with depth := c.depth + 1 }
      let value ← p
      modify fun c => { c with depth := c.depth - 1 }
      return value) :=
    .next fun _ => h.bind fun _ value => .next fun _ => .ret value
  refine .next fun c => ?_
  split
  · exact .next fun _ => .fail_bind
  · exact deeper

/-- A node is as well formed as its kind. -/
theorem gives_node {kind : ExprKind} {position : Position} (h : kind.WellFormed) :
    Gives Expr.WellFormed (node kind position) :=
  .next fun _ => .next fun _ => .ret h

/-- What every round of a repeated step keeps holds when it ends. -/
theorem Gives.loop {I : σ → Prop} {step : σ → Parser (σ ⊕ α)}
    (h : ∀ s, I s → Gives (Sum.elim I P) (step s)) (fuel : Nat) {s : σ} (holds : I s) :
    Gives P (loop step fuel s) := by
  induction fuel generalizing s with
  | zero => exact gives_unfinished
  | succ fuel ih =>
    refine (h s holds).bind fun next follows => ?_
    cases next with
    | inl s => exact ih follows
    | inr a => exact .ret follows

theorem Gives.repeating {I : σ → Prop} {step : σ → Parser (σ ⊕ α)} {s : σ}
    (h : ∀ s, I s → Gives (Sum.elim I P) (step s)) (holds : I s) : Gives P (repeating step s) :=
  .next fun _ => .loop h _ holds

/-- Each of what has been read is as `P` says. -/
def Each (P : α → Prop) (as : List α) : Prop := ∀ a ∈ as, P a

theorem Each.nil : Each P [] := List.forall_mem_nil _

theorem Each.singleton {a : α} (h : P a) : Each P [a] := List.forall_mem_singleton.mpr h

theorem Each.push {as : List α} {a : α} (h : Each P as) (last : P a) : Each P (as ++ [a]) :=
  List.forall_mem_append.mpr ⟨h, Each.singleton last⟩

/-- A list is read item by item. -/
theorem Gives.collecting {step : List α → Parser (List α ⊕ List α)} {as : List α}
    (h : ∀ as, Each P as → Gives (Sum.elim (Each P) (Each P)) (step as)) (begun : Each P as) :
    Gives (Each P) (Parse.repeating step as) :=
  .repeating h begun

/-- Behind an item a list ends, unless a comma stands there and no closing mark behind it. -/
theorem gives_anotherItem {close : Mark} {done closed : α} {more : Parser α} (ends : P done)
    (closes : P closed) (h : Gives P more) : Gives P (do
      if ← accept (.mark .comma) then
        if ← check (.mark close) then return closed else more
      else return done) := by
  refine .next fun comma => ?_
  cases comma with
  | false => exact .ret ends
  | true =>
    refine .next fun mark => ?_
    cases mark with
    | true => exact .ret closes
    | false => exact h

/-! ## Patterns -/

section

variable {pattern : Parser Pattern} (h : Gives Pattern.WellFormed pattern)

include h

theorem gives_patternItems (close : Mark) :
    Gives (fun items => items ≠ [] ∧ Pattern.RestsOnce items ∧ Pattern.AllWellFormed items)
      (patternItems pattern close) := by
  refine h.bind fun first wellFormed => ?_
  have begun : [first] ≠ [] ∧ Each Pattern.WellFormed [first] :=
    ⟨List.cons_ne_nil _ _, .singleton wellFormed⟩
  refine (Gives.repeating (I := fun items => items ≠ [] ∧ Each Pattern.WellFormed items)
    (P := fun items => items ≠ [] ∧ Each Pattern.WellFormed items) ?_ begun).bind
      fun items sound => ?_
  · intro items sound
    exact gives_anotherItem sound sound (h.bind fun item wellFormed => .ret
      ⟨List.append_ne_nil_of_right_ne_nil _ (List.cons_ne_nil _ _), sound.2.push wellFormed⟩)
  · refine .next fun _ => ?_
    dsimp only
    split
    · exact .next fun _ => .fail_bind
    · next few =>
      have once : Pattern.RestsOnce items := by
        rw [Pattern.RestsOnce, List.countP_eq_length_filter]
        exact Nat.le_of_not_lt few
      exact .ret ⟨sound.1, once, Pattern.allWellFormed_iff.mpr sound.2⟩

theorem gives_patternStep : Gives Pattern.WellFormed (patternStep pattern) := by
  refine .next fun token => ?_
  split
  · next name _ =>
    refine .ret ?_
    split <;> trivial
  · exact .ret trivial
  · exact .ret trivial
  · exact .ret trivial
  · exact .ret trivial
  · exact .ret trivial
  · exact .ret trivial
  · refine .next fun number => ?_
    split
    · exact .ret trivial
    · exact gives_fail
  · refine .next fun found => ?_
    cases found with
    | true => exact .ret trivial
    | false =>
      refine (gives_patternItems h _).bind fun items ⟨filled, once, wellFormed⟩ => ?_
      split
      · next item =>
        -- A single item in parentheses is that item, so a tuple of it has the mark for the rest.
        refine .ret ?_
        split
        · next rest =>
          refine ⟨⟨filled, fun other same => ?_⟩, once, wellFormed⟩
          exact (List.singleton_inj.mp same).symm.trans (Pattern.eq_rest_of_isRest rest)
        · exact wellFormed.1
      · next several =>
        exact .ret ⟨⟨filled, fun item same => (several item same).elim⟩, once, wellFormed⟩
  · refine .next fun found => ?_
    cases found with
    | true => exact .ret ⟨Nat.zero_le _, trivial⟩
    | false => exact (gives_patternItems h _).bind fun _ items => .ret items.2
  · exact gives_fail

end

/-! ## Grammars -/

/-- The trees of a form are well formed. -/
def Form.WellFormed : {α : Type} → Form α → α → Prop
  | _, .pattern => Pattern.WellFormed
  | _, .expression | _, .assignment | _, .conditional | _, .infixFrom _ | _, .unary =>
    Expr.WellFormed
  | _, .block => Block.WellFormed
  | _, .branch => StmtKind.WellFormed
  | _, .statement => Stmt.WellFormed

/-- A grammar gives well-formed trees, whatever the form. -/
def Grammar.Sound (g : Grammar) : Prop :=
  ∀ {α : Type} (form : Form α), Gives form.WellFormed (g.read form)

variable {g : Grammar}

namespace Grammar.Sound

theorem pattern (h : g.Sound) : Gives Pattern.WellFormed g.pattern := h .pattern

theorem expression (h : g.Sound) : Gives Expr.WellFormed g.expression := h .expression

theorem assignment (h : g.Sound) : Gives Expr.WellFormed g.assignment := h .assignment

theorem conditional (h : g.Sound) : Gives Expr.WellFormed g.conditional := h .conditional

theorem infixFrom (h : g.Sound) (least : Nat) : Gives Expr.WellFormed (g.infixFrom least) :=
  h (.infixFrom least)

theorem unary (h : g.Sound) : Gives Expr.WellFormed g.unary := h .unary

theorem block (h : g.Sound) : Gives Block.WellFormed g.block := h .block

theorem branch (h : g.Sound) : Gives StmtKind.WellFormed g.branch := h .branch

theorem statement (h : g.Sound) : Gives Stmt.WellFormed g.statement := h .statement

end Grammar.Sound

/-! ## Members, functions and arms -/

theorem gives_parameters : Gives DistinctParams parameters := by
  refine .next fun _ => ?_
  refine (Gives.repeating (I := DistinctParams) (P := DistinctParams) ?_
    .nil).bind fun params distinct => .next fun _ => .ret distinct
  intro params distinct
  refine .next fun closes => ?_
  cases closes with
  | true => exact .ret distinct
  | false =>
    refine .next fun position => .next fun name => ?_
    dsimp only
    split
    · exact .fail_bind
    · next fresh =>
      have more : DistinctParams (params ++ [name]) := distinct.push (by simpa using fresh)
      refine .next fun found => ?_
      cases found with
      | true => exact .ret more
      | false => exact .ret more

section

variable (h : g.Sound)

include h

theorem gives_header : Gives Expr.WellFormed (header g) :=
  h.expression.restricting _

theorem gives_nested : Gives Expr.WellFormed (nested g) :=
  h.expression.restricting _

theorem gives_entityMembers :
    Gives (fun members => MemberInit.Distinct members ∧ MemberInit.AllWellFormed members)
      (entityMembers g) := by
  refine .next fun _ => ?_
  refine ((Gives.repeating
    (I := fun members => MemberInit.Distinct members ∧ Each MemberInit.WellFormed members)
    (P := fun members => MemberInit.Distinct members ∧ Each MemberInit.WellFormed members)
    ?_ ⟨.nil, .nil⟩).restricting _).bind fun members sound =>
      .next fun _ => .ret ⟨sound.1, MemberInit.allWellFormed_iff.mpr sound.2⟩
  intro members sound
  refine .next fun closes => ?_
  cases closes with
  | true => exact .ret sound
  | false =>
    refine .next ?_
    rintro ⟨name, position⟩
    dsimp only
    split
    · exact .fail_bind
    · next fresh =>
      refine .next fun _ => h.expression.bind fun value wellFormed => .next fun found => ?_
      have distinct : MemberInit.Distinct (members ++ [⟨name, value, position⟩]) :=
        sound.1.push (by simpa using fresh)
      have more : Each MemberInit.WellFormed (members ++ [⟨name, value, position⟩]) :=
        sound.2.push wellFormed
      cases found with
      | true => exact .ret ⟨distinct, more⟩
      | false => exact .ret ⟨distinct, more⟩

theorem gives_lambdaBody : Gives Body.WellFormed (lambdaBody g) := by
  refine .next fun opens => .next fun members => ?_
  split
  · exact h.block.bind fun _ wellFormed => .ret wellFormed
  · exact h.expression.bind fun _ wellFormed => .ret wellFormed

/-- A function has the name that stood in front of its parameters. -/
theorem gives_functionRest (start : Token) (name : Option String) :
    Gives (fun definition => definition.WellFormed ∧ definition.name = name) (do
      let params ← parameters
      let body ← do
        if ← accept (.mark .fatArrow) then lambdaBody g else pure (Body.block (← g.block))
      return (⟨name, params, body, start.position⟩ : FunctionDef)) := by
  refine gives_parameters.bind fun params distinct => .next fun found => ?_
  cases found with
  | true =>
    exact (gives_lambdaBody h).bind fun body wellFormed => .ret ⟨⟨distinct, wellFormed⟩, rfl⟩
  | false =>
    exact h.block.bind fun body wellFormed => .ret_bind (.ret ⟨⟨distinct, wellFormed⟩, rfl⟩)

theorem gives_functionDef : Gives FunctionDef.WellFormed (functionDef g) := by
  have named (start : Token) (name : Option String) := (gives_functionRest h start name).imp
    fun _ sound => sound.1
  refine .next fun start => .next fun kind => ?_
  cases kind with
  | name name => exact .next fun _ => named start (some name)
  | _ => exact named start none

theorem gives_armBody : Gives Body.WellFormed (armBody g) := by
  refine .next fun opens => .next fun members => ?_
  split
  · exact h.block.bind fun _ wellFormed => .ret wellFormed
  · exact (h.expression.restricting _).bind fun _ wellFormed => .ret wellFormed

theorem gives_matchArms : Gives Arm.AllWellFormed (matchArms g) := by
  refine .next fun _ => ?_
  refine (Gives.collecting (P := Arm.WellFormed) ?_ .nil).bind fun arms sound =>
    .next fun _ => .ret (Arm.allWellFormed_iff.mpr sound)
  intro arms sound
  refine .next fun closes => .next fun finished => ?_
  split
  · exact .ret sound
  · refine .next fun position => .next fun barred => ?_
    dsimp only
    split
    · exact .unexpected_bind
    · refine h.pattern.bind fun pattern wellFormed => .next fun guarded => ?_
      have arm (guard : Option Expr) (sound' : Expr.WellFormedIfAny guard) :
          Gives (Sum.elim (Each Arm.WellFormed) (Each Arm.WellFormed)) (do
            let _ ← consumeMark .fatArrow "'=>' in match arm"
            let body ← armBody g
            let _ ← accept (.mark .comma)
            return .inl (arms ++ [⟨pattern, guard, body, position⟩])) :=
        .next fun _ => (gives_armBody h).bind fun body ended => .next fun _ => .ret
          (sound.push ⟨wellFormed, sound', ended⟩)
      cases guarded with
      | true =>
        exact (h.expression.restricting _).bind fun guard sound' =>
          .ret_bind (arm (some guard) sound')
      | false => exact .ret_bind (arm none trivial)

/-! ## Brackets -/

omit h in
theorem gives_lambda {params : List String} {body : Body} (distinct : DistinctParams params)
    {position : Position} (wellFormed : body.WellFormed) :
    Gives Expr.WellFormed (lambda params body position) := by
  rw [lambda]
  exact gives_node ⟨distinct, wellFormed⟩

theorem gives_tupleItems {first : Expr} (wellFormed : first.WellFormed) :
    Gives (fun r => Each Expr.WellFormed r.1) (tupleItems g first) := by
  refine .repeating (I := Each Expr.WellFormed) ?_ (.singleton wellFormed)
  intro items sound
  exact gives_anotherItem sound sound
    (h.expression.bind fun e wellFormed => .ret (sound.push wellFormed))

theorem gives_grouped (position : Position) : Gives Expr.WellFormed (grouped g position) := by
  refine .next fun _ => .next fun found => ?_
  cases found with
  | true => exact gives_node trivial
  | false =>
    have items : Gives (fun r => Each Expr.WellFormed r.1) (do tupleItems g (← g.expression)) :=
      h.expression.bind fun _ wellFormed => gives_tupleItems h wellFormed
    refine (items.restricting _).bind ?_
    rintro ⟨items, trailing⟩ sound
    refine .next fun _ => ?_
    split
    · exact .ret (List.forall_mem_singleton.mp sound)
    · exact gives_node (Expr.allWellFormed_iff.mpr sound)

theorem gives_parenthesized : Gives Expr.WellFormed (parenthesized g) := by
  refine .next fun position => .next fun c => .next fun arrow => ?_
  split
  · exact gives_parameters.bind fun params distinct => .next fun _ =>
      (gives_lambdaBody h).bind fun _ wellFormed => gives_lambda distinct wellFormed
  · exact gives_grouped h position

theorem gives_mapEntries {first : Expr × Expr}
    (wellFormed : first.1.WellFormed ∧ first.2.WellFormed) :
    Gives Expr.EntriesWellFormed (mapEntries g first) := by
  refine (Gives.collecting (P := fun entry : Expr × Expr => entry.1.WellFormed ∧ entry.2.WellFormed)
    ?_ (.singleton wellFormed)).imp fun _ => Expr.entriesWellFormed_iff.mpr
  intro entries sound
  exact gives_anotherItem sound sound (h.expression.bind fun key keyed => .next fun _ =>
    h.expression.bind fun value valued => .ret (sound.push ⟨keyed, valued⟩))

theorem gives_arrayItems {first : Expr} (wellFormed : first.WellFormed) :
    Gives Expr.AllWellFormed (arrayItems g first) := by
  refine (Gives.collecting (P := Expr.WellFormed) ?_ (.singleton wellFormed)).imp
    fun _ => Expr.allWellFormed_iff.mpr
  intro items sound
  exact gives_anotherItem sound sound
    (h.expression.bind fun e wellFormed => .ret (sound.push wellFormed))

theorem gives_bracketItems : Gives ExprKind.WellFormed (bracketItems g) := by
  refine .next fun closes => ?_
  cases closes with
  | true => exact .ret trivial
  | false =>
    refine .next fun c => ?_
    split
    · exact .next fun _ => .ret trivial
    · refine h.expression.bind fun first wellFormed => .next fun found => ?_
      cases found with
      | true =>
        exact h.expression.bind fun value valued =>
          (gives_mapEntries h ⟨wellFormed, valued⟩).bind fun _ sound => .ret sound
      | false => exact (gives_arrayItems h wellFormed).bind fun _ sound => .ret sound

theorem gives_bracketed : Gives Expr.WellFormed (bracketed g) :=
  .next fun _ => ((gives_bracketItems h).restricting _).bind fun _ wellFormed =>
    .next fun _ => gives_node wellFormed

theorem gives_arguments : Gives Expr.AllWellFormed (arguments g) := by
  refine .next fun _ => ?_
  refine ((Gives.collecting (P := Expr.WellFormed) ?_ .nil).restricting _).bind fun args sound =>
    .next fun _ => .ret (Expr.allWellFormed_iff.mpr sound)
  intro args sound
  refine .next fun closes => ?_
  cases closes with
  | true => exact .ret sound
  | false =>
    refine h.expression.bind fun e wellFormed => .next fun found => ?_
    have more := sound.push wellFormed
    cases found with
    | true => exact .ret more
    | false => exact .ret more

/-! ## Primary expressions -/

omit h in
theorem gives_leaf {kind : ExprKind} {position : Position} (wellFormed : kind.WellFormed) :
    Gives Expr.WellFormed (leaf kind position) :=
  .next fun _ => gives_node wellFormed

omit h in
/-- The names of host classes begin with a capital. -/
theorem beginsWithCapital_of_isClassName {name : String} (h : isClassName name = true) :
    BeginsWithCapital name := by
  unfold isClassName at h
  split at h
  · cases h
  · next c rest letters => exact ⟨c, rest, letters, h⟩

theorem gives_named (name : String) (position : Position) :
    Gives Expr.WellFormed (named g name position) := by
  refine .next fun c => .next fun _ => ?_
  split
  · exact .next fun _ => (gives_lambdaBody h).bind fun _ wellFormed =>
      gives_lambda (.singleton name) wellFormed
  · refine .next fun members => ?_
    split
    · next opens =>
      have capital : isClassName name = true := by
        simp only [Bool.and_eq_true] at opens
        exact opens.1.2
      exact (gives_entityMembers h).bind fun _ sound =>
        gives_node ⟨beginsWithCapital_of_isClassName capital, sound⟩
    · exact gives_node trivial

theorem gives_braced (position : Position) : Gives Expr.WellFormed (braced g position) := by
  refine .next fun members => ?_
  cases members with
  | true => exact (gives_entityMembers h).bind fun _ sound => gives_node sound
  | false => exact h.block.bind fun _ wellFormed => gives_node wellFormed

theorem gives_locked (position : Position) : Gives Expr.WellFormed (locked g position) := by
  have body (key : Option Expr) (sound : Expr.WellFormedIfAny key) : Gives Expr.WellFormed (do
      let body ← g.block
      node (.lock key body) position) :=
    h.block.bind fun _ wellFormed => gives_node ⟨sound, wellFormed⟩
  refine .next fun _ => .next fun found => ?_
  cases found with
  | true =>
    exact (gives_nested h).bind fun key wellFormed => .next fun _ =>
      .ret_bind (body (some key) wellFormed)
  | false => exact .ret_bind (body none trivial)

theorem gives_primary : Gives Expr.WellFormed (primary g) := by
  refine .next fun token => ?_
  dsimp only
  split
  · exact gives_leaf trivial
  · exact gives_leaf trivial
  · exact gives_named h _ _
  · exact gives_leaf trivial
  · exact gives_leaf trivial
  · exact gives_leaf trivial
  · exact gives_leaf trivial
  · exact gives_leaf trivial
  · exact .next fun _ => .next fun _ => .next fun _ => gives_node trivial
  · exact (gives_functionDef h).bind fun _ wellFormed => gives_node wellFormed
  · exact .next fun _ => h.block.bind fun _ wellFormed => gives_node wellFormed
  · exact .next fun _ => h.block.bind fun _ wellFormed => gives_node wellFormed
  · exact .next fun _ => h.block.bind fun _ wellFormed => gives_node wellFormed
  · exact gives_locked h _
  · exact .next fun _ => (gives_header h).bind fun _ wellFormed =>
      (gives_matchArms h).bind fun _ sound => gives_node ⟨wellFormed, sound⟩
  · exact gives_parenthesized h
  · exact gives_bracketed h
  · exact gives_braced h _
  · exact gives_unexpected

/-! ## Calls, accesses and operators -/

omit h in
theorem gives_access {object : Expr} (wellFormed : object.WellFormed) :
    Gives ExprKind.WellFormed (access object) := by
  refine .next fun _ => .next fun token => ?_
  dsimp only
  split
  · split
    · exact .ret wellFormed
    · exact gives_fail
  · exact .ret wellFormed
  · exact .ret wellFormed
  · exact gives_fail

/-- What is put behind an expression, if anything, makes a well-formed one of it. -/
theorem gives_suffix? {object : Expr} (wellFormed : object.WellFormed) :
    Gives (fun kind? => kind?.elim True ExprKind.WellFormed) (suffix? g object) := by
  refine .next fun kind => ?_
  split
  · exact (gives_arguments h).bind fun _ sound => .ret ⟨wellFormed, sound⟩
  · exact (gives_access wellFormed).bind fun _ sound => .ret sound
  · exact .next fun _ => (gives_nested h).bind fun _ indexed => .next fun _ =>
      .ret ⟨wellFormed, indexed⟩
  · refine .next fun _ => .next fun opens => ?_
    cases opens with
    | true => exact (gives_entityMembers h).bind fun _ sound => .ret ⟨wellFormed, sound⟩
    | false => exact .next fun name => .ret wellFormed
  · split
    · split
      · next place => exact .next fun _ => .ret ⟨place, wellFormed⟩
      · exact .ret trivial
    · exact .ret trivial

theorem gives_postfixed : Gives Expr.WellFormed (postfixed g) := by
  refine .next fun position => (gives_primary h).bind fun object wellFormed =>
    .repeating (I := Expr.WellFormed) ?_ wellFormed
  intro object wellFormed
  refine (gives_suffix? h wellFormed).bind fun kind? sound => ?_
  cases kind? with
  | none => exact .ret wellFormed
  | some kind =>
    exact (gives_node sound).bind fun _ wellFormed => .ret wellFormed

theorem gives_unaryStep : Gives Expr.WellFormed (unaryStep g) := by
  refine Gives.descending (.next fun token => ?_)
  split
  · exact .next fun _ => h.unary.bind fun _ wellFormed => gives_node wellFormed
  · refine .next fun _ => h.unary.bind fun target wellFormed => ?_
    dsimp only
    split
    · exact .fail_bind
    · next place => exact gives_node ⟨by simpa using place, wellFormed⟩
  · exact gives_postfixed h

theorem gives_infixRight {left : Expr} (wellFormed : left.WellFormed) (operator : Infix)
    (precedence : Nat) : Gives ExprKind.WellFormed (infixRight g left operator precedence) := by
  cases operator with
  | typeTest => exact .next fun _ => .ret wellFormed
  | pipe | binary => exact (h.infixFrom _).bind fun _ right => .ret ⟨wellFormed, right⟩

theorem gives_infixStep (least : Nat) : Gives Expr.WellFormed (infixStep g least) := by
  refine .next fun position => h.unary.bind fun left wellFormed =>
    .repeating (I := Expr.WellFormed) ?_ wellFormed
  intro left wellFormed
  refine .next fun ahead => ?_
  split
  · exact .next fun _ => (gives_infixRight h wellFormed _ _).bind fun _ sound =>
      (gives_node sound).bind fun _ wellFormed => .ret wellFormed
  · exact .ret wellFormed

theorem gives_conditionalStep : Gives Expr.WellFormed (conditionalStep g) := by
  refine .next fun position => (h.infixFrom _).bind fun condition wellFormed =>
    .next fun found => ?_
  cases found with
  | false => exact .ret wellFormed
  | true =>
    exact h.expression.bind fun _ first => .next fun _ => h.conditional.bind fun _ second =>
      gives_node ⟨wellFormed, first, second⟩

theorem gives_assignmentStep : Gives Expr.WellFormed (assignmentStep g) := by
  refine .next fun position => .next fun found => ?_
  cases found with
  | true =>
    exact h.pattern.bind fun pattern wellFormed => .next fun _ => h.assignment.bind
      fun _ valued => gives_node ⟨wellFormed, valued⟩
  | false =>
    refine h.conditional.bind fun target wellFormed => .next fun kind => ?_
    split
    · exact .ret wellFormed
    · refine .next fun token => ?_
      dsimp only
      split
      · exact .fail_bind
      · next place =>
        have place : target.isPlace = true := by simpa using place
        exact h.assignment.bind fun _ valued => gives_node ⟨⟨place, wellFormed⟩, valued⟩

end

end ScriptEngine.Parse
