import ScriptEngine.Proofs.Parse.Chains
import ScriptEngine.Proofs.Parse.Moving
import ScriptEngine.Proofs.Parse.Results

/-!
# Levels of expressions

A parser goes down a level for an expression and for an operand, and comes up again. What it gives fits
at the level that it was read on: `Nests` says so of a parser, with one rule for each way to compose
parsers, and one lemma for each form of expression, if the grammar inside it keeps to its levels.

* `Nests`, `Level`: what a parser gives from a cursor at a depth; parsers that come back to that depth.
* `Form.Holds`, `Grammar.Nested`: the trees of a form fit where they stand.
* `nests_primary`, `infixStep_fits`, `nests_assignmentStep` and the others: the forms of expressions.
-/

namespace ScriptEngine

/-! ## Slots -/

/-- What stands directly inside an expression of this kind fits if it is read at this depth. -/
structure ExprKind.FitsAt (depth : Nat) (kind : ExprKind) : Prop where
  small : depth ≤ Parse.maxDepth
  inside : ∀ edge ∈ kind.edges, edge.slot.Holds depth edge.expr

/-- It is so of a kind of expressions that no operator stands beside. -/
structure ExprKind.FitsTight (depth : Nat) (kind : ExprKind) : Prop extends kind.FitsAt depth where
  tight : Expr.prefixTightness < kind.tightness

namespace Slot

variable {e : Expr} {depth least least' : Nat}

theorem cost_operand_of_le (bare : least ≤ e.tightness) : (operand least).cost e = e.ownLevel :=
  if_pos bare

theorem cost_operand_le (le : least ≤ least') :
    (operand least).cost e ≤ (operand least').cost e := by
  simp only [cost]
  split <;> split <;> omega

theorem cost_left_le (le : least ≤ Expr.prefixTightness) :
    (left least).cost e ≤ (operand Expr.prefixTightness).cost e := by
  simp only [cost]
  split <;> split <;> omega

/-- An operand has a level of its own. -/
theorem cost_prefix_le : (operand Expr.prefixTightness).cost e ≤ object.cost e + 1 := by
  simp only [cost, Expr.ownLevel]
  split <;> split <;> omega

theorem cost_object_le : object.cost e ≤ whole.cost e := by
  simp only [cost]
  split <;> omega

theorem cost_whole : whole.cost e = (operand 0).cost e + 1 := by
  simp [cost]

theorem Holds.mono {slot slot' : Slot} {depth' : Nat} (h : slot.Holds depth e)
    (le : depth' + slot'.cost e ≤ depth + slot.cost e) : slot'.Holds depth' e :=
  Expr.FitsAt.mono h le

theorem Holds.operand (h : (operand least').Holds depth e) (le : least ≤ least') :
    (operand least).Holds depth e :=
  h.mono (Nat.add_le_add_left (cost_operand_le le) depth)

/-- What is read anywhere is read at a depth that is not below the greatest one. -/
theorem Holds.le {slot : Slot} (h : slot.Holds depth e) : depth ≤ Parse.maxDepth :=
  Nat.le_trans (Nat.le_add_right _ _) (Expr.FitsAt.le h)

end Slot

namespace ExprKind.FitsAt

variable {depth : Nat} {kind : ExprKind} {e : Expr}

theorem expr (h : kind.FitsAt depth) (is : e.kind = kind) : e.FitsAt depth := by
  subst is
  exact Expr.fitsAt_iff.mpr ⟨h.small, h.inside⟩

/-- Beside an operator an expression of a looser one fits, unless it needs parentheses there. -/
theorem operand (h : kind.FitsAt depth) (is : e.kind = kind) {least : Nat}
    (bare : least ≤ kind.tightness) (loose : kind.tightness < Expr.prefixTightness) :
    (Slot.operand least).Holds depth e := by
  subst is
  have none : e.ownLevel = 0 := if_neg (Nat.not_le_of_lt loose)
  rw [Slot.Holds, Slot.cost_operand_of_le bare, none]
  exact h.expr rfl

end ExprKind.FitsAt

theorem ExprKind.FitsTight.object {depth : Nat} {kind : ExprKind} {e : Expr}
    (h : kind.FitsTight depth) (is : e.kind = kind) : Slot.object.Holds depth e := by
  subst is
  have bare : Slot.object.cost e = 0 := if_pos h.tight
  rw [Slot.Holds, bare]
  exact h.expr rfl

/-- A token has the precedence of the operator it stands for, which is looser than operators before
an operand. -/
theorem Infix.tightness_of_token {kind : TokenKind} {operator : Infix} {p : Nat}
    (h : Infix.ofToken? kind = some (operator, p)) :
    operator.tightness = p + 1 ∧ p + 1 < Expr.prefixTightness := by
  obtain ⟨precedence, -, few⟩ := Infix.precedence?_of_token h
  rw [tightness, precedence]
  exact ⟨rfl, Nat.lt_succ_of_le (Nat.succ_le_succ few)⟩

theorem Edge.mem_wholes {es : List Expr} {edge : Edge} (mem : edge ∈ Edge.wholes es) :
    ∃ e ∈ es, edge = ⟨.whole, e⟩ := by
  obtain ⟨e, among, rfl⟩ := List.mem_map.mp mem
  exact ⟨e, among, rfl⟩

namespace Parse

variable {α β σ : Type} {d : Nat} {P : α → Prop} {Q : β → Prop} {p : Parser α} {f : α → Parser β}

/-! ## Depths -/

/-- From a cursor at this depth a parser comes to one at the same depth, and gives what is as `P`
says. -/
def Nests (d : Nat) (P : α → Prop) (p : Parser α) : Prop :=
  ∀ c, c.depth = d → ∀ a c', p c = .ok (a, c') → c'.depth = d ∧ P a

/-- A parser comes back to the depth where it began. -/
def Level (p : Parser α) : Prop := ∀ d, Nests d (fun _ => True) p

theorem Nests.bind (h : Nests d P p) (h' : ∀ a, P a → Nests d Q (f a)) : Nests d Q (p >>= f) := by
  intro c at_ b c' read
  obtain ⟨a, c'', first, second⟩ := exists_of_bind read
  obtain ⟨back, holds⟩ := h c at_ a c'' first
  exact h' a holds c'' back b c' second

/-- Nothing is used of the first result. -/
theorem Nests.next (h : Level p) (h' : ∀ a, Nests d Q (f a)) : Nests d Q (p >>= f) :=
  (h d).bind fun a _ => h' a

theorem Nests.ret {a : α} (h : P a) : Nests d P (pure a) := by
  intro c at_ b c' read
  cases read
  exact ⟨at_, h⟩

theorem Nests.ret_bind {a : α} (h : Nests d Q (f a)) : Nests d Q (pure a >>= f) := h

theorem Nests.imp {P' : α → Prop} (h : Nests d P p) (weaker : ∀ a, P a → P' a) : Nests d P' p := by
  intro c at_ a c' read
  obtain ⟨back, holds⟩ := h c at_ a c' read
  exact ⟨back, weaker a holds⟩

theorem nests_fail {error : ParseError} : Nests d P (fail error) := by
  intro c at_ a c' read
  cases read

theorem Nests.fail_bind {error : ParseError} : Nests d Q ((fail error : Parser α) >>= f) :=
  nests_fail (P := fun _ => False) |>.bind fun _ none => none.elim

theorem nests_unfinished : Nests d P (throw .unfinished) := by
  intro c at_ a c' read
  cases read

theorem Level.of_looks (h : Looks p) : Level p := by
  intro d c at_ a c' read
  obtain ⟨b, same⟩ := h c
  rw [same] at read
  cases read
  exact ⟨at_, trivial⟩

/-- What comes next may depend on the cursor that is read. -/
theorem Nests.reading {f : Cursor → Parser β} (h : ∀ c, Nests d Q (f c)) : Nests d Q (get >>= f) :=
  .next (.of_looks looks_get) h

theorem Nests.peek {f : Token → Parser β} (h : ∀ t, Nests d Q (f t)) : Nests d Q (peek >>= f) :=
  .next (.of_looks fun c => ⟨c.current, rfl⟩) h

theorem Nests.peekKind {f : TokenKind → Parser β} (h : ∀ kind, Nests d Q (f kind)) :
    Nests d Q (peekKind >>= f) :=
  .next (.of_looks looks_peekKind) h

theorem Nests.here {f : Position → Parser β} (h : ∀ at_, Nests d Q (f at_)) :
    Nests d Q (here >>= f) :=
  .next (.of_looks looks_here) h

theorem Nests.check {kind : TokenKind} {f : Bool → Parser β} (h : ∀ found, Nests d Q (f found)) :
    Nests d Q (check kind >>= f) :=
  .next (.of_looks (looks_check kind)) h

theorem Nests.unexpected_bind {expected : String} :
    Nests d Q ((unexpected expected : Parser α) >>= f) := by
  have none : Nests d (fun _ : α => False) (unexpected expected) := .peek fun _ => nests_fail
  exact none.bind fun _ none => none.elim

theorem nests_unexpected {expected : String} : Nests d P (unexpected expected) :=
  .peek fun _ => nests_fail

theorem Nests.restricting (restrictions : Restrictions) (h : Nests d P p) :
    Nests d P (restricting restrictions p) := by
  have change (restrictions : Restrictions) :
      Level (modify fun c : Cursor => { c with restrictions }) := by
    intro d c at_ a c' read
    cases read
    exact ⟨at_, trivial⟩
  exact .reading fun _ => .next (change _) fun _ => h.bind fun _ value =>
    .next (change _) fun _ => .ret value

/-- What is read a level deeper fits there, and there is such a level. -/
theorem Nests.descending (h : d < maxDepth → Nests (d + 1) P p) : Nests d P (descending p) := by
  intro c at_ a c' read
  obtain ⟨_, _, first, read⟩ := exists_of_bind read
  cases first
  by_cases deep : maxDepth ≤ c.depth
  · rw [if_pos deep] at read
    obtain ⟨_, _, first, read⟩ := exists_of_bind read
    cases first
    obtain ⟨_, _, first, read⟩ := exists_of_bind read
    cases first
  · rw [if_neg deep] at read
    obtain ⟨_, _, first, read⟩ := exists_of_bind read
    cases first
    obtain ⟨b, inner, first, read⟩ := exists_of_bind read
    obtain ⟨back, holds⟩ := h (by omega) _ (congrArg (· + 1) at_) b inner first
    obtain ⟨_, _, last, read⟩ := exists_of_bind read
    cases last
    cases read
    exact ⟨(congrArg (· - 1) back).trans (Nat.add_sub_cancel ..), holds⟩

/-- What every round of a repeated step keeps, of the cursor too, holds when it ends. -/
theorem loop_keeps {I : σ → Cursor → Prop} {R : α → Cursor → Prop} {step : σ → Parser (σ ⊕ α)}
    (round : ∀ s c next c', I s c → step s c = .ok (next, c') →
      next.elim (I · c') (R · c')) {s : σ} {c c' : Cursor} {a : α} (holds : I s c)
    (read : repeating step s c = .ok (a, c')) : R a c' := by
  have ends : ∀ fuel s c, I s c → loop step fuel s c = .ok (a, c') → R a c' := by
    intro fuel
    induction fuel with
    | zero =>
      intro s c holds read
      cases read
    | succ fuel ih =>
      intro s c holds read
      obtain ⟨next, c'', first, rest⟩ := exists_of_bind read
      have follows := round s c next c'' holds first
      cases next with
      | inl s => exact ih s c'' follows rest
      | inr a =>
        cases rest
        exact follows
  exact ends _ s c holds read

theorem Nests.repeating {I : σ → Prop} {step : σ → Parser (σ ⊕ α)} {s : σ}
    (h : ∀ s, I s → Nests d (Sum.elim I P) (step s)) (holds : I s) :
    Nests d P (repeating step s) := by
  intro c at_ a c' read
  refine loop_keeps (I := fun s c => c.depth = d ∧ I s) (R := fun a c => c.depth = d ∧ P a) ?_
    ⟨at_, holds⟩ read
  rintro s c next c' ⟨at_, holds⟩ first
  have follows := h s holds c at_ next c' first
  cases next <;> exact follows

theorem Level.repeating {step : σ → Parser (σ ⊕ α)} (h : ∀ s, Level (step s)) (s : σ) :
    Level (repeating step s) :=
  fun _ => Nests.repeating (I := fun _ => True)
    (fun s _ => (h s _).imp fun next _ => by cases next <;> trivial) trivial

/-- A list is read item by item. -/
theorem Nests.collecting {step : List α → Parser (List α ⊕ List α)} {as : List α}
    (h : ∀ as, Each P as → Nests d (Sum.elim (Each P) (Each P)) (step as)) (begun : Each P as) :
    Nests d (Each P) (Parse.repeating step as) :=
  .repeating h begun

/-! ### Tokens -/

theorem level_accept (kind : TokenKind) : Level (accept kind) := by
  intro d
  refine .check fun found => ?_
  cases found with
  | true =>
    intro c at_ a c' read
    cases read
    exact ⟨(Cursor.moves_next c).depth.trans at_, trivial⟩
  | false => exact .ret trivial

theorem level_advance : Level advance := by
  intro d c at_ a c' read
  cases read
  exact ⟨(Cursor.moves_next c).depth.trans at_, trivial⟩

theorem Nests.accept {kind : TokenKind} {f : Bool → Parser β} (h : ∀ found, Nests d Q (f found)) :
    Nests d Q (accept kind >>= f) :=
  .next (level_accept kind) h

theorem Nests.advance {f : Token → Parser β} (h : ∀ t, Nests d Q (f t)) :
    Nests d Q (advance >>= f) :=
  .next level_advance h

theorem level_consume (kind : TokenKind) (expected : String) : Level (consume kind expected) := by
  refine fun d => .check fun found => ?_
  split
  · exact level_advance d
  · exact nests_unexpected

theorem Nests.consume {kind : TokenKind} {expected : String} {f : Token → Parser β}
    (h : ∀ t, Nests d Q (f t)) : Nests d Q (consume kind expected >>= f) :=
  .next (level_consume kind expected) h

theorem Nests.consumeMark {mark : Mark} {expected : String} {f : Token → Parser β}
    (h : ∀ t, Nests d Q (f t)) : Nests d Q (consumeMark mark expected >>= f) :=
  .consume h

theorem level_consumeName (expected : String) : Level (consumeName expected) := by
  refine fun d => .peekKind fun kind => ?_
  split
  · exact .advance fun _ => .ret trivial
  · exact nests_unexpected

theorem level_memberName : Level memberName := by
  refine fun d => .advance fun token => ?_
  split
  · exact .ret trivial
  · exact .ret trivial
  · exact .ret trivial
  · exact nests_fail

theorem level_typeName : Level typeName := by
  refine fun d => .advance fun token => ?_
  dsimp only
  split
  · exact .ret trivial
  · exact nests_fail

theorem level_parameters : Level parameters := by
  refine fun d => .consumeMark fun _ => .next (.repeating (fun params d => ?_) _) fun _ =>
    .consumeMark fun _ => .ret trivial
  refine .check fun closes => ?_
  cases closes with
  | true => exact .ret trivial
  | false =>
    refine .here fun _ => .next (level_consumeName _) fun name => ?_
    dsimp only
    split
    · exact .fail_bind
    · refine .accept fun found => ?_
      cases found <;> exact .ret trivial

theorem level_patternItems {pattern : Parser Pattern} (h : Level pattern) (close : Mark) :
    Level (patternItems pattern close) := by
  refine fun d => .next h fun first => .next (.repeating (fun items d => ?_) _) fun items =>
    .consumeMark fun _ => ?_
  · refine .accept fun comma => ?_
    cases comma with
    | false => exact .ret trivial
    | true =>
      refine .check fun closes => ?_
      cases closes with
      | true => exact .ret trivial
      | false => exact .next h fun _ => .ret trivial
  · dsimp only
    split
    · exact .here fun _ => .fail_bind
    · exact .ret trivial

theorem level_patternStep {pattern : Parser Pattern} (h : Level pattern) :
    Level (patternStep pattern) := by
  refine fun d => .advance fun token => ?_
  split
  iterate 7 exact .ret trivial
  · refine .advance fun number => ?_
    split
    · exact .ret trivial
    · exact nests_fail
  · refine .accept fun found => ?_
    cases found with
    | true => exact .ret trivial
    | false =>
      refine .next (level_patternItems h _) fun items => ?_
      split <;> exact .ret trivial
  · refine .accept fun found => ?_
    cases found with
    | true => exact .ret trivial
    | false => exact .next (level_patternItems h _) fun _ => .ret trivial
  · exact nests_fail

/-- A node is of the kind that it is made of. -/
theorem nests_node {kind : ExprKind} {position : Position} :
    Nests d (fun e => e.kind = kind) (node kind position) := by
  intro c at_ e c' read
  cases read
  exact ⟨at_, rfl⟩

/-! ## Grammars -/

theorem Each.append {as bs : List α} (h : Each P as) (h' : Each P bs) : Each P (as ++ bs) :=
  List.forall_mem_append.mpr ⟨h, h'⟩

/-- Expressions that stand anywhere fit if they are read at this depth. -/
abbrev HeadsFit (d : Nat) (heads : List Expr) : Prop := Each (Slot.whole.Holds d) heads

/-- The trees of a form fit where they stand. -/
def Form.Holds (d : Nat) : {α : Type} → Form α → α → Prop
  | _, .pattern => fun _ => True
  | _, .expression => Slot.whole.Holds d
  | _, .assignment => (Slot.operand 0).Holds d
  | _, .conditional => (Slot.operand 1).Holds d
  | _, .infixFrom least => fun e =>
    least < Expr.prefixTightness → (Slot.operand (least + 1)).Holds d e
  | _, .unary => (Slot.operand Expr.prefixTightness).Holds d
  | _, .block => fun body => HeadsFit d body.heads
  | _, .branch => fun kind => HeadsFit d kind.heads
  | _, .statement => fun s => HeadsFit d s.heads

/-- The infix operator under a cursor, if it binds at least this tightly. -/
def Cursor.infixAhead? (c : Cursor) (least : Nat) : Option (Infix × Nat) :=
  match Infix.ofToken? c.current.kind with
  | some (operator, precedence) =>
    if precedence < least || (operator = .binary .bitOr && c.restrictions.inArm) then none
    else some (operator, precedence)
  | none => none

theorem infixAhead?_eq (c : Cursor) (least : Nat) :
    infixAhead? least c = .ok (c.infixAhead? least, c) := by
  simp only [infixAhead?, Cursor.infixAhead?, Bind.bind, StateT.bind, get, getThe, MonadStateOf.get,
    StateT.get, pure, Except.pure, Except.bind]
  cases Infix.ofToken? c.current.kind with
  | none => rfl
  | some ahead =>
    dsimp only
    split <;> rfl

/-- A grammar keeps to its levels, whatever the form, and reads infix operators as long as they bind
tightly enough. -/
structure Grammar.Nested (g : Grammar) : Prop where
  holds : ∀ {α : Type} (form : Form α) (d : Nat), Nests d (form.Holds d) (g.read form)
  ends : ∀ {least : Nat} {c c' : Cursor} {e : Expr}, g.infixFrom least c = .ok (e, c') →
    c'.infixAhead? least = none

variable {g : Grammar}

namespace Grammar.Nested

theorem pattern (h : g.Nested) : Level g.pattern := h.holds .pattern

theorem expression (h : g.Nested) (d : Nat) : Nests d (Slot.whole.Holds d) g.expression :=
  h.holds .expression d

theorem assignment (h : g.Nested) (d : Nat) : Nests d ((Slot.operand 0).Holds d) g.assignment :=
  h.holds .assignment d

theorem conditional (h : g.Nested) (d : Nat) : Nests d ((Slot.operand 1).Holds d) g.conditional :=
  h.holds .conditional d

theorem infixFrom (h : g.Nested) {least : Nat} (few : least < Expr.prefixTightness) (d : Nat) :
    Nests d ((Slot.operand (least + 1)).Holds d) (g.infixFrom least) :=
  (h.holds (.infixFrom least) d).imp fun _ fits => fits few

theorem unary (h : g.Nested) (d : Nat) :
    Nests d ((Slot.operand Expr.prefixTightness).Holds d) g.unary :=
  h.holds .unary d

theorem block (h : g.Nested) (d : Nat) : Nests d (fun body => HeadsFit d body.heads) g.block :=
  h.holds .block d

theorem branch (h : g.Nested) (d : Nat) : Nests d (fun kind => HeadsFit d kind.heads) g.branch :=
  h.holds .branch d

theorem statement (h : g.Nested) (d : Nat) : Nests d (fun s => HeadsFit d s.heads) g.statement :=
  h.holds .statement d

end Grammar.Nested

/-! ## Members, functions and arms -/

/-- A kind of expressions in which others stand anywhere. -/
theorem fitsTight_of_wholes {kind : ExprKind} {heads : List Expr} (small : d ≤ maxDepth)
    (edges : kind.edges = Edge.wholes heads) (tight : Expr.prefixTightness < kind.tightness)
    (fit : HeadsFit d heads) : kind.FitsTight d where
  small := small
  inside edge mem := by
    rw [edges] at mem
    obtain ⟨e, among, rfl⟩ := Edge.mem_wholes mem
    exact fit e among
  tight := tight

/-- A node that no operator stands beside. -/
theorem nests_tight {kind : ExprKind} {position : Position} (h : kind.FitsTight d) :
    Nests d (Slot.object.Holds d) (node kind position) :=
  nests_node.imp fun _ is => h.object is

section

variable (h : g.Nested)

include h

theorem nests_header : Nests d (Slot.whole.Holds d) (header g) :=
  (h.expression d).restricting _

theorem nests_nested : Nests d (Slot.whole.Holds d) (nested g) :=
  (h.expression d).restricting _

theorem nests_entityMembers :
    Nests d (fun members => HeadsFit d (members.map (·.value))) (entityMembers g) := by
  refine .consumeMark fun _ => ?_
  refine ((Nests.repeating (I := fun members => HeadsFit d (members.map (·.value)))
    (P := fun members => HeadsFit d (members.map (·.value))) ?_ .nil).restricting _).bind
      fun members fit => .consumeMark fun _ => .ret fit
  intro members fit
  refine .check fun closes => ?_
  cases closes with
  | true => exact .ret fit
  | false =>
    refine .next level_memberName ?_
    rintro ⟨name, position⟩
    dsimp only
    split
    · exact .fail_bind
    · refine .consumeMark fun _ => (h.expression d).bind fun value fits => .accept fun found => ?_
      have more :
          HeadsFit d ((members ++ [(⟨name, value, position⟩ : MemberInit)]).map (·.value)) := by
        rw [List.map_append]
        exact fit.push fits
      cases found with
      | true => exact .ret more
      | false => exact .ret more

theorem nests_lambdaBody : Nests d (fun body => HeadsFit d body.heads) (lambdaBody g) := by
  refine .check fun opens => .next (.of_looks (looks_membersAhead false)) fun members => ?_
  split
  · exact (h.block d).bind fun _ fit => .ret fit
  · exact (h.expression d).bind fun _ fits => .ret (.singleton fits)

theorem nests_functionDef :
    Nests d (fun definition => HeadsFit d definition.heads) (functionDef g) := by
  have rest (start : Token) (name : Option String) :
      Nests d (fun definition => HeadsFit d definition.heads) (do
        let params ← parameters
        let body ← do
          if ← accept (.mark .fatArrow) then lambdaBody g else pure (Body.block (← g.block))
        return (⟨name, params, body, start.position⟩ : FunctionDef)) := by
    refine .next level_parameters fun params => .accept fun found => ?_
    cases found with
    | true => exact (nests_lambdaBody h).bind fun _ fit => .ret fit
    | false => exact (h.block d).bind fun _ fit => .ret_bind (.ret fit)
  refine .consume fun start => .peekKind fun kind => ?_
  cases kind with
  | name name => exact .advance fun _ => rest start (some name)
  | _ => exact rest start none

theorem nests_armBody : Nests d (fun body => HeadsFit d body.heads) (armBody g) := by
  refine .check fun opens => .next (.of_looks (looks_membersAhead false)) fun members => ?_
  split
  · exact (h.block d).bind fun _ fit => .ret fit
  · exact ((h.expression d).restricting _).bind fun _ fits => .ret (.singleton fits)

theorem nests_matchArms : Nests d (fun arms => HeadsFit d (Arm.allHeads arms)) (matchArms g) := by
  refine .consumeMark fun _ => ?_
  refine (Nests.collecting (P := fun arm : Arm => HeadsFit d arm.heads) ?_ .nil).bind
    fun arms fit => .consumeMark fun _ => .ret ?_
  · intro arms fit
    refine .check fun closes => .next (.of_looks looks_atFinish) fun finished => ?_
    split
    · exact .ret fit
    · refine .here fun position => .accept fun barred => ?_
      dsimp only
      split
      · exact .unexpected_bind
      · refine .next h.pattern fun pattern => .accept fun guarded => ?_
        have arm (guard : Option Expr) (guardFits : HeadsFit d guard.toList) :
            Nests d (Sum.elim (Each fun arm : Arm => HeadsFit d arm.heads)
              (Each fun arm : Arm => HeadsFit d arm.heads)) (do
                let _ ← consumeMark .fatArrow "'=>' in match arm"
                let body ← armBody g
                let _ ← accept (.mark .comma)
                return .inl (arms ++ [⟨pattern, guard, body, position⟩])) :=
          .consumeMark fun _ => (nests_armBody h).bind fun body bodyFits => .accept fun _ =>
            .ret (fit.push (Each.append guardFits bodyFits))
        cases guarded with
        | true =>
          exact ((h.expression d).restricting _).bind fun guard fits =>
            .ret_bind (arm (some guard) (.singleton fits))
        | false => exact .ret_bind (arm none .nil)
  · rw [Arm.allHeads_eq]
    exact List.forall_mem_flatMap.mpr fit

/-! ## Brackets -/

omit h in
/-- Behind an item a list ends, unless a comma stands there and no closing mark behind it. -/
theorem nests_anotherItem {close : Mark} {done closed : α} {more : Parser α} (ends : P done)
    (closes : P closed) (another : Nests d P more) : Nests d P (do
      if ← accept (.mark .comma) then
        if ← check (.mark close) then return closed else more
      else return done) := by
  refine .accept fun comma => ?_
  cases comma with
  | false => exact .ret ends
  | true =>
    refine .check fun mark => ?_
    cases mark with
    | true => exact .ret closes
    | false => exact another

omit h in
theorem nests_lambda (small : d ≤ maxDepth) {params : List String} {body : Body}
    {position : Position} (fit : HeadsFit d body.heads) :
    Nests d (Slot.object.Holds d) (lambda params body position) :=
  nests_tight (fitsTight_of_wholes small rfl (Nat.lt_succ_self _) fit)

theorem nests_tupleItems {first : Expr} (fits : Slot.whole.Holds d first) :
    Nests d (fun r => HeadsFit d r.1) (tupleItems g first) := by
  refine .repeating (I := HeadsFit d) ?_ (.singleton fits)
  intro items fit
  exact nests_anotherItem fit fit ((h.expression d).bind fun e fits => .ret (fit.push fits))

/-- An expression in parentheses is read as one that may stand anywhere. -/
theorem nests_grouped (small : d ≤ maxDepth) (position : Position) :
    Nests d (Slot.object.Holds d) (grouped g position) := by
  refine .advance fun _ => .accept fun found => ?_
  cases found with
  | true => exact nests_tight (fitsTight_of_wholes small rfl (Nat.lt_succ_self _) .nil)
  | false =>
    have items : Nests d (fun r => HeadsFit d r.1) (do tupleItems g (← g.expression)) :=
      (h.expression d).bind fun _ fits => nests_tupleItems h fits
    refine (items.restricting _).bind ?_
    rintro ⟨items, trailing⟩ fit
    refine .consumeMark fun _ => ?_
    split
    · refine .ret ((List.forall_mem_singleton.mp fit).mono ?_)
      exact Nat.add_le_add_left Slot.cost_object_le d
    · exact nests_tight (fitsTight_of_wholes small rfl (Nat.lt_succ_self _) fit)

theorem nests_parenthesized (small : d ≤ maxDepth) :
    Nests d (Slot.object.Holds d) (parenthesized g) := by
  refine .here fun position => .reading fun c =>
    .next (.of_looks (looks_groupFollowedBy _)) fun arrow => ?_
  split
  · exact .next level_parameters fun params => .consumeMark fun _ =>
      (nests_lambdaBody h).bind fun _ fit => nests_lambda small fit
  · exact nests_grouped h small position

theorem nests_mapEntries {first : Expr × Expr}
    (fit : HeadsFit d [first.1, first.2]) :
    Nests d (fun entries => HeadsFit d (entries.flatMap fun entry => [entry.1, entry.2]))
      (mapEntries g first) := by
  refine .repeating (I := fun entries : List (Expr × Expr) =>
    HeadsFit d (entries.flatMap fun entry => [entry.1, entry.2])) ?_ ?_
  · intro entries fit
    refine nests_anotherItem fit fit ((h.expression d).bind fun key keyFits => .consumeMark fun _ =>
      (h.expression d).bind fun value valueFits => .ret ?_)
    rw [Sum.elim_inl, List.flatMap_append]
    exact fit.append ((Each.singleton keyFits).push valueFits)
  · rw [List.flatMap_singleton]
    exact fit

theorem nests_arrayItems {first : Expr} (fits : Slot.whole.Holds d first) :
    Nests d (HeadsFit d) (arrayItems g first) := by
  refine .collecting ?_ (.singleton fits)
  intro items fit
  exact nests_anotherItem fit fit ((h.expression d).bind fun e fits => .ret (fit.push fits))

theorem nests_bracketItems (small : d ≤ maxDepth) :
    Nests d (fun kind => kind.FitsTight d) (bracketItems g) := by
  have array {items : List Expr} (fit : HeadsFit d items) : (ExprKind.array items).FitsTight d :=
    fitsTight_of_wholes small rfl (Nat.lt_succ_self _) fit
  have map {entries : List (Expr × Expr)}
      (fit : HeadsFit d (entries.flatMap fun entry => [entry.1, entry.2])) :
      (ExprKind.map entries).FitsTight d :=
    fitsTight_of_wholes small rfl (Nat.lt_succ_self _) fit
  refine .check fun closes => ?_
  cases closes with
  | true => exact .ret (array .nil)
  | false =>
    refine .reading fun c => ?_
    split
    · exact .advance fun _ => .ret (map .nil)
    · refine (h.expression d).bind fun first fits => .accept fun found => ?_
      cases found with
      | true =>
        exact (h.expression d).bind fun value valueFits =>
          (nests_mapEntries h ((Each.singleton fits).push valueFits)).bind
            fun _ fit => .ret (map fit)
      | false => exact (nests_arrayItems h fits).bind fun _ fit => .ret (array fit)

theorem nests_bracketed (small : d ≤ maxDepth) : Nests d (Slot.object.Holds d) (bracketed g) :=
  .advance fun _ => ((nests_bracketItems h small).restricting _).bind fun _ fits =>
    .consumeMark fun _ => nests_tight fits

theorem nests_arguments : Nests d (HeadsFit d) (arguments g) := by
  refine .consumeMark fun _ => ?_
  refine ((Nests.collecting ?_ .nil).restricting _).bind fun args fit => .consumeMark fun _ => .ret fit
  intro args fit
  refine .check fun closes => ?_
  cases closes with
  | true => exact .ret fit
  | false =>
    refine (h.expression d).bind fun e fits => .accept fun found => ?_
    have more := fit.push fits
    cases found with
    | true => exact .ret more
    | false => exact .ret more

/-! ## Primary expressions -/

omit h in
theorem nests_leaf (small : d ≤ maxDepth) {kind : ExprKind} {position : Position}
    (edges : kind.edges = []) (tight : Expr.prefixTightness < kind.tightness) :
    Nests d (Slot.object.Holds d) (leaf kind position) :=
  .advance fun _ => nests_tight
    (fitsTight_of_wholes small (show kind.edges = Edge.wholes [] from edges) tight .nil)

theorem nests_named (small : d ≤ maxDepth) (name : String) (position : Position) :
    Nests d (Slot.object.Holds d) (named g name position) := by
  refine .reading fun c => .advance fun _ => ?_
  split
  · exact .advance fun _ => (nests_lambdaBody h).bind fun _ fit => nests_lambda small fit
  · refine .next (.of_looks (looks_membersAhead true)) fun members => ?_
    split
    · exact (nests_entityMembers h).bind fun _ fit =>
        nests_tight (fitsTight_of_wholes small rfl (Nat.lt_succ_self _) fit)
    · exact nests_tight (fitsTight_of_wholes small rfl (Nat.lt_succ_self _) .nil)

theorem nests_braced (small : d ≤ maxDepth) (position : Position) :
    Nests d (Slot.object.Holds d) (braced g position) := by
  refine .next (.of_looks (looks_membersAhead true)) fun members => ?_
  cases members with
  | true =>
    exact (nests_entityMembers h).bind fun _ fit =>
      nests_tight (fitsTight_of_wholes small rfl (Nat.lt_succ_self _) fit)
  | false =>
    exact (h.block d).bind fun _ fit =>
      nests_tight (fitsTight_of_wholes small rfl (Nat.lt_succ_self _) fit)

theorem nests_locked (small : d ≤ maxDepth) (position : Position) :
    Nests d (Slot.object.Holds d) (locked g position) := by
  have body (key : Option Expr) (keyFits : HeadsFit d key.toList) :
      Nests d (Slot.object.Holds d) (do
        let body ← g.block
        node (.lock key body) position) :=
    (h.block d).bind fun _ fit => nests_tight (fitsTight_of_wholes small rfl (Nat.lt_succ_self _)
      (Each.append keyFits fit))
  refine .advance fun _ => .accept fun found => ?_
  cases found with
  | true =>
    exact (nests_nested h).bind fun key fits => .consumeMark fun _ =>
      .ret_bind (body (some key) (.singleton fits))
  | false => exact .ret_bind (body none .nil)

theorem nests_primary (small : d ≤ maxDepth) : Nests d (Slot.object.Holds d) (primary g) := by
  have block {kind : Block → ExprKind} {position : Position}
      (edges : ∀ body, (kind body).edges = Edge.wholes body.heads)
      (tight : ∀ body, Expr.prefixTightness < (kind body).tightness) :
      Nests d (Slot.object.Holds d) (do
        let _ ← advance
        let body ← g.block
        node (kind body) position) :=
    .advance fun _ => (h.block d).bind fun _ fit =>
      nests_tight (fitsTight_of_wholes small (edges _) (tight _) fit)
  refine .peek fun token => ?_
  dsimp only
  split
  · exact nests_leaf small rfl (Nat.lt_succ_self _)
  · exact nests_leaf small rfl (Nat.lt_succ_self _)
  · exact nests_named h small _ _
  iterate 5 exact nests_leaf small rfl (Nat.lt_succ_self _)
  · exact .advance fun _ => .consumeMark fun _ => .next (level_consumeName _) fun _ =>
      nests_tight (fitsTight_of_wholes small rfl (Nat.lt_succ_self _) .nil)
  · exact (nests_functionDef h).bind fun _ fit =>
      nests_tight (fitsTight_of_wholes small rfl (Nat.lt_succ_self _) fit)
  iterate 3 exact block (fun _ => rfl) fun _ => Nat.lt_succ_self _
  · exact nests_locked h small _
  · exact .advance fun _ => (nests_header h).bind fun scrutinee fits =>
      (nests_matchArms h).bind fun _ fit => nests_tight
        (fitsTight_of_wholes small rfl (Nat.lt_succ_self _) ((Each.singleton fits).append fit))
  · exact nests_parenthesized h small
  · exact nests_bracketed h small
  · exact nests_braced h small _
  · exact nests_unexpected

/-! ## Calls and accesses -/

omit h in
/-- A kind of expressions with an object in front and others in brackets. -/
theorem fitsTight_of_object {kind : ExprKind} {object : Expr} {heads : List Expr}
    (fits : Slot.object.Holds d object) (fit : HeadsFit d heads)
    (edges : kind.edges = ⟨.object, object⟩ :: Edge.wholes heads)
    (tight : Expr.prefixTightness < kind.tightness) : kind.FitsTight d where
  small := fits.le
  inside edge mem := by
    rw [edges] at mem
    rcases List.mem_cons.mp mem with rfl | mem
    · exact fits
    · obtain ⟨e, among, rfl⟩ := Edge.mem_wholes mem
      exact fit e among
  tight := tight

omit h in
theorem nests_access {object : Expr} (fits : Slot.object.Holds d object) :
    Nests d (fun kind => kind.FitsTight d) (access object) := by
  have alone {kind : ExprKind} (edges : kind.edges = [⟨.object, object⟩])
      (tight : Expr.prefixTightness < kind.tightness) : kind.FitsTight d :=
    fitsTight_of_object fits .nil edges tight
  refine .advance fun _ => .advance fun token => ?_
  dsimp only
  split
  · split
    · exact .ret (alone rfl (Nat.lt_succ_self _))
    · exact nests_fail
  · exact .ret (alone rfl (Nat.lt_succ_self _))
  · exact .ret (alone rfl (Nat.lt_succ_self _))
  · exact nests_fail

/-- What is put behind an expression makes one that fits at the same depth. -/
theorem nests_suffix? {object : Expr} (fits : Slot.object.Holds d object) :
    Nests d (fun kind? => ∀ kind, kind? = some kind → kind.FitsTight d) (suffix? g object) := by
  have found {kind : ExprKind} {heads : List Expr} (fit : HeadsFit d heads)
      (edges : kind.edges = ⟨.object, object⟩ :: Edge.wholes heads)
      (tight : Expr.prefixTightness < kind.tightness) :
      Nests d (fun kind? => ∀ kind, kind? = some kind → kind.FitsTight d)
        (pure (some kind) : Parser _) := by
    refine .ret fun other same => ?_
    obtain rfl := Option.some.inj same
    exact fitsTight_of_object fits fit edges tight
  have none : Nests d (fun kind? => ∀ kind, kind? = some kind → kind.FitsTight d)
      (pure none : Parser (Option ExprKind)) :=
    .ret fun _ same => nomatch same
  refine .peekKind fun kind => ?_
  split
  · exact (nests_arguments h).bind fun _ fit => found fit rfl (Nat.lt_succ_self _)
  · exact (nests_access fits).bind fun _ fits => .ret fun _ same => Option.some.inj same ▸ fits
  · exact .advance fun _ => (nests_nested h).bind fun _ indexFits => .consumeMark fun _ =>
      found (.singleton indexFits) rfl (Nat.lt_succ_self _)
  · refine .advance fun _ => .check fun opens => ?_
    cases opens with
    | true => exact (nests_entityMembers h).bind fun _ fit => found fit rfl (Nat.lt_succ_self _)
    | false => exact .next (level_consumeName _) fun _ => found .nil rfl (Nat.lt_succ_self _)
  · split
    · split
      · exact .advance fun _ => found .nil rfl (Nat.lt_succ_self _)
      · exact none
    · exact none

theorem nests_postfixed (small : d ≤ maxDepth) : Nests d (Slot.object.Holds d) (postfixed g) := by
  refine .here fun position => (nests_primary h small).bind fun object fits =>
    .repeating (I := Slot.object.Holds d) ?_ fits
  intro object fits
  refine (nests_suffix? h fits).bind fun kind? sound => ?_
  cases kind? with
  | none => exact .ret fits
  | some kind => exact (nests_tight (sound kind rfl)).bind fun _ fits => .ret fits

/-! ## Operators -/

/-- An operand is read a level deeper, and what is read there is at most as deep as that. -/
theorem nests_unaryStep : Nests d ((Slot.operand Expr.prefixTightness).Holds d) (unaryStep g) := by
  refine .descending fun deeper => ?_
  have before {kind : ExprKind} {operand : Expr} {position : Position}
      (fits : (Slot.operand Expr.prefixTightness).Holds (d + 1) operand)
      (edges : kind.edges = [⟨.operand Expr.prefixTightness, operand⟩])
      (tight : kind.tightness = Expr.prefixTightness) :
      Nests (d + 1) ((Slot.operand Expr.prefixTightness).Holds d) (node kind position) := by
    refine nests_node.imp fun e is => ?_
    subst is
    have bare : Expr.prefixTightness ≤ e.tightness := Nat.le_of_eq tight.symm
    have own : e.ownLevel = 1 := if_pos bare
    rw [Slot.Holds, Slot.cost_operand_of_le bare, own]
    refine ExprKind.FitsAt.expr ⟨fits.le, fun edge mem => ?_⟩ rfl
    rw [edges] at mem
    obtain rfl := List.mem_singleton.mp mem
    exact fits
  refine .peek fun token => ?_
  split
  · exact .advance fun _ => (h.unary _).bind fun _ fits => before fits rfl rfl
  · refine .advance fun _ => (h.unary _).bind fun target fits => ?_
    dsimp only
    split
    · exact .fail_bind
    · exact before fits rfl rfl
  · refine (nests_postfixed h deeper).imp fun e fits => fits.mono ?_
    have := Slot.cost_prefix_le (e := e)
    omega

omit h in
/-- An operator that is ahead and binds tightly enough is ahead whatever has to bind. -/
theorem infixAhead?_some {c : Cursor} {least : Nat} {operator : Infix} {p : Nat}
    (ahead : c.infixAhead? least = some (operator, p)) :
    c.infixAhead? 0 = some (operator, p) ∧ least ≤ p ∧
      Infix.ofToken? c.current.kind = some (operator, p) := by
  unfold Cursor.infixAhead? at ahead ⊢
  split at ahead
  · next token =>
    split at ahead
    · cases ahead
    · next binds =>
      cases ahead
      simp only [Bool.or_eq_true, decide_eq_true_eq, not_or] at binds
      refine ⟨?_, Nat.le_of_not_lt binds.1, token⟩
      rw [if_neg]
      simpa using binds.2
  · cases ahead

omit h in
/-- Of the operators ahead only those are left that bind less tightly. -/
theorem lt_of_infixAhead? {c : Cursor} {least : Nat} {operator : Infix} {p : Nat}
    (ends : c.infixAhead? least = none) (ahead : c.infixAhead? 0 = some (operator, p)) :
    p < least := by
  by_contra binds
  have token := (infixAhead?_some ahead).2.2
  unfold Cursor.infixAhead? at ends ahead
  rw [token] at ends ahead
  dsimp only at ends ahead
  split at ends
  · next stops =>
    simp only [Bool.or_eq_true, decide_eq_true_eq, binds, false_or] at stops
    rw [if_pos (by simpa using stops)] at ahead
    cases ahead
  · cases ends

omit h in
/-- What stands left of an operator is as tight or tighter, or a type test. -/
theorem cost_left_of_loose {e : Expr} {least : Nat} (bare : least ≤ e.tightness ∨ e.isTypeTest)
    (loose : e.tightness < Expr.prefixTightness) : (Slot.left least).cost e = 0 := by
  have none : e.ownLevel = 0 := if_neg (Nat.not_le_of_lt loose)
  rw [Slot.cost, if_pos bare, none]

/-- An expression stands alone, or left of the operator that is ahead of a cursor. -/
structure LeftFits (d least : Nat) (left : Expr) (c : Cursor) : Prop where
  alone : least < Expr.prefixTightness → (Slot.operand (least + 1)).Holds d left
  beside : ∀ operator p, c.infixAhead? 0 = some (operator, p) →
    (Slot.left operator.tightness).Holds d left

omit h in
/-- An operand fits in either way. -/
theorem LeftFits.of_operand {least : Nat} {left : Expr} {c : Cursor}
    (fits : (Slot.operand Expr.prefixTightness).Holds d left) : LeftFits d least left c where
  alone few := fits.operand few
  beside operator p ahead := by
    obtain ⟨same, loose⟩ := Infix.tightness_of_token (infixAhead?_some ahead).2.2
    rw [← same] at loose
    exact fits.mono (Nat.add_le_add_left (Slot.cost_left_le (Nat.le_of_lt loose)) d)

omit h in
/-- What an operator joins fits alone, and left of the next operator if that one is no tighter. -/
theorem LeftFits.of_operation {e : Expr} {least p : Nat} {c : Cursor} (fits : e.FitsAt d)
    (tightness : e.tightness = p + 1) (loose : p + 1 < Expr.prefixTightness) (enough : least ≤ p)
    (next : ∀ operator' p', c.infixAhead? 0 = some (operator', p') → p' ≤ p ∨ e.isTypeTest) :
    LeftFits d least e c where
  alone _ := by
    have none : e.ownLevel = 0 := if_neg (tightness ▸ Nat.not_le_of_lt loose)
    rw [Slot.Holds, Slot.cost_operand_of_le (tightness ▸ Nat.succ_le_succ enough), none]
    exact fits
  beside operator' p' ahead := by
    have same := (Infix.tightness_of_token (infixAhead?_some ahead).2.2).1
    rw [Slot.Holds, cost_left_of_loose ((next operator' p' ahead).imp_left fun le => ?_)
      (tightness ▸ loose)]
    · exact fits
    · rw [same, tightness]
      exact Nat.succ_le_succ le

/-- Behind the right operand of an operator no tighter one is ahead. -/
theorem leftFits_of_infixRight {c c₁ c₂ c' : Cursor} {left e : Expr} {operator : Infix}
    {p least : Nat} {kind : ExprKind} {position : Position}
    (ahead : c.infixAhead? least = some (operator, p)) (at_ : c₁.depth = d)
    (fits : (Slot.left operator.tightness).Holds d left)
    (right : infixRight g left operator p c₁ = .ok (kind, c₂))
    (made : node kind position c₂ = .ok (e, c')) : c'.depth = d ∧ LeftFits d least e c' := by
  obtain ⟨-, enough, token⟩ := infixAhead?_some ahead
  obtain ⟨same, loose⟩ := Infix.tightness_of_token token
  cases made
  have joined (back : c₂.depth = d) (fits : kind.FitsAt d) (tightness : kind.tightness = p + 1)
      (next : ∀ operator' p', c₂.infixAhead? 0 = some (operator', p') →
        p' ≤ p ∨ Expr.isTypeTest ⟨c₂.nextId, position, kind⟩) :
      c₂.depth = d ∧ LeftFits d least ⟨c₂.nextId, position, kind⟩
        { c₂ with nextId := c₂.nextId + 1 } :=
    ⟨back, .of_operation (fits.expr rfl) tightness loose enough next⟩
  cases operator with
  | typeTest =>
    obtain ⟨name, c₃, first, rest⟩ := exists_of_bind right
    obtain ⟨back, -⟩ := level_typeName d c₁ at_ name c₃ first
    cases rest
    refine joined back ⟨fits.le, fun edge mem => ?_⟩ same fun _ _ _ => .inr rfl
    obtain rfl := List.mem_singleton.mp mem
    exact fits
  | pipe | binary =>
    obtain ⟨operand, c₃, first, rest⟩ := exists_of_bind right
    obtain ⟨back, rightFits⟩ := h.infixFrom loose d c₁ at_ operand c₃ first
    have ends := h.ends first
    cases rest
    refine joined back ⟨fits.le, fun edge mem => ?_⟩ same
      fun _ _ ahead' => .inl (Nat.le_of_lt_succ (lt_of_infixAhead? ends ahead'))
    rcases List.mem_cons.mp mem with rfl | mem
    · exact fits
    · obtain rfl := List.mem_singleton.mp mem
      rw [same]
      exact rightFits

/-- Operands are joined as long as the operators bind tightly enough. -/
theorem infixStep_fits {least : Nat} {c c' : Cursor} {e : Expr} (at_ : c.depth = d)
    (read : infixStep g least c = .ok (e, c')) :
    c'.depth = d ∧ (least < Expr.prefixTightness → (Slot.operand (least + 1)).Holds d e) ∧
      c'.infixAhead? least = none := by
  obtain ⟨position, _, first, read⟩ := exists_of_bind read
  cases first
  obtain ⟨left, c₁, first, read⟩ := exists_of_bind read
  obtain ⟨back, fits⟩ := h.unary d c at_ left c₁ first
  refine loop_keeps (I := fun left c => c.depth = d ∧ LeftFits d least left c)
    (R := fun e c => c.depth = d ∧
      (least < Expr.prefixTightness → (Slot.operand (least + 1)).Holds d e) ∧
        c.infixAhead? least = none) ?_ ⟨back, .of_operand fits⟩ read
  rintro left c next c' ⟨at_, fits⟩ round
  obtain ⟨ahead, _, first, round⟩ := exists_of_bind round
  rw [infixAhead?_eq] at first
  cases first
  cases ahead : c.infixAhead? least with
  | none =>
    rw [ahead] at round
    cases round
    exact ⟨at_, fits.alone, ahead⟩
  | some operator =>
    obtain ⟨operator, p⟩ := operator
    rw [ahead] at round
    obtain ⟨token, c₂, first, round⟩ := exists_of_bind round
    have back := (level_advance d c at_ token c₂ first).1
    obtain ⟨kind, c₃, right, round⟩ := exists_of_bind round
    obtain ⟨joined, c₄, made, round⟩ := exists_of_bind round
    cases round
    exact leftFits_of_infixRight h ahead back
      (fits.beside operator p (infixAhead?_some ahead).1) right made

/-! ## Conditionals and assignments -/

theorem nests_conditionalStep : Nests d ((Slot.operand 1).Holds d) (conditionalStep g) := by
  refine .here fun position => (h.infixFrom (by decide) d).bind fun condition fits =>
    .accept fun found => ?_
  cases found with
  | false => exact .ret (fits.operand (Nat.le_succ 1))
  | true =>
    refine (h.expression d).bind fun first firstFits => .consumeMark fun _ =>
      (h.conditional d).bind fun second secondFits => nests_node.imp fun e is => ?_
    have loose : 1 < Expr.prefixTightness := by decide
    refine ExprKind.FitsAt.operand ⟨fits.le, fun edge mem => ?_⟩ is (Nat.le_refl 1) loose
    simp only [ExprKind.edges, List.mem_cons, List.not_mem_nil, or_false] at mem
    rcases mem with rfl | rfl | rfl
    · exact fits
    · exact firstFits
    · exact secondFits

theorem nests_assignmentStep : Nests d ((Slot.operand 0).Holds d) (assignmentStep g) := by
  have assigned {op : AssignOp} {target : AssignTarget} {value : Expr} {position : Position}
      (fits : (Slot.operand 0).Holds d value)
      (targetFits : ∀ edge ∈ target.edges, edge.slot.Holds d edge.expr) :
      Nests d ((Slot.operand 0).Holds d) (node (.assign op target value) position) := by
    refine nests_node.imp fun e is => ?_
    have loose : 0 < Expr.prefixTightness := by decide
    refine ExprKind.FitsAt.operand ⟨fits.le, fun edge mem => ?_⟩ is (Nat.le_refl 0) loose
    rcases List.mem_cons.mp mem with rfl | mem
    · exact fits
    · exact targetFits edge mem
  refine .here fun position => .next (.of_looks (looks_groupFollowedBy _)) fun found => ?_
  cases found with
  | true =>
    exact .next h.pattern fun pattern => .consumeMark fun _ => (h.assignment d).bind
      fun value fits => assigned fits fun _ mem => nomatch mem
  | false =>
    refine (h.conditional d).bind fun target targetFits => .peekKind fun kind => ?_
    split
    · exact .ret (targetFits.operand (Nat.zero_le 1))
    · refine .advance fun token => ?_
      dsimp only
      split
      · exact .fail_bind
      · refine (h.assignment d).bind fun value fits => assigned fits fun edge mem => ?_
        obtain rfl := List.mem_singleton.mp mem
        exact targetFits

end

end Parse

end ScriptEngine
