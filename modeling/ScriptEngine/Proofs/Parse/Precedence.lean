import Mathlib.Data.List.TakeWhile
import ScriptEngine.Proofs.Display.Forms
import ScriptEngine.Proofs.Tree.Bare

/-!
# Precedence of infix operators

Operands with infix operators between them are read as the one tree that groups them: whatever
stands left of an operator binds at least as tightly as that, and whatever stands right of it binds
more tightly.

* `Expr.Groups`: a tree reads as some tokens in order, and its operators are grouped by precedence.
* `Expr.Groups.unique`: there is only one such tree for given tokens.
* `Parse.reads_infixFrom`: operators are taken as long as they bind tightly enough.
* `Parse.expression_groups`: a chain of operands and operators is read as its tree.
-/

namespace ScriptEngine

/-! ## Trees of operators -/

/-- The expression that a token is by itself: a literal or a name. -/
def operandOf? : TokenKind → Option ExprKind
  | .name name => some (.name name)
  | kind => (Parse.literalOf? kind).map .literal

/-- What an infix operator makes of its two operands; a type test has only one. -/
def Infix.build? : Infix → Expr → Expr → Option ExprKind
  | .binary op, left, right => some (.binary op left right)
  | .pipe, value, function => some (.pipe value function)
  | .typeTest, _, _ => none

/-- The precedence of an infix operator. -/
def Infix.precedence? (operator : Infix) : Option Nat :=
  (Infix.table.find? fun row => row.2.1 = operator).map (·.2.2)

/-- The precedence of the operator at the top of a tree, if there is one. -/
def Expr.precedence? (e : Expr) : Option Nat :=
  match e.kind with
  | .binary op _ _ => (Infix.binary op).precedence?
  | .pipe _ _ => Infix.pipe.precedence?
  | .typeTest _ _ => Infix.typeTest.precedence?
  | _ => none

/-- The operator at the top of a tree, if there is one, binds at least this tightly. -/
def Expr.BindsFrom (least : Nat) (e : Expr) : Prop :=
  ∀ p, e.precedence? = some p → least ≤ p

/-- A tree of operators reads as these tokens in order. Left of an operator of precedence `p` is no
operator of a lower one, and right of it none of `p` or a lower one. -/
inductive Expr.Groups : Expr → List TokenKind → Prop
  | operand {e : Expr} {kind : TokenKind} : operandOf? kind = some e.kind → e.Groups [kind]
  | operator {e left right : Expr} {kind : TokenKind} {operator : Infix} {p : Nat}
    {l r : List TokenKind} : Infix.ofToken? kind = some (operator, p) →
    operator.build? left right = some e.kind → left.Groups l → right.Groups r →
    left.BindsFrom p → right.BindsFrom (p + 1) → e.Groups (l ++ kind :: r)

variable {e e' left right left' right' : Expr} {kind kind' : TokenKind} {operator operator' : Infix}
  {p p' least : Nat} {kinds l r : List TokenKind}

/-- A token has the precedence of the operator it stands for, that of products the highest. -/
theorem Infix.precedence?_of_token (h : Infix.ofToken? kind = some (operator, p)) :
    operator.precedence? = some p ∧ 1 ≤ p ∧ p ≤ 11 := by
  cases kind with
  | mark mark => cases mark <;> cases h <;> decide
  | _ => cases h

/-- An operator is no operand. -/
theorem Infix.ofToken?_of_operand {form : ExprKind} (h : operandOf? kind = some form) :
    Infix.ofToken? kind = none := by
  cases kind with
  | mark mark => cases h
  | _ => rfl

theorem Expr.precedence?_of_operand (h : operandOf? kind = some e.kind) : e.precedence? = none := by
  cases kind with
  | number value | string value | name value =>
    rw [precedence?, ← Option.some.inj h]
  | keyword word =>
    cases word with
    | trueWord | falseWord | nullWord => rw [precedence?, ← Option.some.inj h]
    | _ => cases h
  | mark mark | finish => cases h

theorem Expr.precedence?_of_build (h : operator.build? left right = some e.kind) :
    e.precedence? = operator.precedence? := by
  cases operator with
  | binary op | pipe => rw [precedence?, ← Option.some.inj h]
  | typeTest => cases h

theorem Expr.BindsFrom.of_operand (h : operandOf? kind = some e.kind) : e.BindsFrom least := by
  intro p top
  rw [precedence?_of_operand h] at top
  cases top

theorem Expr.BindsFrom.mono {least' : Nat} (h : e.BindsFrom least) (le : least' ≤ least) :
    e.BindsFrom least' :=
  fun p top => Nat.le_trans le (h p top)

/-! ## There is one tree -/

theorem Expr.bare_of_operand (h : operandOf? kind = some e.kind)
    (h' : operandOf? kind = some e'.kind) : e.bare = e'.bare := by
  obtain ⟨id, position, form⟩ := e
  obtain ⟨id', position', form'⟩ := e'
  obtain rfl : form = form' := Option.some.inj (h.symm.trans h')
  rfl

theorem Expr.bare_of_build (h : operator.build? left right = some e.kind)
    (h' : operator.build? left' right' = some e'.kind) (sameLeft : left.bare = left'.bare)
    (sameRight : right.bare = right'.bare) : e.bare = e'.bare := by
  obtain ⟨id, position, form⟩ := e
  obtain ⟨id', position', form'⟩ := e'
  cases operator with
  | typeTest => cases h
  | binary op | pipe =>
    cases h
    cases h'
    simp only [bare, ExprKind.bare] at sameLeft sameRight ⊢
    rw [sameLeft, sameRight]

namespace Expr.Groups

theorem ne_nil (h : e.Groups kinds) : kinds ≠ [] := by
  cases h with
  | operand _ => exact List.cons_ne_nil _ _
  | operator _ _ _ _ _ _ => exact List.append_ne_nil_of_right_ne_nil _ (List.cons_ne_nil _ _)

/-- No operator in a tree binds less tightly than the one at its top. -/
theorem le_of_mem (h : e.Groups kinds) (binds : e.BindsFrom least) (mem : kind ∈ kinds)
    (token : Infix.ofToken? kind = some (operator, p)) : least ≤ p := by
  induction h generalizing least with
  | operand atom =>
    obtain rfl := List.mem_singleton.mp mem
    rw [Infix.ofToken?_of_operand atom] at token
    cases token
  | @operator e left right kind' operator' q l r token' built _ _ leftBinds rightBinds ihl ihr =>
    have top : least ≤ q := by
      refine binds q ?_
      rw [precedence?_of_build built, (Infix.precedence?_of_token token').1]
    rcases List.mem_append.mp mem with mem | mem
    · exact ihl (leftBinds.mono top) mem
    rcases List.mem_cons.mp mem with rfl | mem
    · rw [token'] at token
      cases token
      exact top
    · exact ihr (rightBinds.mono (by omega)) mem

/-- Two operators cannot each stand in what the other one joins. -/
theorem not_crossed {between : List TokenKind} (token : Infix.ofToken? kind = some (operator, p))
    (token' : Infix.ofToken? kind' = some (operator', p'))
    (grouped : right.Groups (between ++ kind' :: r)) (rightBinds : right.BindsFrom (p + 1))
    (grouped' : left'.Groups (l ++ kind :: between)) (leftBinds : left'.BindsFrom p') : False := by
  have above : p + 1 ≤ p' := grouped.le_of_mem rightBinds (by simp) token'
  have below : p' ≤ p := grouped'.le_of_mem leftBinds (by simp) token
  omega

/-- The tokens and the precedences leave no choice where a tree is split. -/
theorem unique (h : e.Groups kinds) (h' : e'.Groups kinds) : e.bare = e'.bare := by
  induction h generalizing e' with
  | operand atom =>
    generalize same : [_] = kinds at h'
    cases h' with
    | operand atom' =>
      obtain rfl := (List.cons.inj same).1
      exact bare_of_operand atom atom'
    | operator _ _ left _ _ _ =>
      rcases List.append_eq_singleton_iff.mp same.symm with ⟨none, -⟩ | ⟨-, none⟩
      · exact absurd none left.ne_nil
      · cases none
  | @operator e left right kind operator p l r token built left right leftBinds rightBinds ihl
      ihr =>
    generalize same : l ++ kind :: r = kinds at h'
    cases h' with
    | operand _ =>
      rcases List.append_eq_singleton_iff.mp same with ⟨none, -⟩ | ⟨-, none⟩
      · exact absurd none left.ne_nil
      · cases none
    | @operator e' left' right' kind' operator' p' l' r' token' built' left' right' leftBinds'
        rightBinds' =>
      rcases List.append_eq_append_iff.mp same with ⟨between, rfl, split⟩ | ⟨between, rfl, split⟩
      · cases between with
        | cons other between =>
          obtain ⟨rfl, rfl⟩ := List.cons.inj split
          exact (not_crossed token token' right rightBinds left' leftBinds').elim
        | nil =>
          obtain ⟨rfl, rfl⟩ := List.cons.inj split
          obtain ⟨rfl, rfl⟩ := Prod.mk.inj (Option.some.inj (token.symm.trans token'))
          rw [List.append_nil] at left'
          exact bare_of_build built built' (ihl left') (ihr right')
      · cases between with
        | cons other between =>
          obtain ⟨rfl, rfl⟩ := List.cons.inj split
          exact (not_crossed token' token right' rightBinds' left leftBinds).elim
        | nil =>
          obtain ⟨rfl, rfl⟩ := List.cons.inj split
          obtain ⟨rfl, rfl⟩ := Prod.mk.inj (Option.some.inj (token.symm.trans token'))
          rw [List.append_nil] at ihl
          exact bare_of_build built built' (ihl left') (ihr right')

end Expr.Groups

/-! ## Reading a chain -/

namespace Parse

variable {under : Restrictions} {depth fuel : Nat} {first : TokenKind} {rest : List TokenKind}
  {others : List (TokenKind × TokenKind)} {P : Expr → Prop} {g : Grammar}

/-- Operators, each with the operand behind it. -/
def links (others : List (TokenKind × TokenKind)) : List TokenKind :=
  others.flatMap fun (operator, operand) => [operator, operand]

/-- Operands with operators between them. -/
def chain (first : TokenKind) (others : List (TokenKind × TokenKind)) : List TokenKind :=
  first :: links others

/-- Whether an operator in a chain binds at least this tightly. -/
def bindsFrom (least : Nat) (link : TokenKind × TokenKind) : Bool :=
  (Infix.ofToken? link.1).any fun found => decide (least ≤ found.2)

/-- An infix operator with two operands, and an operand behind it. -/
def IsLink (link : TokenKind × TokenKind) : Prop :=
  (∃ operator p, Infix.ofToken? link.1 = some (operator, p) ∧ operator ≠ .typeTest) ∧
    (operandOf? link.2).isSome

theorem links_append (others others' : List (TokenKind × TokenKind)) :
    links (others ++ others') = links others ++ links others' :=
  List.flatMap_append

theorem length_le_links (others : List (TokenKind × TokenKind)) :
    others.length ≤ (links others).length := by
  induction others with
  | nil => exact Nat.le_refl 0
  | cons link others ih =>
    rw [links, List.flatMap_cons, ← links, List.length_append, List.length_cons]
    dsimp only [List.length_cons, List.length_nil]
    omega

theorem bindsFrom_eq {link : TokenKind × TokenKind} {p : Nat} {operator : Infix}
    (token : Infix.ofToken? link.1 = some (operator, p)) :
    bindsFrom least link = decide (least ≤ p) := by
  rw [bindsFrom, token]
  rfl

theorem bindsFrom_mono {least' : Nat} {link : TokenKind × TokenKind} (le : least' ≤ least)
    (binds : bindsFrom least link = true) : bindsFrom least' link = true := by
  obtain ⟨found, token, enough⟩ := (Option.any_eq_true _ _).mp binds
  exact (Option.any_eq_true _ _).mpr ⟨found, token, by simp at enough ⊢; omega⟩

theorem bindsFrom_loosest {link : TokenKind × TokenKind} (h : IsLink link) :
    bindsFrom Infix.loosest link = true := by
  obtain ⟨⟨operator, p, token, -⟩, -⟩ := h
  rw [bindsFrom_eq token]
  exact decide_eq_true (Infix.precedence?_of_token token).2.1

/-- What is left of a chain after tight operators, and then after looser ones. -/
theorem takeWhile_bindsFrom {least' : Nat} (le : least' ≤ least)
    (others : List (TokenKind × TokenKind)) :
    others.takeWhile (bindsFrom least) ++
        (others.dropWhile (bindsFrom least)).takeWhile (bindsFrom least') =
      others.takeWhile (bindsFrom least') ∧
    (others.dropWhile (bindsFrom least)).dropWhile (bindsFrom least') =
      others.dropWhile (bindsFrom least') := by
  induction others with
  | nil => exact ⟨rfl, rfl⟩
  | cons link others ih =>
    by_cases binds : bindsFrom least link = true
    · have looser := bindsFrom_mono le binds
      simp only [List.takeWhile_cons_of_pos binds, List.dropWhile_cons_of_pos binds,
        List.takeWhile_cons_of_pos looser, List.dropWhile_cons_of_pos looser, List.cons_append, ih,
        and_self]
    · simp only [List.takeWhile_cons_of_neg binds, List.dropWhile_cons_of_neg binds,
        List.nil_append, and_self]

/-- Behind an operand of a chain stands nothing that goes on with it. -/
theorem operandEnds_links (all : ∀ link ∈ others, IsLink link) (ends : Ends rest) :
    OperandEnds (links others ++ rest) := by
  cases others with
  | nil => exact ends.operand
  | cons link others =>
    obtain ⟨⟨operator, p, token, -⟩, -⟩ := all link List.mem_cons_self
    obtain ⟨kind, operand⟩ := link
    refine ⟨kind, _, rfl, ?_⟩
    cases kind with
    | mark mark => cases mark <;> first | rfl | cases token
    | _ => cases token

/-! ### Operands -/

theorem reads_primary_name {name : String} (ends : OperandEnds rest) :
    Reads under (primary g) depth (.name name :: rest) rest (·.kind = .name name) := by
  obtain ⟨kind, more, rfl, plain⟩ := ends
  refine reads_peek.bind fun token ofKind => ?_
  rw [ofKind]
  refine reads_get.bind fun c stands => (reads_advance (by simp)).bind fun _ _ => ?_
  have noArrow : kind ≠ .mark .fatArrow := by
    rintro rfl
    cases plain
  have noBrace : kind ≠ .mark .leftBrace := by
    rintro rfl
    cases plain
  rw [stands.kindAfter, decide_eq_false noArrow, Bool.and_false, if_neg Bool.false_ne_true]
  have noMembers : Reads under (membersAhead true) depth (kind :: more) (kind :: more)
      (· = false) := by
    refine reads_get.bind fun c stands => ?_
    rw [stands.current, if_neg noBrace]
    exact .ret rfl
  refine noMembers.next ?_
  rw [Bool.and_false, if_neg Bool.false_ne_true]
  exact reads_node

/-- A single token that is an operand. -/
theorem reads_operand {form : ExprKind} (operand : operandOf? kind = some form)
    (ends : OperandEnds rest) (room : depth < maxDepth) :
    Reads under (unaryStep g) depth (kind :: rest) rest (·.kind = form) := by
  by_cases named : ∃ name, kind = .name name
  · obtain ⟨name, rfl⟩ := named
    obtain rfl := Option.some.inj operand
    exact reads_unaryStep (reads_primary_name ends) ⟨rfl, rfl⟩ ends room
  · have literal : operandOf? kind = (literalOf? kind).map .literal :=
      operandOf?.eq_2 kind fun name same => named ⟨name, same⟩
    obtain ⟨literal, found, rfl⟩ := Option.map_eq_some_iff.mp (literal.symm.trans operand)
    exact reads_unary_literal found ends room

/-! ### Operators -/

/-- An operator that binds tightly enough is found. -/
theorem reads_infixAhead?_of_le (token : Infix.ofToken? kind = some (operator, p))
    (outside : under.inArm = false) (enough : least ≤ p) :
    Reads under (infixAhead? least) depth (kind :: kinds) (kind :: kinds)
      (· = some (operator, p)) := by
  refine reads_get.bind fun c stands => ?_
  rw [stands.current, token]
  dsimp only
  rw [stands.restrictions, outside, Bool.and_false, Bool.or_false, if_neg (by simpa using enough)]
  exact .ret rfl

/-- Another one is left. -/
theorem reads_infixAhead?_of_lt (token : Infix.ofToken? kind = some (operator, p))
    (loose : p < least) :
    Reads under (infixAhead? least) depth (kind :: kinds) (kind :: kinds) (· = none) := by
  refine reads_get.bind fun c stands => ?_
  rw [stands.current, token]
  dsimp only
  rw [decide_eq_true loose, Bool.true_or, if_pos rfl]
  exact .ret rfl

/-- The right operand is what the operators that bind more tightly join. -/
theorem reads_infixRight (binary : operator ≠ .typeTest)
    (h : Reads under (g.infixFrom (p + 1)) depth kinds rest P) :
    Reads under (infixRight g left operator p) depth kinds rest fun form =>
      ∃ right, operator.build? left right = some form ∧ P right := by
  cases operator with
  | typeTest => exact absurd rfl binary
  | binary op | pipe => exact h.bind fun right holds => .ret ⟨right, rfl, holds⟩

/-- A tree of these tokens whose operators bind at least this tightly. -/
def Taken (least : Nat) (kinds : List TokenKind) (e : Expr) : Prop :=
  e.Groups kinds ∧ e.BindsFrom least

/-- What `g` reads as operands and operators that bind at least this tightly is the tree of the
operators of a chain that do, up to the first one that does not. -/
def ReadsChains (g : Grammar) (under : Restrictions) (depth : Nat) (rest : List TokenKind)
    (least : Nat) : Prop :=
  ∀ first others, (operandOf? first).isSome → (∀ link ∈ others, IsLink link) →
    Reads under (g.infixFrom least) depth (chain first others ++ rest)
      (links (others.dropWhile (bindsFrom least)) ++ rest)
      (Taken least (chain first (others.takeWhile (bindsFrom least))))

/-- One round takes an operator with the tighter ones behind it. The tree so far can stand left of
the operator, and the new one binds no less tightly than what comes next. -/
theorem reads_link (right : ReadsChains g under depth rest (p + 1)) {first : TokenKind}
    {position : Position} (outside : under.inArm = false)
    (token : Infix.ofToken? kind = some (operator, p)) (binary : operator ≠ .typeTest)
    (operand : (operandOf? first).isSome) (all : ∀ link ∈ others, IsLink link)
    (enough : least ≤ p) (grouped : left.Groups kinds) (binds : left.BindsFrom p) :
    Reads under (do
        match ← infixAhead? least with
        | some (operator, precedence) =>
          let _ ← advance
          return Sum.inl (← node (← infixRight g left operator precedence) position)
        | none => return .inr left) depth (kind :: (chain first others ++ rest))
      (links (others.dropWhile (bindsFrom (p + 1))) ++ rest) fun next =>
      ∃ e, next = .inl e ∧
        e.Groups (kinds ++ kind :: chain first (others.takeWhile (bindsFrom (p + 1)))) ∧
        e.precedence? = some p := by
  have goes : kind ≠ .finish := by
    rintro rfl
    cases token
  refine (reads_infixAhead?_of_le token outside enough).next
    ((reads_advance goes).bind fun _ _ => ?_)
  refine (reads_infixRight binary (right first others operand all)).bind ?_
  rintro form ⟨right, built, rightGrouped, rightBinds⟩
  refine reads_node.bind fun e same => .ret ⟨e, rfl, ?_, ?_⟩
  · exact .operator token (same ▸ built) grouped rightGrouped binds rightBinds
  · rw [Expr.precedence?_of_build (same ▸ built), (Infix.precedence?_of_token token).1]

/-- Operators of a chain are taken as long as they bind tightly enough. -/
theorem reads_links (right : ∀ p, least ≤ p → p ≤ 11 → ReadsChains g under depth rest (p + 1))
    (outside : under.inArm = false) (ends : Ends rest) {position : Position} {size : Nat}
    (all : ∀ link ∈ others, IsLink link) (taken : Taken least kinds e)
    (next : ∀ link ∈ others.head?, ∀ operator p, Infix.ofToken? link.1 = some (operator, p) →
      least ≤ p → e.BindsFrom p)
    (short : others.length ≤ size) (enough : others.length ≤ fuel) :
    Reads under (loop (fun left => do
        match ← infixAhead? least with
        | some (operator, precedence) =>
          let _ ← advance
          return .inl (← node (← infixRight g left operator precedence) position)
        | none => return .inr left) (fuel + 1) e) depth (links others ++ rest)
      (links (others.dropWhile (bindsFrom least)) ++ rest)
      (Taken least (kinds ++ links (others.takeWhile (bindsFrom least)))) := by
  induction size generalizing others kinds e fuel with
  | zero =>
    obtain rfl := List.eq_nil_of_length_eq_zero (Nat.le_zero.mp short)
    refine Reads.last ((reads_infixAhead? ends).next (.ret ⟨e, rfl, ?_⟩))
    rw [List.takeWhile_nil, links, List.flatMap_nil, List.append_nil]
    exact taken
  | succ size ih =>
    cases others with
    | nil => exact ih all taken next (Nat.zero_le _) enough
    | cons link others =>
      obtain ⟨⟨operator, p, token, binary⟩, operand⟩ := all link List.mem_cons_self
      obtain ⟨kind, first⟩ := link
      by_cases binds : least ≤ p
      · have tight : bindsFrom least (kind, first) = true := by
          rw [bindsFrom_eq token, decide_eq_true binds]
        obtain ⟨takes, leaves⟩ := takeWhile_bindsFrom (Nat.le_succ_of_le binds) others
        rw [List.takeWhile_cons_of_pos tight, List.dropWhile_cons_of_pos tight, ← takes, ← leaves]
        obtain ⟨fuel, rfl⟩ := Nat.exists_eq_succ_of_ne_zero (Nat.ne_of_gt
          (Nat.lt_of_lt_of_le (Nat.succ_pos _) enough))
        refine Reads.again _ (reads_link (right p binds (Infix.precedence?_of_token token).2.2)
          outside token binary operand (fun link mem => all link (List.mem_cons_of_mem _ mem)) binds
          taken.1 (next _ rfl _ _ token binds)) ?_
        rintro e' ⟨grouped, top⟩
        have fewer := (List.dropWhile_suffix (l := others) (bindsFrom (p + 1))).length_le
        have inside : ∀ link ∈ others.dropWhile (bindsFrom (p + 1)), IsLink link := fun link mem =>
          all link (List.mem_cons_of_mem _ ((List.dropWhile_suffix _).mem mem))
        have bindsAll : ∀ q, q ≤ p → e'.BindsFrom q := fun q le q' top' => by
          rw [top] at top'
          exact Option.some.inj top' ▸ le
        refine (ih inside ⟨grouped, bindsAll least binds⟩ ?_ (by simp at short; omega)
          (by simp at enough; omega)).imp fun e'' taken' => ?_
        · intro link head operator q token' _
          refine bindsAll q (Nat.not_lt.mp fun above => ?_)
          have tighter : bindsFrom (p + 1) link = true := by
            rw [bindsFrom_eq token', decide_eq_true (Nat.succ_le_of_lt above)]
          have stops := List.head?_dropWhile_not (bindsFrom (p + 1)) others
          rw [Option.mem_def.mp head] at stops
          exact Bool.false_ne_true (stops.symm.trans tighter)
        · rw [List.append_assoc, List.cons_append, chain, List.cons_append, ← links_append]
            at taken'
          exact taken'
      · have loose : ¬ bindsFrom least (kind, first) = true := by
          rw [bindsFrom_eq token, decide_eq_false binds]
          exact Bool.false_ne_true
        rw [List.takeWhile_cons_of_neg loose, List.dropWhile_cons_of_neg loose]
        refine Reads.last ((reads_infixAhead?_of_lt token (Nat.lt_of_not_le binds)).next
          (.ret ⟨e, rfl, ?_⟩))
        rw [links, List.flatMap_nil, List.append_nil]
        exact taken

/-- With enough steps operands and operators that bind at least this tightly are read. -/
theorem reads_infixFrom (outside : under.inArm = false) (ends : Ends rest)
    (room : depth < maxDepth) (n least : Nat) (least_le : least ≤ 12) (enough : 14 ≤ n + least) :
    ReadsChains (Grammar.fuelled n) under depth rest least := by
  induction n generalizing least with
  | zero => omega
  | succ n ih =>
    intro first others operand all
    obtain ⟨n, rfl⟩ := Nat.exists_eq_succ_of_ne_zero (n := n) (by omega)
    obtain ⟨form, operand⟩ := Option.isSome_iff_exists.mp operand
    have unary : Reads under (readForm (n + 1) .unary) depth (chain first others ++ rest)
        (links others ++ rest) (·.kind = form) :=
      reads_operand operand (operandEnds_links all ends) room
    refine reads_here.bind fun position _ => unary.bind fun e same => ?_
    refine .repeating fun fuel more => ?_
    obtain ⟨fuel, rfl⟩ := Nat.exists_eq_succ_of_ne_zero (Nat.ne_of_gt (Nat.zero_lt_of_lt more))
    have taken : Taken least [first] e :=
      ⟨.operand (same ▸ operand), .of_operand (same ▸ operand)⟩
    refine reads_links (fun p le le' => ih (p + 1) (by omega) (by omega)) outside ends all taken
      (fun _ _ _ _ _ _ => .of_operand (same ▸ operand)) (Nat.le_refl _) ?_
    have length : others.length ≤ (links others).length := length_le_links others
    rw [List.length_append] at more
    omega

/-- A chain of operands and operators is read as the one tree that groups it by precedence. -/
theorem expression_groups (first : TokenKind) (others : List (TokenKind × TokenKind))
    (rest : List TokenKind) (c : Cursor) (count : Nat) (operand : (operandOf? first).isSome)
    (all : ∀ link ∈ others, IsLink link) (ends : Ends rest)
    (outside : c.restrictions.inArm = false) (room : c.depth + 1 < maxDepth)
    (stands : c.current.kind :: c.following.map (·.kind) = chain first others ++ rest) :
    ∃ e c', (Grammar.fuelled (fuelFor count)).expression c = .ok (e, c') ∧
      e.Groups (chain first others) ∧
      (∀ other : Expr, other.Groups (chain first others) → other.bare = e.bare) ∧
      c'.StandsAt c.restrictions c.depth rest := by
  obtain ⟨n, fuel⟩ : ∃ n, fuelFor count = (n + 13) + 3 := ⟨16 * count, rfl⟩
  have infixes := reads_infixFrom outside ends room (n + 13) Infix.loosest (by decide)
    (by simp [Infix.loosest]) first others operand all
  have whole : ∀ link ∈ others, bindsFrom Infix.loosest link = true :=
    fun link mem => bindsFrom_loosest (all link mem)
  rw [List.takeWhile_eq_self_iff.mpr whole, List.dropWhile_eq_nil_iff.mpr whole] at infixes
  have grouped : Grouped (chain first others ++ rest) rest := Grouped.of_ne fun opens => by
    rw [opens] at operand
    cases operand
  obtain ⟨e, c', read, ⟨groups, -⟩, stands'⟩ :=
    reads_expression_of_infix infixes grouped ends (by omega) c ⟨stands, rfl, rfl⟩
  exact ⟨e, c', fuel ▸ read, groups, fun other grouped => grouped.unique groups, stands'⟩

/-- The tokens of `a - b * c - a`. -/
def differenceTokens : List Token :=
  [⟨.name "a", "a", .nowhere, 0⟩, ⟨.mark .minus, "-", .nowhere, 0⟩, ⟨.name "b", "b", .nowhere, 0⟩,
    ⟨.mark .star, "*", .nowhere, 0⟩, ⟨.name "c", "c", .nowhere, 0⟩,
    ⟨.mark .minus, "-", .nowhere, 0⟩, ⟨.name "a", "a", .nowhere, 0⟩, ⟨.finish, "", .nowhere, 0⟩]

/-- The product `b * c`, without places. -/
def product : Expr :=
  ⟨0, .nowhere, .binary .multiply ⟨0, .nowhere, .name "b"⟩ ⟨0, .nowhere, .name "c"⟩⟩

/-- The difference `a - (b * c)`, without places. -/
def firstDifference : Expr := ⟨0, .nowhere, .binary .subtract ⟨0, .nowhere, .name "a"⟩ product⟩

/-- The difference `(a - (b * c)) - a`, without places. -/
def difference : Expr :=
  ⟨0, .nowhere, .binary .subtract firstDifference ⟨0, .nowhere, .name "a"⟩⟩

/-- `a - b * c - a` is `(a - (b * c)) - a`. -/
theorem expression_groups_of_difference :
    ∃ e c, (Grammar.fuelled (fuelFor 8)).expression (.ofTokens differenceTokens) = .ok (e, c) ∧
      e.bare = difference := by
  have links : ∀ link ∈ [(TokenKind.mark .minus, TokenKind.name "b"), (.mark .star, .name "c"),
      (.mark .minus, .name "a")], IsLink link := by
    intro link mem
    simp only [List.mem_cons, List.not_mem_nil, or_false] at mem
    obtain rfl | rfl | rfl := mem
    all_goals exact ⟨⟨_, _, rfl, by decide⟩, rfl⟩
  obtain ⟨e, c, read, -, unique, -⟩ := expression_groups (.name "a") _ [.finish]
    (.ofTokens differenceTokens) 8 rfl links ends_finish rfl (by decide) rfl
  have name (text : String) : Expr.Groups ⟨0, .nowhere, .name text⟩ [.name text] := .operand rfl
  have alone (text : String) (least : Nat) : Expr.BindsFrom least ⟨0, .nowhere, .name text⟩ :=
    .of_operand (show operandOf? (.name text) = _ from rfl)
  have right : product.Groups [.name "b", .mark .star, .name "c"] :=
    .operator (p := 11) rfl rfl (name "b") (name "c") (alone "b" 11) (alone "c" 12)
  have left : firstDifference.Groups
      [.name "a", .mark .minus, .name "b", .mark .star, .name "c"] :=
    .operator (p := 10) rfl rfl (name "a") right (alone "a" 10) (by rintro p ⟨⟩; decide)
  have whole : difference.Groups ([.name "a", .mark .minus, .name "b", .mark .star, .name "c"] ++
      .mark .minus :: [.name "a"]) :=
    .operator (p := 10) rfl rfl left (name "a") (by rintro p ⟨⟩; decide) (alone "a" 11)
  exact ⟨e, c, read, (unique difference whole).symm⟩

end Parse

end ScriptEngine
