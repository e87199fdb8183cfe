import ScriptEngine.Proofs.Tree.Parts

/-!
# The scopes of a tree

An analysis opens a fixed number of scopes for each form of a tree, every time that it walks over it.

* `Expr.scopes`, `Stmt.scopes` and the others: the scopes of all forms in a part of a tree, when the
  places of compound assignments are walked over a number of times and all others once.
* `Stmt.allScopes_eq`: the functions of a block and its other statements have all its scopes.
* `Expr.WritesPlainly`: no compound assignment to a place that has scopes.
* `Module.scopes_two_eq_iff`: only such assignments make it matter whether places are walked over twice.
-/

namespace ScriptEngine

/-- How often the place of an assignment is walked over. -/
def AssignOp.rounds (op : AssignOp) (rounds : Nat) : Nat :=
  if op.binary?.isSome then rounds else 1

mutual

/-- The scopes of an expression. -/
def Expr.scopes (rounds : Nat) : Expr → Nat
  | ⟨_, _, kind⟩ => kind.scopes rounds

/-- The scopes of an expression of this kind. -/
def ExprKind.scopes (rounds : Nat) : ExprKind → Nat
  | .literal _ | .name _ | .this | .base | .external _ => 0
  | .scoped space _ => space.scopes rounds
  | .array items | .tuple items => Expr.allScopes rounds items
  | .map entries => Expr.entryScopes rounds entries
  | .entity members | .construct _ members => MemberInit.allScopes rounds members + 1
  | .extend base members => base.scopes rounds + (MemberInit.allScopes rounds members + 1)
  | .unary _ operand => operand.scopes rounds
  | .binary _ left right => left.scopes rounds + right.scopes rounds
  | .typeTest value _ => value.scopes rounds
  | .update _ _ target => target.scopes rounds
  | .assign op target value => value.scopes rounds + target.scopes rounds op
  | .conditional condition thenBranch elseBranch =>
    condition.scopes rounds + (thenBranch.scopes rounds + elseBranch.scopes rounds)
  | .pipe value function => value.scopes rounds + function.scopes rounds
  | .call callee args => callee.scopes rounds + Expr.allScopes rounds args
  | .member object _ | .tupleIndex object _ => object.scopes rounds
  | .index object index => object.scopes rounds + index.scopes rounds
  | .function definition => definition.scopes rounds
  | .block body | .async body | .safe body => body.scopes rounds
  | .lock key body => Expr.scopesIfAny rounds key + body.scopes rounds
  | .matchOn scrutinee arms => scrutinee.scopes rounds + Arm.allScopes rounds arms

/-- The scopes of expressions. -/
def Expr.allScopes (rounds : Nat) : List Expr → Nat
  | [] => 0
  | item :: items => item.scopes rounds + Expr.allScopes rounds items

/-- The scopes of an expression that may be left out. -/
def Expr.scopesIfAny (rounds : Nat) : Option Expr → Nat
  | none => 0
  | some value => value.scopes rounds

/-- The scopes of the keys and values of map entries. -/
def Expr.entryScopes (rounds : Nat) : List (Expr × Expr) → Nat
  | [] => 0
  | (key, value) :: entries =>
    key.scopes rounds + (value.scopes rounds + Expr.entryScopes rounds entries)

/-- The scopes of the values of members. -/
def MemberInit.allScopes (rounds : Nat) : List MemberInit → Nat
  | [] => 0
  | ⟨_, value, _⟩ :: members => value.scopes rounds + MemberInit.allScopes rounds members

/-- The scopes of the left side of an assignment. -/
def AssignTarget.scopes (rounds : Nat) (op : AssignOp) : AssignTarget → Nat
  | .place place => op.rounds rounds * place.scopes rounds
  | .pattern _ => 0

/-- The scopes of a function: that of its parameters, and those of its body. -/
def FunctionDef.scopes (rounds : Nat) : FunctionDef → Nat
  | ⟨_, _, body, _⟩ => body.scopes rounds + 1

/-- The scopes of a body. -/
def Body.scopes (rounds : Nat) : Body → Nat
  | .block body => body.scopes rounds
  | .expr value => value.scopes rounds

/-- The scopes of arms: one for the pattern, guard and body of each, and those inside. -/
def Arm.allScopes (rounds : Nat) : List Arm → Nat
  | [] => 0
  | ⟨_, guard, body, _⟩ :: arms =>
    (Expr.scopesIfAny rounds guard + body.scopes rounds + 1) + Arm.allScopes rounds arms

/-- The scopes of a block: its own, and those of its statements. -/
def Block.scopes (rounds : Nat) : Block → Nat
  | ⟨statements, _⟩ => Stmt.allScopes rounds statements + 1

/-- The scopes of a block that may be left out. -/
def Block.scopesIfAny (rounds : Nat) : Option Block → Nat
  | none => 0
  | some body => body.scopes rounds

/-- The scopes of a statement. -/
def Stmt.scopes (rounds : Nat) : Stmt → Nat
  | ⟨_, kind⟩ => kind.scopes rounds

/-- The scopes of statements. -/
def Stmt.allScopes (rounds : Nat) : List Stmt → Nat
  | [] => 0
  | statement :: rest => statement.scopes rounds + Stmt.allScopes rounds rest

/-- The scopes of a statement that may be left out. -/
def Stmt.scopesIfAny (rounds : Nat) : Option Stmt → Nat
  | none => 0
  | some statement => statement.scopes rounds

/-- The scopes of a statement of this kind. Counting loops and loops over items have one besides that
of their body. -/
def StmtKind.scopes (rounds : Nat) : StmtKind → Nat
  | .declare _ declarators => Declarator.allScopes rounds declarators
  | .function definition => definition.scopes rounds
  | .branch condition thenBranch elseBranch =>
    condition.scopes rounds + (thenBranch.scopes rounds + Block.scopesIfAny rounds elseBranch)
  | .whileLoop condition body | .doWhile body condition =>
    condition.scopes rounds + body.scopes rounds
  | .forLoop start condition update body =>
    Stmt.scopesIfAny rounds start + (Expr.scopesIfAny rounds condition +
      (Expr.scopesIfAny rounds update + body.scopes rounds)) + 1
  | .each _ _ iterable body => iterable.scopes rounds + (body.scopes rounds + 1)
  | .matchOn scrutinee arms => scrutinee.scopes rounds + Arm.allScopes rounds arms
  | .returnWith value => Expr.scopesIfAny rounds value
  | .breakLoop | .continueLoop | .importFrom _ _ | .exportNames _ => 0
  | .namespaceBlock _ body => body.scopes rounds
  | .expression value _ => value.scopes rounds

/-- The scopes of the values of declarations. -/
def Declarator.allScopes (rounds : Nat) : List Declarator → Nat
  | [] => 0
  | ⟨_, value, _⟩ :: declarators =>
    Expr.scopesIfAny rounds value + Declarator.allScopes rounds declarators

end

/-- The scopes of the forms in a module. -/
def Module.scopes (rounds : Nat) (m : Module) : Nat := Stmt.allScopes rounds m.statements

/-! ## The statements of a block -/

/-- The scopes of a statement that is a function. -/
def Stmt.functionScopes (rounds : Nat) (s : Stmt) : Nat :=
  match s.kind with
  | .function definition => definition.scopes rounds
  | _ => 0

/-- The scopes of the statements that are functions. -/
def Stmt.allFunctionScopes (rounds : Nat) : List Stmt → Nat
  | [] => 0
  | s :: rest => s.functionScopes rounds + Stmt.allFunctionScopes rounds rest

/-- The scopes of a statement that is no function. -/
def Stmt.plainScopes (rounds : Nat) (s : Stmt) : Nat :=
  match s.kind with
  | .function _ => 0
  | kind => kind.scopes rounds

/-- The scopes of the statements that are no functions. -/
def Stmt.allPlainScopes (rounds : Nat) : List Stmt → Nat
  | [] => 0
  | s :: rest => s.plainScopes rounds + Stmt.allPlainScopes rounds rest

theorem Stmt.scopes_eq (rounds : Nat) (s : Stmt) :
    s.scopes rounds = s.plainScopes rounds + s.functionScopes rounds := by
  obtain ⟨position, kind⟩ := s
  cases kind <;> simp only [scopes, plainScopes, functionScopes, StmtKind.scopes, Nat.zero_add,
    Nat.add_zero]

/-- The functions of a block and its other statements have all its scopes. -/
theorem Stmt.allScopes_eq (rounds : Nat) (statements : List Stmt) :
    Stmt.allScopes rounds statements =
      Stmt.allPlainScopes rounds statements + Stmt.allFunctionScopes rounds statements := by
  induction statements with
  | nil => rfl
  | cons s rest ih =>
    rw [allScopes, scopes_eq, ih, allPlainScopes, allFunctionScopes]
    omega

/-! ## Places that are walked over twice -/

/-- If the expression is a compound assignment, then its place has no scopes. -/
def Expr.WritesPlainly (e : Expr) : Prop :=
  match e.kind with
  | .assign op (.place place) _ => op.binary?.isSome → place.scopes 1 = 0
  | _ => True

/-- The numbers of scopes of some parts when places are walked over once and twice. They are the same
exactly if no part is a compound assignment to a place that has scopes. -/
structure Repeats (once twice : Nat) (parts : List Part) : Prop where
  le : once ≤ twice
  eq_iff : twice = once ↔ ∀ e ∈ parts.filterMap Part.expr?, e.WritesPlainly

namespace Repeats

variable {once twice once' twice' : Nat} {parts parts' : List Part} {part : Part} {e : Expr}

theorem none (n : Nat) : Repeats n n [] := ⟨Nat.le_refl n, by simp⟩

theorem add (h : Repeats once twice parts) (h' : Repeats once' twice' parts') :
    Repeats (once + once') (twice + twice') (parts ++ parts') where
  le := Nat.add_le_add h.le h'.le
  eq_iff := by
    have both : twice + twice' = once + once' ↔ twice = once ∧ twice' = once' := by
      have := h.le
      have := h'.le
      omega
    rw [both, h.eq_iff, h'.eq_iff, List.filterMap_append, List.forall_mem_append]

/-- A form with a scope of its own. -/
theorem succ (h : Repeats once twice parts) : Repeats (once + 1) (twice + 1) parts :=
  ⟨Nat.succ_le_succ h.le, Nat.succ_inj.trans h.eq_iff⟩

/-- A part itself, after the parts inside. -/
theorem node (h : Repeats once twice parts) (is : part.expr? = some e) (plain : e.WritesPlainly) :
    Repeats once twice (parts ++ [part]) where
  le := h.le
  eq_iff := by
    rw [h.eq_iff, List.filterMap_append, List.forall_mem_append]
    simp [is, plain]

/-- A pattern has no scopes. -/
theorem pattern (p : Pattern) : Repeats 0 0 [.pattern p] :=
  ⟨Nat.le_refl 0, by simp [Part.expr?]⟩

/-- A compound assignment to a place. -/
theorem compound {place value : Expr} {id : Nat} {position : Position} {op : AssignOp}
    (h : Repeats once twice parts) (h' : Repeats (place.scopes 1) twice' parts')
    (compounds : op.binary?.isSome)
    (is : part.expr? = some ⟨id, position, .assign op (.place place) value⟩) :
    Repeats (once + place.scopes 1) (twice + 2 * twice') (parts ++ parts' ++ [part]) where
  le := by
    have := h.le
    have := h'.le
    omega
  eq_iff := by
    have split : twice + 2 * twice' = once + place.scopes 1 ↔
        (twice = once ∧ twice' = place.scopes 1) ∧ place.scopes 1 = 0 := by
      have := h.le
      have := h'.le
      omega
    rw [split, h.eq_iff, h'.eq_iff, List.filterMap_append, List.filterMap_append,
      List.forall_mem_append, List.forall_mem_append]
    simp [is, Expr.WritesPlainly, compounds]

end Repeats

/-- An assignment to a place. -/
theorem Repeats.assign {place value : Expr} {id : Nat} {position : Position} {op : AssignOp}
    {part : Part} (h : Repeats (value.scopes 1) (value.scopes 2) value.parts)
    (h' : Repeats (place.scopes 1) (place.scopes 2) place.placeParts)
    (is : part.expr? = some ⟨id, position, .assign op (.place place) value⟩) :
    Repeats ((ExprKind.assign op (.place place) value).scopes 1)
      ((ExprKind.assign op (.place place) value).scopes 2)
      ((ExprKind.assign op (.place place) value).parts ++ [part]) := by
  simp only [ExprKind.scopes, AssignTarget.scopes, ExprKind.parts, AssignTarget.parts]
  cases compounds : op.binary?.isSome with
  | true =>
    simp only [AssignOp.rounds, compounds, if_true, Nat.one_mul]
    exact h.compound h' compounds is
  | false =>
    simp only [AssignOp.rounds, compounds, Bool.false_eq_true, if_false, Nat.one_mul]
    refine (h.add h').node is ?_
    simp [Expr.WritesPlainly, compounds]

mutual

theorem Expr.repeats : ∀ e : Expr, Repeats (e.scopes 1) (e.scopes 2) e.parts
  | ⟨_, _, kind⟩ => ExprKind.repeats kind rfl

theorem Expr.place_repeats : ∀ e : Expr, Repeats (e.scopes 1) (e.scopes 2) e.placeParts
  | ⟨_, _, kind⟩ => ExprKind.repeats kind rfl

theorem ExprKind.repeats {id : Nat} {position : Position} {part : Part} : ∀ kind : ExprKind,
    part.expr? = some ⟨id, position, kind⟩ →
      Repeats (kind.scopes 1) (kind.scopes 2) (kind.parts ++ [part])
  | .literal _, is | .name _, is | .this, is | .base, is | .external _, is =>
    (Repeats.none 0).node is trivial
  | .scoped space _, is => space.repeats.node is trivial
  | .array items, is | .tuple items, is => (Expr.all_repeats items).node is trivial
  | .map entries, is => (Expr.entry_repeats entries).node is trivial
  | .entity members, is | .construct _ members, is =>
    (MemberInit.all_repeats members).succ.node is trivial
  | .extend base members, is =>
    (base.repeats.add (MemberInit.all_repeats members).succ).node is trivial
  | .unary _ operand, is => operand.repeats.node is trivial
  | .binary _ left right, is => (left.repeats.add right.repeats).node is trivial
  | .typeTest value _, is => value.repeats.node is trivial
  | .update _ _ target, is => target.place_repeats.node is trivial
  | .assign _ (.place place) value, is => .assign value.repeats place.place_repeats is
  | .assign _ (.pattern pattern) value, is =>
    (value.repeats.add (.pattern pattern)).node is trivial
  | .conditional condition thenBranch elseBranch, is =>
    (condition.repeats.add (thenBranch.repeats.add elseBranch.repeats)).node is trivial
  | .pipe value function, is => (value.repeats.add function.repeats).node is trivial
  | .call callee args, is => (callee.repeats.add (Expr.all_repeats args)).node is trivial
  | .member object _, is | .tupleIndex object _, is => object.repeats.node is trivial
  | .index object index, is => (object.repeats.add index.repeats).node is trivial
  | .function definition, is => definition.repeats.node is trivial
  | .block body, is | .async body, is | .safe body, is => body.repeats.node is trivial
  | .lock key body, is => ((Expr.any_repeats key).add body.repeats).node is trivial
  | .matchOn scrutinee arms, is => (scrutinee.repeats.add (Arm.all_repeats arms)).node is trivial

theorem Expr.all_repeats : ∀ items : List Expr,
    Repeats (Expr.allScopes 1 items) (Expr.allScopes 2 items) (Expr.allParts items)
  | [] => .none 0
  | item :: items => item.repeats.add (Expr.all_repeats items)

theorem Expr.any_repeats : ∀ value : Option Expr,
    Repeats (Expr.scopesIfAny 1 value) (Expr.scopesIfAny 2 value) (Expr.partsIfAny value)
  | none => .none 0
  | some value => value.repeats

theorem Expr.entry_repeats : ∀ entries : List (Expr × Expr),
    Repeats (Expr.entryScopes 1 entries) (Expr.entryScopes 2 entries) (Expr.entryParts entries)
  | [] => .none 0
  | (key, value) :: entries => key.repeats.add (value.repeats.add (Expr.entry_repeats entries))

theorem MemberInit.all_repeats : ∀ members : List MemberInit,
    Repeats (MemberInit.allScopes 1 members) (MemberInit.allScopes 2 members)
      (MemberInit.allParts members)
  | [] => .none 0
  | ⟨_, value, _⟩ :: members => value.repeats.add (MemberInit.all_repeats members)

theorem FunctionDef.repeats : ∀ definition : FunctionDef,
    Repeats (definition.scopes 1) (definition.scopes 2) definition.parts
  | ⟨_, _, body, _⟩ => body.repeats.succ

theorem Body.repeats : ∀ body : Body, Repeats (body.scopes 1) (body.scopes 2) body.parts
  | .block body => body.repeats
  | .expr value => value.repeats

theorem Arm.all_repeats : ∀ arms : List Arm,
    Repeats (Arm.allScopes 1 arms) (Arm.allScopes 2 arms) (Arm.allParts arms)
  | [] => .none 0
  | ⟨_, guard, body, _⟩ :: arms =>
    ((Expr.any_repeats guard).add body.repeats).succ.add (Arm.all_repeats arms)

theorem Block.repeats : ∀ body : Block, Repeats (body.scopes 1) (body.scopes 2) body.parts
  | ⟨statements, _⟩ => (Stmt.all_repeats statements).succ

theorem Block.any_repeats : ∀ body : Option Block,
    Repeats (Block.scopesIfAny 1 body) (Block.scopesIfAny 2 body) (Block.partsIfAny body)
  | none => .none 0
  | some body => body.repeats

theorem Stmt.repeats : ∀ s : Stmt, Repeats (s.scopes 1) (s.scopes 2) s.parts
  | ⟨_, kind⟩ => kind.repeats

theorem Stmt.all_repeats : ∀ statements : List Stmt,
    Repeats (Stmt.allScopes 1 statements) (Stmt.allScopes 2 statements) (Stmt.allParts statements)
  | [] => .none 0
  | s :: rest => s.repeats.add (Stmt.all_repeats rest)

theorem Stmt.any_repeats : ∀ s : Option Stmt,
    Repeats (Stmt.scopesIfAny 1 s) (Stmt.scopesIfAny 2 s) (Stmt.partsIfAny s)
  | none => .none 0
  | some s => s.repeats

theorem StmtKind.repeats : ∀ kind : StmtKind,
    Repeats (kind.scopes 1) (kind.scopes 2) kind.parts
  | .declare _ declarators => Declarator.all_repeats declarators
  | .function definition => definition.repeats
  | .branch condition thenBranch elseBranch =>
    condition.repeats.add (thenBranch.repeats.add (Block.any_repeats elseBranch))
  | .whileLoop condition body | .doWhile body condition => condition.repeats.add body.repeats
  | .forLoop start condition update body =>
    ((Stmt.any_repeats start).add ((Expr.any_repeats condition).add
      ((Expr.any_repeats update).add body.repeats))).succ
  | .each _ _ iterable body => iterable.repeats.add body.repeats.succ
  | .matchOn scrutinee arms => scrutinee.repeats.add (Arm.all_repeats arms)
  | .returnWith value => Expr.any_repeats value
  | .breakLoop | .continueLoop | .importFrom _ _ | .exportNames _ => .none 0
  | .namespaceBlock _ body => body.repeats
  | .expression value _ => value.repeats

theorem Declarator.all_repeats : ∀ declarators : List Declarator,
    Repeats (Declarator.allScopes 1 declarators) (Declarator.allScopes 2 declarators)
      (Declarator.allParts declarators)
  | [] => .none 0
  | ⟨_, value, _⟩ :: declarators => (Expr.any_repeats value).add (Declarator.all_repeats declarators)

end

/-- It matters whether the places of compound assignments are walked over twice exactly if one of them
has scopes. -/
theorem Module.scopes_two_eq_iff (m : Module) :
    m.scopes 2 = m.scopes 1 ↔ ∀ e ∈ m.exprs, e.WritesPlainly :=
  (Stmt.all_repeats m.statements).eq_iff

end ScriptEngine
