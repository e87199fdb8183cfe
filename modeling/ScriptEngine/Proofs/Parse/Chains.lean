import ScriptEngine.Proofs.Parse.Precedence
import ScriptEngine.Proofs.Tree.Parts

/-!
# Chains of expressions

An expression is read at some depth, and what stands in it at a greater one, or at the same. How much
greater depends on where it stands and on whether it needs parentheses there.

* `Slot`, `Slot.cost`: where an expression may stand in another one, and the levels from the one to the
  other.
* `ExprKind.edges`, `Block.heads`: the expressions directly inside an expression, and those directly
  inside a block.
* `Expr.Chain`: expressions each of which stands directly inside the one before.
* `Expr.FitsAt`: no chain leads below the greatest depth.
* `Module.covered`: every expression of a module is at the end of a chain from one of its heads.
-/

namespace ScriptEngine

open Parse (maxDepth)

/-! ## Levels -/

/-- How tightly an infix operator binds: more than assignments and conditionals do. -/
def Infix.tightness (operator : Infix) : Nat := operator.precedence?.getD 0 + 1

/-- How tightly an operator before its operand binds: more than all infix operators. -/
def Expr.prefixTightness : Nat := 13

/-- How tightly the parts of an expression of this kind are bound. Nothing is tighter than what no
operator stands in, nor beside. -/
def ExprKind.tightness : ExprKind → Nat
  | .assign .. => 0
  | .conditional .. => 1
  | .binary op _ _ => (Infix.binary op).tightness
  | .pipe .. => Infix.pipe.tightness
  | .typeTest .. => Infix.typeTest.tightness
  | .unary .. | .update _ true _ => Expr.prefixTightness
  | _ => Expr.prefixTightness + 1

/-- How tightly the parts of an expression are bound. -/
def Expr.tightness (e : Expr) : Nat := e.kind.tightness

/-- A type test, in which nothing stands on the right that could take an operator behind it. -/
def Expr.isTypeTest (e : Expr) : Bool :=
  match e.kind with
  | .typeTest .. => true
  | _ => false

/-- The level of its own that an operand is read on. -/
def Expr.ownLevel (e : Expr) : Nat := if Expr.prefixTightness ≤ e.tightness then 1 else 0

/-- Where an expression may stand in another one. -/
inductive Slot
  /-- Where any expression may stand, as it does between brackets. -/
  | whole
  /-- Beside an operator, where less tight expressions are in parentheses. -/
  | operand (least : Nat)
  /-- Left of an infix operator; less tight expressions are in parentheses but for type tests. -/
  | left (least : Nat)
  /-- In front of a call, an access or a step. -/
  | object

/-- The levels from an expression down to another one that stands in it. Parentheses are an operand
with a whole expression inside. -/
def Slot.cost : Slot → Expr → Nat
  | whole, e => e.ownLevel + 1
  | operand least, e => if least ≤ e.tightness then e.ownLevel else e.ownLevel + 2
  | left least, e => if least ≤ e.tightness ∨ e.isTypeTest then e.ownLevel else e.ownLevel + 2
  | object, e => if Expr.prefixTightness < e.tightness then 0 else e.ownLevel + 1

/-- An expression and where it stands in another one. -/
structure Edge where
  slot : Slot
  expr : Expr

/-- The levels down to an expression where it stands. -/
def Edge.cost (edge : Edge) : Nat := edge.slot.cost edge.expr

/-! ## What stands directly inside -/

mutual

/-- The expressions directly inside a function. -/
def FunctionDef.heads : FunctionDef → List Expr
  | ⟨_, _, body, _⟩ => body.heads

/-- The expressions directly inside a body. -/
def Body.heads : Body → List Expr
  | .block body => body.heads
  | .expr value => [value]

/-- The expressions directly inside arms. -/
def Arm.allHeads : List Arm → List Expr
  | [] => []
  | ⟨_, guard, body, _⟩ :: arms => guard.toList ++ body.heads ++ Arm.allHeads arms

/-- The expressions directly inside a block. -/
def Block.heads : Block → List Expr
  | ⟨statements, _⟩ => Stmt.allHeads statements

/-- The expressions directly inside a block that may be left out. -/
def Block.headsIfAny : Option Block → List Expr
  | none => []
  | some body => body.heads

/-- The expressions directly inside a statement. -/
def Stmt.heads : Stmt → List Expr
  | ⟨_, kind⟩ => kind.heads

/-- The expressions directly inside statements. -/
def Stmt.allHeads : List Stmt → List Expr
  | [] => []
  | statement :: rest => statement.heads ++ Stmt.allHeads rest

/-- The expressions directly inside a statement that may be left out. -/
def Stmt.headsIfAny : Option Stmt → List Expr
  | none => []
  | some statement => statement.heads

/-- The expressions directly inside a statement of this kind. -/
def StmtKind.heads : StmtKind → List Expr
  | .declare _ declarators => declarators.flatMap (·.value.toList)
  | .function definition => definition.heads
  | .branch condition thenBranch elseBranch =>
    [condition] ++ (thenBranch.heads ++ Block.headsIfAny elseBranch)
  | .whileLoop condition body | .doWhile body condition => [condition] ++ body.heads
  | .forLoop start condition update body =>
    Stmt.headsIfAny start ++ (condition.toList ++ (update.toList ++ body.heads))
  | .each _ _ iterable body => [iterable] ++ body.heads
  | .matchOn scrutinee arms => [scrutinee] ++ Arm.allHeads arms
  | .returnWith value => value.toList
  | .breakLoop | .continueLoop | .importFrom _ _ | .exportNames _ => []
  | .namespaceBlock _ body => body.heads
  | .expression value _ => [value]

end

/-- The expressions directly inside an arm. -/
def Arm.heads (arm : Arm) : List Expr := arm.guard.toList ++ arm.body.heads

theorem Arm.allHeads_eq (arms : List Arm) : Arm.allHeads arms = arms.flatMap (·.heads) := by
  induction arms with
  | nil => rfl
  | cons arm arms ih =>
    obtain ⟨pattern, guard, body, position⟩ := arm
    rw [allHeads, ih, List.flatMap_cons, heads]

theorem Stmt.allHeads_eq (statements : List Stmt) :
    Stmt.allHeads statements = statements.flatMap (·.heads) := by
  induction statements with
  | nil => rfl
  | cons s rest ih => rw [allHeads, ih, List.flatMap_cons]

/-- Expressions that stand anywhere. -/
def Edge.wholes (es : List Expr) : List Edge := es.map (⟨.whole, ·⟩)

/-- The operands of an infix operator. -/
def Infix.edges (operator : Infix) (left right : Expr) : List Edge :=
  [⟨.left operator.tightness, left⟩, ⟨.operand (operator.tightness + 1), right⟩]

/-- The left side of an assignment. -/
def AssignTarget.edges : AssignTarget → List Edge
  | .place target => [⟨.operand 1, target⟩]
  | .pattern _ => []

/-- The expressions directly inside an expression of this kind. -/
def ExprKind.edges : ExprKind → List Edge
  | .literal _ | .name _ | .this | .base | .external _ => []
  | .scoped space _ => [⟨.object, space⟩]
  | .array items | .tuple items => Edge.wholes items
  | .map entries => Edge.wholes (entries.flatMap fun entry => [entry.1, entry.2])
  | .entity members | .construct _ members => Edge.wholes (members.map (·.value))
  | .extend object members => ⟨.object, object⟩ :: Edge.wholes (members.map (·.value))
  | .unary _ operand => [⟨.operand Expr.prefixTightness, operand⟩]
  | .binary op left right => (Infix.binary op).edges left right
  | .typeTest value _ => [⟨.left Infix.typeTest.tightness, value⟩]
  | .update _ true target => [⟨.operand Expr.prefixTightness, target⟩]
  | .update _ false target => [⟨.object, target⟩]
  | .assign _ target value => ⟨.operand 0, value⟩ :: target.edges
  | .conditional condition thenBranch elseBranch =>
    [⟨.operand 2, condition⟩, ⟨.whole, thenBranch⟩, ⟨.operand 1, elseBranch⟩]
  | .pipe value callee => Infix.pipe.edges value callee
  | .call callee args => ⟨.object, callee⟩ :: Edge.wholes args
  | .member object _ | .tupleIndex object _ => [⟨.object, object⟩]
  | .index object key => [⟨.object, object⟩, ⟨.whole, key⟩]
  | .function definition => Edge.wholes definition.heads
  | .block body | .async body | .safe body => Edge.wholes body.heads
  | .lock key body => Edge.wholes (key.toList ++ body.heads)
  | .matchOn scrutinee arms => Edge.wholes ([scrutinee] ++ Arm.allHeads arms)

/-- The expressions directly inside an expression. -/
def Expr.edges (e : Expr) : List Edge := e.kind.edges

/-! ## Chains -/

/-- Expressions that follow an expression, each of which stands directly inside the one before. -/
def Expr.Chain : Expr → List Edge → Prop
  | _, [] => True
  | e, edge :: rest => edge ∈ e.edges ∧ edge.expr.Chain rest

/-- The levels from the first expression of a chain down to the last one. -/
def Edge.costs : List Edge → Nat
  | [] => 0
  | edge :: rest => edge.cost + Edge.costs rest

/-- When an expression is read at this depth, no chain from it leads below the greatest one. -/
def Expr.FitsAt (depth : Nat) (e : Expr) : Prop :=
  ∀ chain, e.Chain chain → depth + Edge.costs chain ≤ maxDepth

/-- An expression fits where it stands in one that is read at this depth. -/
def Slot.Holds (slot : Slot) (depth : Nat) (e : Expr) : Prop := e.FitsAt (depth + slot.cost e)

/-- An expression fits if what stands directly inside does. -/
theorem Expr.fitsAt_iff {depth : Nat} {e : Expr} :
    e.FitsAt depth ↔ depth ≤ maxDepth ∧ ∀ edge ∈ e.edges, edge.slot.Holds depth edge.expr := by
  constructor
  · intro fits
    refine ⟨fits [] trivial, fun edge mem chain linked => ?_⟩
    have below := fits (edge :: chain) ⟨mem, linked⟩
    rw [Edge.costs, ← Nat.add_assoc] at below
    exact below
  · rintro ⟨small, inside⟩ chain linked
    cases chain with
    | nil => exact small
    | cons edge rest =>
      have below := inside edge linked.1 rest linked.2
      rw [Edge.costs, ← Nat.add_assoc]
      exact below

theorem Expr.FitsAt.mono {depth depth' : Nat} {e : Expr} (h : e.FitsAt depth) (le : depth' ≤ depth) :
    e.FitsAt depth' :=
  fun chain linked => Nat.le_trans (Nat.add_le_add_right le _) (h chain linked)

theorem Expr.FitsAt.le {depth : Nat} {e : Expr} (h : e.FitsAt depth) : depth ≤ maxDepth :=
  h [] trivial

/-- A chain is no longer than the levels that it goes down and the edges that go down none. -/
theorem Edge.length_le_costs (chain : List Edge) :
    chain.length ≤ Edge.costs chain + chain.countP (·.cost == 0) := by
  induction chain with
  | nil => exact Nat.le_refl 0
  | cons edge rest ih =>
    rw [List.length_cons, List.countP_cons, costs]
    by_cases free : edge.cost = 0
    · simp only [free, beq_self_eq_true, if_true]
      omega
    · omega

/-! ## All expressions of a tree -/

/-- One expression is at the end of a chain from another one. -/
inductive Expr.Reaches : Expr → Expr → Prop
  | refl (e : Expr) : Reaches e e
  | step {e e' : Expr} {edge : Edge} : edge ∈ e.edges → Reaches edge.expr e' → Reaches e e'

/-- What can be reached fits too, at a depth that is no less. -/
theorem Expr.Reaches.fits {e e' : Expr} (h : e.Reaches e') {depth : Nat} (fits : e.FitsAt depth) :
    ∃ depth', depth ≤ depth' ∧ e'.FitsAt depth' := by
  induction h generalizing depth with
  | refl e => exact ⟨depth, Nat.le_refl _, fits⟩
  | step mem _ ih =>
    obtain ⟨depth', le, fits'⟩ := ih ((fitsAt_iff.mp fits).2 _ mem)
    exact ⟨depth', Nat.le_trans (Nat.le_add_right _ _) le, fits'⟩

/-- The expressions among some parts can be reached from some heads. -/
def Covered (heads : List Expr) (parts : List Part) : Prop :=
  ∀ part ∈ parts, ∀ e, part.expr? = some e → ∃ head ∈ heads, head.Reaches e

namespace Covered

variable {heads heads' : List Expr} {parts parts' : List Part} {kind : ExprKind} {id : Nat}
  {position : Position} {part : Part}

theorem nil : Covered [] [] := by
  rintro part mem
  cases mem

theorem append (h : Covered heads parts) (h' : Covered heads' parts') :
    Covered (heads ++ heads') (parts ++ parts') := by
  intro part mem e is
  rcases List.mem_append.mp mem with mem | mem
  · obtain ⟨head, among, reaches⟩ := h part mem e is
    exact ⟨head, List.mem_append_left _ among, reaches⟩
  · obtain ⟨head, among, reaches⟩ := h' part mem e is
    exact ⟨head, List.mem_append_right _ among, reaches⟩

theorem pattern (p : Pattern) : Covered [] [.pattern p] := by
  rintro part mem e is
  obtain rfl := List.mem_singleton.mp mem
  cases is

/-- An expression reaches itself and what its edges reach. -/
theorem node (h : Covered (kind.edges.map (·.expr)) kind.parts)
    (is : part.expr? = some ⟨id, position, kind⟩) :
    Covered [⟨id, position, kind⟩] (kind.parts ++ [part]) := by
  intro other mem e found
  refine ⟨_, List.mem_singleton_self _, ?_⟩
  rcases List.mem_append.mp mem with inside | itself
  · obtain ⟨head, among, reaches⟩ := h other inside e found
    obtain ⟨edge, mem, rfl⟩ := List.mem_map.mp among
    exact .step mem reaches
  · obtain rfl := List.mem_singleton.mp itself
    obtain rfl := Option.some.inj (is.symm.trans found)
    exact .refl _

end Covered

theorem Edge.map_wholes (es : List Expr) : (Edge.wholes es).map (·.expr) = es := by
  rw [wholes, List.map_map]
  exact List.map_id es

mutual

theorem Expr.covered : ∀ e : Expr, Covered [e] e.parts
  | ⟨_, _, kind⟩ => kind.covered.node rfl

theorem Expr.place_covered : ∀ e : Expr, Covered [e] e.placeParts
  | ⟨_, _, kind⟩ => kind.covered.node rfl

theorem ExprKind.covered : ∀ kind : ExprKind, Covered (kind.edges.map (·.expr)) kind.parts
  | .literal _ | .name _ | .this | .base | .external _ => .nil
  | .scoped space _ => space.covered
  | .array items | .tuple items => (Edge.map_wholes items).symm ▸ Expr.all_covered items
  | .map entries => (Edge.map_wholes _).symm ▸ Expr.entry_covered entries
  | .entity members | .construct _ members =>
    (Edge.map_wholes _).symm ▸ MemberInit.all_covered members
  | .extend base members => by
    rw [ExprKind.edges, List.map_cons, Edge.map_wholes]
    exact base.covered.append (MemberInit.all_covered members)
  | .unary _ operand => operand.covered
  | .binary _ left right => left.covered.append right.covered
  | .typeTest value _ => value.covered
  | .update _ true target | .update _ false target => target.place_covered
  | .assign _ (.place place) value => value.covered.append place.place_covered
  | .assign _ (.pattern pattern) value => value.covered.append (.pattern pattern)
  | .conditional condition thenBranch elseBranch =>
    condition.covered.append (thenBranch.covered.append elseBranch.covered)
  | .pipe value function => value.covered.append function.covered
  | .call callee args => by
    rw [ExprKind.edges, List.map_cons, Edge.map_wholes]
    exact callee.covered.append (Expr.all_covered args)
  | .member object _ | .tupleIndex object _ => object.covered
  | .index object index => object.covered.append index.covered
  | .function definition => (Edge.map_wholes _).symm ▸ definition.covered
  | .block body | .async body | .safe body => (Edge.map_wholes _).symm ▸ body.covered
  | .lock key body => (Edge.map_wholes _).symm ▸ (Expr.any_covered key).append body.covered
  | .matchOn scrutinee arms =>
    (Edge.map_wholes _).symm ▸ scrutinee.covered.append (Arm.all_covered arms)

theorem Expr.all_covered : ∀ items : List Expr, Covered items (Expr.allParts items)
  | [] => .nil
  | item :: items => item.covered.append (Expr.all_covered items)

theorem Expr.any_covered : ∀ value : Option Expr, Covered value.toList (Expr.partsIfAny value)
  | none => .nil
  | some value => value.covered

theorem Expr.entry_covered : ∀ entries : List (Expr × Expr),
    Covered (entries.flatMap fun entry => [entry.1, entry.2]) (Expr.entryParts entries)
  | [] => .nil
  | (key, value) :: entries => key.covered.append (value.covered.append (Expr.entry_covered entries))

theorem MemberInit.all_covered : ∀ members : List MemberInit,
    Covered (members.map (·.value)) (MemberInit.allParts members)
  | [] => .nil
  | ⟨_, value, _⟩ :: members => value.covered.append (MemberInit.all_covered members)

theorem FunctionDef.covered : ∀ definition : FunctionDef,
    Covered definition.heads definition.parts
  | ⟨_, _, body, _⟩ => body.covered

theorem Body.covered : ∀ body : Body, Covered body.heads body.parts
  | .block body => body.covered
  | .expr value => value.covered

theorem Arm.all_covered : ∀ arms : List Arm, Covered (Arm.allHeads arms) (Arm.allParts arms)
  | [] => .nil
  | ⟨_, guard, body, _⟩ :: arms =>
    ((Expr.any_covered guard).append body.covered).append (Arm.all_covered arms)

theorem Block.covered : ∀ body : Block, Covered body.heads body.parts
  | ⟨statements, _⟩ => Stmt.all_covered statements

theorem Block.any_covered : ∀ body : Option Block,
    Covered (Block.headsIfAny body) (Block.partsIfAny body)
  | none => .nil
  | some body => body.covered

theorem Stmt.covered : ∀ s : Stmt, Covered s.heads s.parts
  | ⟨_, kind⟩ => kind.covered

theorem Stmt.all_covered : ∀ statements : List Stmt,
    Covered (Stmt.allHeads statements) (Stmt.allParts statements)
  | [] => .nil
  | s :: rest => s.covered.append (Stmt.all_covered rest)

theorem Stmt.any_covered : ∀ s : Option Stmt, Covered (Stmt.headsIfAny s) (Stmt.partsIfAny s)
  | none => .nil
  | some s => s.covered

theorem StmtKind.covered : ∀ kind : StmtKind, Covered kind.heads kind.parts
  | .declare _ declarators => Declarator.all_covered declarators
  | .function definition => definition.covered
  | .branch condition thenBranch elseBranch =>
    condition.covered.append (thenBranch.covered.append (Block.any_covered elseBranch))
  | .whileLoop condition body | .doWhile body condition => condition.covered.append body.covered
  | .forLoop start condition update body =>
    (Stmt.any_covered start).append ((Expr.any_covered condition).append
      ((Expr.any_covered update).append body.covered))
  | .each _ _ iterable body => iterable.covered.append body.covered
  | .matchOn scrutinee arms => scrutinee.covered.append (Arm.all_covered arms)
  | .returnWith value => Expr.any_covered value
  | .breakLoop | .continueLoop | .importFrom _ _ | .exportNames _ => .nil
  | .namespaceBlock _ body => body.covered
  | .expression value _ => value.covered

theorem Declarator.all_covered : ∀ declarators : List Declarator,
    Covered (declarators.flatMap (·.value.toList)) (Declarator.allParts declarators)
  | [] => .nil
  | ⟨_, value, _⟩ :: declarators =>
    (Expr.any_covered value).append (Declarator.all_covered declarators)

end

/-- Every expression of a module can be reached from one of its heads. -/
theorem Module.covered (m : Module) {e : Expr} (mem : e ∈ m.exprs) :
    ∃ head ∈ Stmt.allHeads m.statements, head.Reaches e := by
  obtain ⟨part, among, is⟩ := List.mem_filterMap.mp mem
  exact Stmt.all_covered m.statements part among e is

end ScriptEngine
