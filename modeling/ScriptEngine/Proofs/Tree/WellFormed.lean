import Mathlib.Data.List.Nodup
import ScriptEngine.Proofs.Tree.Parts

/-!
# Well-formed trees

The types of trees allow more than the language means: steps of what is no place, patterns with two
marks for the rest, functions with a parameter twice. Evaluation, matching and analysis count on
trees without these.

* `Pattern.WellFormed`: at most one mark for the rest among the items of a list, and no tuple of no
  item or of a plain one.
* `Expr.WellFormed`, `Stmt.WellFormed` and the others: each part of a tree is as it has to be.
* `Expr.parts_wellFormed`, `Stmt.parts_wellFormed` and the others: so is whatever an analysis walks
  over, and what is written is a place.
-/

namespace ScriptEngine

/-! ## Lists -/

/-- The items of a list of patterns mark the rest at most once. -/
def Pattern.RestsOnce (items : List Pattern) : Prop := items.countP isRest ≤ 1

/-- The items of a tuple: some, and a single one only if it stands for any number of them. -/
def Pattern.MakeTuple (items : List Pattern) : Prop :=
  items ≠ [] ∧ ∀ item, items = [item] → item = .rest

/-- Members of different names. -/
def MemberInit.Distinct (members : List MemberInit) : Prop := (members.map MemberInit.name).Nodup

/-- No parameter twice, but for those that are ignored. -/
def DistinctParams (params : List String) : Prop := (params.filter (· != "_")).Nodup

/-- The name of a host class. -/
def BeginsWithCapital (name : String) : Prop := ∃ c rest, name.toList = c :: rest ∧ Text.isCapital c

/-! ## Trees -/

mutual

/-- The lists of items in a pattern are as they have to be. -/
def Pattern.WellFormed : Pattern → Prop
  | .wildcard | .rest | .bind _ | .literal _ => True
  | .tuple items => MakeTuple items ∧ RestsOnce items ∧ Pattern.AllWellFormed items
  | .array items => RestsOnce items ∧ Pattern.AllWellFormed items

/-- `Pattern.WellFormed` for each of some patterns. -/
def Pattern.AllWellFormed : List Pattern → Prop
  | [] => True
  | item :: items => item.WellFormed ∧ Pattern.AllWellFormed items

end

mutual

/-- Each part of an expression is as it has to be. -/
def Expr.WellFormed : Expr → Prop
  | ⟨_, _, kind⟩ => kind.WellFormed

/-- Each part of an expression of this kind is as it has to be. -/
def ExprKind.WellFormed : ExprKind → Prop
  | .literal _ | .name _ | .this | .base | .external _ => True
  | .scoped space _ => space.WellFormed
  | .array items | .tuple items => Expr.AllWellFormed items
  | .map entries => Expr.EntriesWellFormed entries
  | .entity members => MemberInit.Distinct members ∧ MemberInit.AllWellFormed members
  | .extend base members =>
    base.WellFormed ∧ MemberInit.Distinct members ∧ MemberInit.AllWellFormed members
  | .construct className members =>
    BeginsWithCapital className ∧ MemberInit.Distinct members ∧ MemberInit.AllWellFormed members
  | .unary _ operand => operand.WellFormed
  | .binary _ left right => left.WellFormed ∧ right.WellFormed
  | .typeTest value _ => value.WellFormed
  | .update _ _ target => target.isPlace = true ∧ target.WellFormed
  | .assign _ target value => target.WellFormed ∧ value.WellFormed
  | .conditional condition thenBranch elseBranch =>
    condition.WellFormed ∧ thenBranch.WellFormed ∧ elseBranch.WellFormed
  | .pipe value function => value.WellFormed ∧ function.WellFormed
  | .call callee args => callee.WellFormed ∧ Expr.AllWellFormed args
  | .member object _ | .tupleIndex object _ => object.WellFormed
  | .index object index => object.WellFormed ∧ index.WellFormed
  | .function definition => definition.WellFormed
  | .block body | .async body | .safe body => body.WellFormed
  | .lock key body => Expr.WellFormedIfAny key ∧ body.WellFormed
  | .matchOn scrutinee arms => scrutinee.WellFormed ∧ Arm.AllWellFormed arms

/-- `Expr.WellFormed` for each of some expressions. -/
def Expr.AllWellFormed : List Expr → Prop
  | [] => True
  | e :: es => e.WellFormed ∧ Expr.AllWellFormed es

/-- `Expr.WellFormed` for an expression that may be left out. -/
def Expr.WellFormedIfAny : Option Expr → Prop
  | none => True
  | some e => e.WellFormed

/-- `Expr.WellFormed` for the keys and values of map entries. -/
def Expr.EntriesWellFormed : List (Expr × Expr) → Prop
  | [] => True
  | (key, value) :: entries => key.WellFormed ∧ value.WellFormed ∧ Expr.EntriesWellFormed entries

/-- `Expr.WellFormed` for the values of members. -/
def MemberInit.AllWellFormed : List MemberInit → Prop
  | [] => True
  | ⟨_, value, _⟩ :: members => value.WellFormed ∧ MemberInit.AllWellFormed members

/-- The left side of an assignment is a place or a pattern, with parts as they have to be. -/
def AssignTarget.WellFormed : AssignTarget → Prop
  | .place place => place.isPlace = true ∧ place.WellFormed
  | .pattern pattern => pattern.WellFormed

/-- Each part of a function is as it has to be. -/
def FunctionDef.WellFormed : FunctionDef → Prop
  | ⟨_, params, body, _⟩ => DistinctParams params ∧ body.WellFormed

/-- Each part of a body is as it has to be. -/
def Body.WellFormed : Body → Prop
  | .block body => body.WellFormed
  | .expr value => value.WellFormed

/-- Each part of some arms is as it has to be. -/
def Arm.AllWellFormed : List Arm → Prop
  | [] => True
  | ⟨pattern, guard, body, _⟩ :: arms =>
    pattern.WellFormed ∧ Expr.WellFormedIfAny guard ∧ body.WellFormed ∧ Arm.AllWellFormed arms

/-- Each part of a block is as it has to be. -/
def Block.WellFormed : Block → Prop
  | ⟨statements, _⟩ => Stmt.AllWellFormed statements

/-- `Block.WellFormed` for a block that may be left out. -/
def Block.WellFormedIfAny : Option Block → Prop
  | none => True
  | some body => body.WellFormed

/-- Each part of a statement is as it has to be. -/
def Stmt.WellFormed : Stmt → Prop
  | ⟨_, kind⟩ => kind.WellFormed

/-- `Stmt.WellFormed` for each of some statements. -/
def Stmt.AllWellFormed : List Stmt → Prop
  | [] => True
  | statement :: rest => statement.WellFormed ∧ Stmt.AllWellFormed rest

/-- `Stmt.WellFormed` for a statement that may be left out. -/
def Stmt.WellFormedIfAny : Option Stmt → Prop
  | none => True
  | some statement => statement.WellFormed

/-- Each part of a statement of this kind is as it has to be. -/
def StmtKind.WellFormed : StmtKind → Prop
  | .declare _ declarators => Declarator.AllWellFormed declarators
  | .function definition => definition.name.isSome = true ∧ definition.WellFormed
  | .branch condition thenBranch elseBranch =>
    condition.WellFormed ∧ thenBranch.WellFormed ∧ Block.WellFormedIfAny elseBranch
  | .whileLoop condition body | .doWhile body condition => condition.WellFormed ∧ body.WellFormed
  | .forLoop start condition update body =>
    Stmt.WellFormedIfAny start ∧ Expr.WellFormedIfAny condition ∧ Expr.WellFormedIfAny update ∧
      body.WellFormed
  | .each _ _ iterable body => iterable.WellFormed ∧ body.WellFormed
  | .matchOn scrutinee arms => scrutinee.WellFormed ∧ Arm.AllWellFormed arms
  | .returnWith value => Expr.WellFormedIfAny value
  | .breakLoop | .continueLoop | .importFrom _ _ | .exportNames _ => True
  | .namespaceBlock _ body => body.WellFormed
  | .expression value _ => value.WellFormed

/-- Each part of some declarations is as it has to be; what is no plain name has a value. -/
def Declarator.AllWellFormed : List Declarator → Prop
  | [] => True
  | ⟨target, value, _⟩ :: declarators =>
    target.WellFormed ∧ (target.isBind = false → value.isSome = true) ∧
      Expr.WellFormedIfAny value ∧ Declarator.AllWellFormed declarators

end

/-! ## Parts of lists -/

/-- A member whose value is well formed. -/
def MemberInit.WellFormed (member : MemberInit) : Prop := member.value.WellFormed

/-- An arm whose parts are well formed. -/
def Arm.WellFormed (arm : Arm) : Prop :=
  arm.pattern.WellFormed ∧ Expr.WellFormedIfAny arm.guard ∧ arm.body.WellFormed

/-- A declaration whose parts are well formed, with a value unless it is one of a plain name. -/
def Declarator.WellFormed (d : Declarator) : Prop :=
  d.target.WellFormed ∧ (d.target.isBind = false → d.value.isSome = true) ∧
    Expr.WellFormedIfAny d.value

theorem Pattern.eq_rest_of_isRest {p : Pattern} (h : p.isRest = true) : p = .rest := by
  cases p with
  | rest => rfl
  | _ => cases h

theorem Pattern.allWellFormed_iff {items : List Pattern} :
    Pattern.AllWellFormed items ↔ ∀ item ∈ items, item.WellFormed := by
  induction items with
  | nil => simp [AllWellFormed]
  | cons item items ih => rw [AllWellFormed, List.forall_mem_cons, ih]

theorem Expr.allWellFormed_iff {es : List Expr} :
    Expr.AllWellFormed es ↔ ∀ e ∈ es, e.WellFormed := by
  induction es with
  | nil => simp [AllWellFormed]
  | cons e es ih => rw [AllWellFormed, List.forall_mem_cons, ih]

theorem Expr.entriesWellFormed_iff {entries : List (Expr × Expr)} :
    Expr.EntriesWellFormed entries ↔
      ∀ entry ∈ entries, entry.1.WellFormed ∧ entry.2.WellFormed := by
  induction entries with
  | nil => simp [EntriesWellFormed]
  | cons entry entries ih => rw [EntriesWellFormed, List.forall_mem_cons, ih, and_assoc]

theorem MemberInit.allWellFormed_iff {members : List MemberInit} :
    MemberInit.AllWellFormed members ↔ ∀ member ∈ members, member.WellFormed := by
  induction members with
  | nil => simp [AllWellFormed]
  | cons member members ih =>
    obtain ⟨name, value, position⟩ := member
    rw [AllWellFormed, List.forall_mem_cons, ih, WellFormed]

theorem Arm.allWellFormed_iff {arms : List Arm} :
    Arm.AllWellFormed arms ↔ ∀ arm ∈ arms, arm.WellFormed := by
  induction arms with
  | nil => simp [AllWellFormed]
  | cons arm arms ih =>
    obtain ⟨pattern, guard, body, position⟩ := arm
    rw [AllWellFormed, List.forall_mem_cons, ih, WellFormed, and_assoc, and_assoc]

theorem Stmt.allWellFormed_iff {statements : List Stmt} :
    Stmt.AllWellFormed statements ↔ ∀ s ∈ statements, s.WellFormed := by
  induction statements with
  | nil => simp [AllWellFormed]
  | cons s rest ih => rw [AllWellFormed, List.forall_mem_cons, ih]

theorem Declarator.allWellFormed_iff {declarators : List Declarator} :
    Declarator.AllWellFormed declarators ↔ ∀ d ∈ declarators, d.WellFormed := by
  induction declarators with
  | nil => simp [AllWellFormed]
  | cons d rest ih =>
    obtain ⟨target, value, position⟩ := d
    rw [AllWellFormed, List.forall_mem_cons, ih, WellFormed, and_assoc, and_assoc]

theorem MemberInit.Distinct.nil : Distinct [] := List.nodup_nil

/-- Another member has a name of its own. -/
theorem MemberInit.Distinct.push {members : List MemberInit} {member : MemberInit}
    (h : Distinct members) (fresh : ∀ other ∈ members, other.name ≠ member.name) :
    Distinct (members ++ [member]) := by
  rw [Distinct, List.map_append]
  refine List.Nodup.append h (List.nodup_singleton member.name) ?_
  simpa using fresh

theorem DistinctParams.nil : DistinctParams [] := List.nodup_nil

theorem DistinctParams.singleton (name : String) : DistinctParams [name] :=
  (List.nodup_singleton name).filter _

/-- Another parameter is ignored or has a name of its own. -/
theorem DistinctParams.push {params : List String} {name : String} (h : DistinctParams params)
    (fresh : name ≠ "_" → name ∉ params) : DistinctParams (params ++ [name]) := by
  rw [DistinctParams, List.filter_append]
  by_cases ignored : name = "_"
  · subst ignored
    simpa [DistinctParams] using h
  · have last : [name].filter (· != "_") = [name] := by simp [ignored]
    rw [last]
    refine List.Nodup.append h (List.nodup_singleton name) ?_
    simpa using fun mem => (fresh ignored mem).elim

/-! ## What an analysis walks over -/

/-- What is written is a place, and each part of a part of a tree is as it has to be. -/
def Part.WellFormed : Part → Prop
  | .value e => e.WellFormed
  | .place e => e.isPlace = true ∧ e.WellFormed
  | .pattern p => p.WellFormed

mutual

theorem Expr.parts_wellFormed : ∀ {e : Expr}, e.WellFormed → ∀ part ∈ e.parts, part.WellFormed
  | ⟨_, _, _⟩, h => List.forall_mem_append.mpr
    ⟨ExprKind.parts_wellFormed h, List.forall_mem_singleton.mpr h⟩

theorem Expr.placeParts_wellFormed : ∀ {e : Expr}, e.isPlace = true → e.WellFormed →
    ∀ part ∈ e.placeParts, part.WellFormed
  | ⟨_, _, _⟩, place, h => List.forall_mem_append.mpr
    ⟨ExprKind.parts_wellFormed h, List.forall_mem_singleton.mpr ⟨place, h⟩⟩

theorem ExprKind.parts_wellFormed :
    ∀ {kind : ExprKind}, kind.WellFormed → ∀ part ∈ kind.parts, part.WellFormed
  | .literal _, _ | .name _, _ | .this, _ | .base, _ | .external _, _ => List.forall_mem_nil _
  | .scoped space _, h => space.parts_wellFormed h
  | .array _, h | .tuple _, h => Expr.allParts_wellFormed h
  | .map _, h => Expr.entryParts_wellFormed h
  | .entity _, h => MemberInit.allParts_wellFormed h.2
  | .extend base _, h => List.forall_mem_append.mpr
    ⟨base.parts_wellFormed h.1, MemberInit.allParts_wellFormed h.2.2⟩
  | .construct _ _, h => MemberInit.allParts_wellFormed h.2.2
  | .unary _ operand, h => operand.parts_wellFormed h
  | .binary _ left right, h => List.forall_mem_append.mpr
    ⟨left.parts_wellFormed h.1, right.parts_wellFormed h.2⟩
  | .typeTest value _, h => value.parts_wellFormed h
  | .update _ _ target, h => target.placeParts_wellFormed h.1 h.2
  | .assign _ target value, h => List.forall_mem_append.mpr
    ⟨value.parts_wellFormed h.2, target.parts_wellFormed h.1⟩
  | .conditional condition thenBranch elseBranch, h => List.forall_mem_append.mpr
    ⟨condition.parts_wellFormed h.1, List.forall_mem_append.mpr
      ⟨thenBranch.parts_wellFormed h.2.1, elseBranch.parts_wellFormed h.2.2⟩⟩
  | .pipe value function, h => List.forall_mem_append.mpr
    ⟨value.parts_wellFormed h.1, function.parts_wellFormed h.2⟩
  | .call callee _, h => List.forall_mem_append.mpr
    ⟨callee.parts_wellFormed h.1, Expr.allParts_wellFormed h.2⟩
  | .member object _, h | .tupleIndex object _, h => object.parts_wellFormed h
  | .index object index, h => List.forall_mem_append.mpr
    ⟨object.parts_wellFormed h.1, index.parts_wellFormed h.2⟩
  | .function definition, h => definition.parts_wellFormed h
  | .block body, h | .async body, h | .safe body, h => body.parts_wellFormed h
  | .lock _ body, h => List.forall_mem_append.mpr
    ⟨Expr.partsIfAny_wellFormed h.1, body.parts_wellFormed h.2⟩
  | .matchOn scrutinee _, h => List.forall_mem_append.mpr
    ⟨scrutinee.parts_wellFormed h.1, Arm.allParts_wellFormed h.2⟩

theorem Expr.allParts_wellFormed :
    ∀ {es : List Expr}, Expr.AllWellFormed es → ∀ part ∈ Expr.allParts es, part.WellFormed
  | [], _ => List.forall_mem_nil _
  | e :: _, h => List.forall_mem_append.mpr
    ⟨e.parts_wellFormed h.1, Expr.allParts_wellFormed h.2⟩

theorem Expr.partsIfAny_wellFormed :
    ∀ {e : Option Expr}, Expr.WellFormedIfAny e → ∀ part ∈ Expr.partsIfAny e, part.WellFormed
  | none, _ => List.forall_mem_nil _
  | some e, h => e.parts_wellFormed h

theorem Expr.entryParts_wellFormed : ∀ {entries : List (Expr × Expr)},
    Expr.EntriesWellFormed entries → ∀ part ∈ Expr.entryParts entries, part.WellFormed
  | [], _ => List.forall_mem_nil _
  | (key, value) :: _, h => List.forall_mem_append.mpr
    ⟨key.parts_wellFormed h.1, List.forall_mem_append.mpr
      ⟨value.parts_wellFormed h.2.1, Expr.entryParts_wellFormed h.2.2⟩⟩

theorem MemberInit.allParts_wellFormed : ∀ {members : List MemberInit},
    MemberInit.AllWellFormed members → ∀ part ∈ MemberInit.allParts members, part.WellFormed
  | [], _ => List.forall_mem_nil _
  | ⟨_, value, _⟩ :: _, h => List.forall_mem_append.mpr
    ⟨value.parts_wellFormed h.1, MemberInit.allParts_wellFormed h.2⟩

theorem AssignTarget.parts_wellFormed :
    ∀ {target : AssignTarget}, target.WellFormed → ∀ part ∈ target.parts, part.WellFormed
  | .place place, h => place.placeParts_wellFormed h.1 h.2
  | .pattern _, h => List.forall_mem_singleton.mpr h

theorem FunctionDef.parts_wellFormed :
    ∀ {d : FunctionDef}, d.WellFormed → ∀ part ∈ d.parts, part.WellFormed
  | ⟨_, _, body, _⟩, h => body.parts_wellFormed h.2

theorem Body.parts_wellFormed :
    ∀ {body : Body}, body.WellFormed → ∀ part ∈ body.parts, part.WellFormed
  | .block body, h => body.parts_wellFormed h
  | .expr value, h => value.parts_wellFormed h

theorem Arm.allParts_wellFormed :
    ∀ {arms : List Arm}, Arm.AllWellFormed arms → ∀ part ∈ Arm.allParts arms, part.WellFormed
  | [], _ => List.forall_mem_nil _
  | ⟨_, _, body, _⟩ :: _, h => List.forall_mem_append.mpr
    ⟨List.forall_mem_append.mpr ⟨Expr.partsIfAny_wellFormed h.2.1, body.parts_wellFormed h.2.2.1⟩,
      Arm.allParts_wellFormed h.2.2.2⟩

theorem Block.parts_wellFormed : ∀ {b : Block}, b.WellFormed → ∀ part ∈ b.parts, part.WellFormed
  | ⟨_, _⟩, h => Stmt.allParts_wellFormed h

theorem Block.partsIfAny_wellFormed :
    ∀ {b : Option Block}, Block.WellFormedIfAny b → ∀ part ∈ Block.partsIfAny b, part.WellFormed
  | none, _ => List.forall_mem_nil _
  | some b, h => b.parts_wellFormed h

theorem Stmt.parts_wellFormed : ∀ {s : Stmt}, s.WellFormed → ∀ part ∈ s.parts, part.WellFormed
  | ⟨_, _⟩, h => StmtKind.parts_wellFormed h

theorem Stmt.allParts_wellFormed : ∀ {statements : List Stmt},
    Stmt.AllWellFormed statements → ∀ part ∈ Stmt.allParts statements, part.WellFormed
  | [], _ => List.forall_mem_nil _
  | s :: _, h => List.forall_mem_append.mpr
    ⟨s.parts_wellFormed h.1, Stmt.allParts_wellFormed h.2⟩

theorem Stmt.partsIfAny_wellFormed :
    ∀ {s : Option Stmt}, Stmt.WellFormedIfAny s → ∀ part ∈ Stmt.partsIfAny s, part.WellFormed
  | none, _ => List.forall_mem_nil _
  | some s, h => s.parts_wellFormed h

theorem StmtKind.parts_wellFormed :
    ∀ {kind : StmtKind}, kind.WellFormed → ∀ part ∈ kind.parts, part.WellFormed
  | .declare _ _, h => Declarator.allParts_wellFormed h
  | .function definition, h => definition.parts_wellFormed h.2
  | .branch condition thenBranch _, h => List.forall_mem_append.mpr
    ⟨condition.parts_wellFormed h.1, List.forall_mem_append.mpr
      ⟨thenBranch.parts_wellFormed h.2.1, Block.partsIfAny_wellFormed h.2.2⟩⟩
  | .whileLoop condition body, h | .doWhile body condition, h => List.forall_mem_append.mpr
    ⟨condition.parts_wellFormed h.1, body.parts_wellFormed h.2⟩
  | .forLoop _ _ _ body, h => List.forall_mem_append.mpr
    ⟨Stmt.partsIfAny_wellFormed h.1, List.forall_mem_append.mpr
      ⟨Expr.partsIfAny_wellFormed h.2.1, List.forall_mem_append.mpr
        ⟨Expr.partsIfAny_wellFormed h.2.2.1, body.parts_wellFormed h.2.2.2⟩⟩⟩
  | .each _ _ iterable body, h => List.forall_mem_append.mpr
    ⟨iterable.parts_wellFormed h.1, body.parts_wellFormed h.2⟩
  | .matchOn scrutinee _, h => List.forall_mem_append.mpr
    ⟨scrutinee.parts_wellFormed h.1, Arm.allParts_wellFormed h.2⟩
  | .returnWith _, h => Expr.partsIfAny_wellFormed h
  | .breakLoop, _ | .continueLoop, _ | .importFrom _ _, _ | .exportNames _, _ =>
    List.forall_mem_nil _
  | .namespaceBlock _ body, h => body.parts_wellFormed h
  | .expression value _, h => value.parts_wellFormed h

theorem Declarator.allParts_wellFormed : ∀ {declarators : List Declarator},
    Declarator.AllWellFormed declarators →
    ∀ part ∈ Declarator.allParts declarators, part.WellFormed
  | [], _ => List.forall_mem_nil _
  | ⟨_, _, _⟩ :: _, h => List.forall_mem_append.mpr
    ⟨Expr.partsIfAny_wellFormed h.2.2.1, Declarator.allParts_wellFormed h.2.2.2⟩

end

theorem Module.parts_wellFormed {m : Module} (h : m.body.WellFormed) :
    ∀ part ∈ m.parts, part.WellFormed := by
  obtain ⟨name, statements, position⟩ := m
  exact Stmt.allParts_wellFormed h

end ScriptEngine
