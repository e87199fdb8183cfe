import ScriptEngine.Parse.Module
import ScriptEngine.Proofs.Parse.Levels

/-!
# How deep accepted programs nest

The expressions of a text that is accepted fit below the greatest depth, and so does every chain of
expressions in its tree. Edges that go down no level are not counted: a chain is as long as the text
makes it where each expression is the object of an access or a call, the left operand of an operator, the
value that is assigned, or what a conditional gives otherwise.

* `nests_statementStep`, `nests_blockStep` and the others: the forms of statements.
* `nested_fuelled`: any number of steps inside one another.
* `Module.nesting_of_ofSource`: how long chains are in the modules that source texts make.
* `Module.deep_chain_of_accessChars`: accesses one behind the other are a longer chain.
-/

namespace ScriptEngine

namespace Parse

variable {α : Type} {g : Grammar} {d : Nat}

section

variable (h : g.Nested)

include h

/-! ## Statements -/

theorem nests_declarator :
    Nests d (fun declarator => HeadsFit d declarator.value.toList) (declarator g) := by
  refine .here fun position => .check fun opens => ?_
  have valued (target : Pattern) :
      Nests d (fun declarator : Declarator => HeadsFit d declarator.value.toList) (do
        let value ← do
          if ← accept (.mark .equal) then pure (some (← g.expression)) else pure none
        if value.isNone && !target.isBind then
          fail (.invalid .destructuringNeedsValue position)
        return ⟨target, value, position⟩) := by
    refine .accept fun found => ?_
    cases found with
    | true => exact (h.expression d).bind fun _ fits => .ret_bind (.ret (.singleton fits))
    | false =>
      refine .ret_bind ?_
      dsimp only
      split
      · exact .fail_bind
      · exact .ret .nil
  cases opens with
  | true => exact .next h.pattern valued
  | false => exact .next (level_consumeName _) fun name => .ret_bind (valued (.bind name))

theorem nests_declaration : Nests d (fun kind => HeadsFit d kind.heads) (declaration g) := by
  refine .advance fun token => (nests_declarator h).bind fun first fit => ?_
  refine (Nests.collecting (P := fun declarator : Declarator => HeadsFit d declarator.value.toList) ?_
    (.singleton fit)).bind fun declarators fit => .ret (List.forall_mem_flatMap.mpr fit)
  intro declarators fit
  refine .accept fun found => ?_
  cases found with
  | false => exact .ret fit
  | true => exact (nests_declarator h).bind fun _ more => .ret (fit.push more)

theorem nests_branchStep : Nests d (fun kind => HeadsFit d kind.heads) (branchStep g) := by
  refine .consume fun _ => (nests_header h).bind fun condition fits => (h.block d).bind
    fun first fit => .accept fun found => ?_
  have branch {second : Option Block} (secondFit : HeadsFit d (Block.headsIfAny second)) :
      HeadsFit d (StmtKind.branch condition first second).heads :=
    (Each.singleton fits).append (Each.append fit secondFit)
  cases found with
  | false => exact .ret (branch .nil)
  | true =>
    refine .check fun again => ?_
    cases again with
    | true =>
      refine .here fun position => (h.branch d).bind fun inner innerFit => .ret ?_
      refine branch ?_
      rw [Block.headsIfAny, Block.heads, Stmt.allHeads_eq, List.flatMap_singleton]
      exact innerFit
    | false => exact (h.block d).bind fun _ secondFit => .ret (branch secondFit)

theorem nests_forStart : Nests d (fun s => HeadsFit d s.heads) (forStart g) := by
  refine .peek fun token => ?_
  split
  · exact (nests_declaration h).bind fun _ fit => .ret fit
  · exact (nests_declaration h).bind fun _ fit => .ret fit
  · exact (h.expression d).bind fun _ fits => .ret (.singleton fits)

omit h in
/-- A clause that is left out has nothing inside. -/
theorem nests_clause? {heads : Option α → List Expr} {clause : Parser α} (stop : Mark)
    (none : heads none = []) (some : Nests d (fun a => HeadsFit d (heads (some a))) clause) :
    Nests d (fun a? => HeadsFit d (heads a?)) (clause? stop clause) := by
  refine .check fun stops => ?_
  cases stops with
  | true => exact .ret (none ▸ .nil)
  | false => exact some.bind fun _ fit => .ret fit

theorem nests_forLoop : Nests d (fun kind => HeadsFit d kind.heads) (forLoop g) := by
  have clause (stop : Mark) : Nests d (fun e? => HeadsFit d e?.toList) (clause? stop g.expression) :=
    nests_clause? stop rfl ((h.expression d).imp fun _ fits => .singleton fits)
  have clauses : Nests d (fun r => HeadsFit d
      (Stmt.headsIfAny r.1 ++ (r.2.1.toList ++ r.2.2.toList))) (do
      let start ← clause? .semicolon (forStart g)
      let _ ← consumeMark .semicolon "';' after for initializer"
      let condition ← clause? .semicolon g.expression
      let _ ← consumeMark .semicolon "';' after for condition"
      let update ← clause? .rightParen g.expression
      return (start, condition, update)) :=
    (nests_clause? _ rfl (nests_forStart h)).bind fun _ startFit =>
      .consumeMark fun _ => (clause _).bind fun _ conditionFit => .consumeMark fun _ =>
        (clause _).bind fun _ updateFit =>
          .ret (Each.append startFit (Each.append conditionFit updateFit))
  refine .advance fun _ => .consumeMark fun _ => (clauses.restricting _).bind ?_
  rintro ⟨start, condition, update⟩ fit
  refine .consumeMark fun _ => (h.block d).bind fun body bodyFit => .ret ?_
  show HeadsFit d (Stmt.headsIfAny start ++ (condition.toList ++ (update.toList ++ body.heads)))
  rw [← List.append_assoc condition.toList, ← List.append_assoc]
  exact Each.append fit bodyFit

omit h in
theorem level_eachNames : Level eachNames := by
  refine fun d => .accept fun found => ?_
  cases found with
  | true =>
    exact .next (level_consumeName _) fun _ => .consumeMark fun _ =>
      .next (level_consumeName _) fun _ => .consumeMark fun _ => .ret trivial
  | false => exact .next (level_consumeName _) fun _ => .ret trivial

/-- A head and the block behind it. -/
theorem nests_headed {P : α → Prop} {make : Expr → Block → α}
    (holds : ∀ condition body, HeadsFit d ([condition] ++ body.heads) → P (make condition body)) :
    Nests d P (do
      let condition ← header g
      return make condition (← g.block)) :=
  (nests_header h).bind fun condition fits => (h.block d).bind fun body fit =>
    .ret (holds condition body ((Each.singleton fits).append fit))

theorem nests_eachLoop : Nests d (fun kind => HeadsFit d kind.heads) (eachLoop g) := by
  refine .advance fun _ => .next level_eachNames ?_
  rintro ⟨item, index⟩
  exact .consume fun _ => nests_headed h fun _ _ fit => fit

omit h in
theorem level_importItem : Level importItem := by
  refine fun d => .next (level_consumeName _) fun name => .accept fun found => ?_
  cases found with
  | true => exact .next (level_consumeName _) fun _ => .ret trivial
  | false => exact .ret trivial

omit h in
/-- Names or items that commas stand between. -/
theorem level_separated {item : Parser α} (level : Level item) (first : List α) :
    Level (repeating (fun items => do
      if ← accept (.mark .comma) then return .inl (items ++ [← item]) else return .inr items)
      first) := by
  refine .repeating (fun items d => .accept fun found => ?_) first
  cases found with
  | true => exact .next level fun _ => .ret trivial
  | false => exact .ret trivial

omit h in
theorem nests_importFrom : Nests d (fun kind => HeadsFit d kind.heads) importFrom := by
  refine .advance fun _ => .next level_importItem fun first =>
    .next (level_separated level_importItem _) fun items => .consume fun _ => .peekKind fun kind => ?_
  split
  · exact .advance fun _ => .ret .nil
  · exact .advance fun _ => .ret .nil
  · exact nests_unexpected

omit h in
theorem nests_exportNames : Nests d (fun kind => HeadsFit d kind.heads) exportNames :=
  .advance fun _ => .next (level_consumeName _) fun _ =>
    .next (level_separated (level_consumeName _) _) fun _ => .ret .nil

theorem nests_wordedStatement? :
    Nests d (fun kind? => ∀ kind, kind? = some kind → HeadsFit d kind.heads)
      (wordedStatement? g) := by
  have found {kind : StmtKind} (fit : HeadsFit d kind.heads) :
      Nests d (fun kind? => ∀ kind, kind? = some kind → HeadsFit d kind.heads)
        (pure (some kind) : Parser _) :=
    .ret fun _ same => Option.some.inj same ▸ fit
  refine .reading fun c => ?_
  split
  · exact (nests_declaration h).bind fun _ => found
  · exact (nests_declaration h).bind fun _ => found
  · split
    · exact (nests_functionDef h).bind fun _ fit => found fit
    · exact .ret fun _ same => nomatch same
  · exact (h.branch d).bind fun _ => found
  · exact .advance fun _ => nests_headed h fun _ _ fit _ same => Option.some.inj same ▸ fit
  · exact .advance fun _ => (h.block d).bind fun _ fit => .consume fun _ => (nests_header h).bind
      fun _ fits => found ((Each.singleton fits).append fit)
  · exact (nests_forLoop h).bind fun _ => found
  · exact (nests_eachLoop h).bind fun _ => found
  · exact .advance fun _ => (nests_header h).bind fun _ fits => (nests_matchArms h).bind
      fun _ fit => found ((Each.singleton fits).append fit)
  · refine .advance fun _ => .next (fun d => .peekKind fun kind => ?_) fun ends => ?_
    · split <;> exact .ret trivial
    · cases ends with
      | true => exact found .nil
      | false => exact (h.expression d).bind fun _ fits => found (.singleton fits)
  · exact .advance fun _ => found .nil
  · exact .advance fun _ => found .nil
  · exact nests_importFrom.bind fun _ => found
  · exact nests_exportNames.bind fun _ => found
  · exact .advance fun _ => .next (level_consumeName _) fun _ => (h.block d).bind fun _ fit =>
      found fit
  · exact .ret fun _ same => nomatch same

theorem nests_statementStep : Nests d (fun s => HeadsFit d s.heads) (statementStep g) := by
  refine .here fun position => (nests_wordedStatement? h).bind fun kind? fit => ?_
  cases kind? with
  | none =>
    exact (h.expression d).bind fun _ fits => .accept fun _ => .ret (.singleton fits)
  | some kind => exact .accept fun _ => .ret (fit kind rfl)

/-- Statements read one after the other, the latest first, up to a token that ends them. -/
theorem nests_statements {ends : Parser Bool} (looks : Looks ends) :
    Nests d (fun statements => HeadsFit d (Stmt.allHeads statements))
      (repeating (fun statements => do
        if ← ends then return .inr statements.reverse
        else return .inl ((← g.statement) :: statements)) []) := by
  refine .repeating (I := Each fun s : Stmt => HeadsFit d s.heads) ?_ .nil
  intro statements fit
  refine .next (.of_looks looks) fun ended => ?_
  cases ended with
  | true =>
    refine .ret ?_
    rw [Sum.elim_inr, Stmt.allHeads_eq]
    exact List.forall_mem_flatMap.mpr fun s mem => fit s (List.mem_reverse.mp mem)
  | false => exact (h.statement d).bind fun _ more => .ret (List.forall_mem_cons.mpr ⟨more, fit⟩)

theorem nests_blockStep : Nests d (fun body => HeadsFit d body.heads) (blockStep g) := by
  have ends : Looks (do return (← check (.mark .rightBrace)) || (← atFinish)) := fun _ => ⟨_, rfl⟩
  exact .consumeMark fun _ => ((nests_statements h ends).restricting _).bind fun _ fit =>
    .consumeMark fun _ => .ret fit

theorem nests_program : Nests d (fun body => HeadsFit d body.heads) (program g) :=
  .here fun _ => (nests_statements h looks_atFinish).bind fun _ fit => .ret fit

/-- One more step inside one another. -/
theorem nests_step (form : Form α) : Nests d (form.Holds d) (Grammar.step g form) := by
  cases form with
  | pattern => exact level_patternStep h.pattern d
  | expression =>
    refine .descending fun _ => (h.assignment (d + 1)).imp fun e fits => fits.mono ?_
    rw [Slot.cost_whole]
    omega
  | assignment => exact nests_assignmentStep h
  | conditional => exact nests_conditionalStep h
  | infixFrom least =>
    intro c at_ e c' read
    obtain ⟨back, fits, -⟩ := infixStep_fits h at_ read
    exact ⟨back, fits⟩
  | unary => exact nests_unaryStep h
  | block => exact nests_blockStep h
  | branch => exact nests_branchStep h
  | statement => exact nests_statementStep h

end

theorem nested_fuelled (fuel : Nat) : (Grammar.fuelled fuel).Nested := by
  induction fuel with
  | zero =>
    refine ⟨fun _ _ => nests_unfinished, fun read => ?_⟩
    cases read
  | succ fuel ih =>
    exact ⟨fun form _ => nests_step ih form, fun read => (infixStep_fits ih rfl read).2.2⟩

/-! ## Programs -/

/-- Tokens that make a program make one whose expressions fit. -/
theorem heads_fit_of_ofTokens {tokens : List Token} {body : Block}
    (accepted : ofTokens tokens = .ok body) : HeadsFit 0 body.heads := by
  have at_ : (Cursor.ofTokens tokens).depth = 0 := by
    rw [Cursor.ofTokens]
    split <;> rfl
  have fit := nests_program (nested_fuelled
    (fuelFor ((Cursor.ofTokens tokens).following.length + 1))) (Cursor.ofTokens tokens) at_
  simp only [ofTokens, StateT.run', Functor.map, Except.map] at accepted
  generalize program _ (Cursor.ofTokens tokens) = read at accepted fit
  cases read with
  | ok result =>
    cases accepted
    exact (fit result.1 result.2 rfl).2
  | error stop => cases stop <;> cases accepted

end Parse

/-- In a source text that is accepted no chain of expressions goes down more levels than the greatest
depth allows. A chain is longer than that only by edges that go down none. -/
theorem Module.nesting_of_ofSource {name source : String} {m : Module}
    (accepted : Module.ofSource name source = .ok m) {e : Expr} (mem : e ∈ m.exprs)
    {chain : List Edge} (linked : e.Chain chain) :
    Edge.costs chain < Parse.maxDepth ∧
      chain.length < Parse.maxDepth + chain.countP (·.cost == 0) := by
  have fit : Parse.HeadsFit 0 m.body.heads := by
    unfold Module.ofSource at accepted
    split at accepted
    · cases accepted
    · split at accepted
      · cases accepted
      · next read =>
        cases accepted
        exact Parse.heads_fit_of_ofTokens read
  obtain ⟨head, among, reaches⟩ := m.covered mem
  have heads : m.body.heads = Stmt.allHeads m.statements := by
    obtain ⟨name, ⟨statements, position⟩⟩ := m
    rfl
  obtain ⟨depth, deeper, fits⟩ := reaches.fits (fit head (heads ▸ among))
  have below : Edge.costs chain < Parse.maxDepth := by
    have first : 1 ≤ Slot.whole.cost head := Nat.le_add_left 1 _
    have := fits chain linked
    omega
  exact ⟨below, by have := Edge.length_le_costs chain; omega⟩

/-- The operands of signs and the objects of accesses, as far as an expression begins with them. -/
def Expr.spine : Expr → List Edge
  | ⟨_, _, .unary _ operand⟩ => ⟨.operand Expr.prefixTightness, operand⟩ :: operand.spine
  | ⟨_, _, .member object _⟩ => ⟨.object, object⟩ :: object.spine
  | _ => []

theorem Expr.chain_spine (e : Expr) : e.Chain e.spine := by
  induction e using Expr.spine.induct with
  | case1 _ _ _ operand ih => exact ⟨List.mem_singleton_self _, ih⟩
  | case2 _ _ object _ ih => exact ⟨List.mem_singleton_self _, ih⟩
  | case3 e not_unary not_member =>
    rw [spine]
    · trivial
    · exact not_unary
    · exact not_member

/-- How long the spine of the last expression is, in the module that a text makes. -/
def Module.lastSpine? (source : String) : Option Nat :=
  (Module.ofSource "main" source).toOption.bind fun m => m.exprs.getLast?.map (·.spine.length)

theorem Module.spine_of_lastSpine? {source : String} {length : Nat}
    (last : lastSpine? source = some length) :
    ∃ m, Module.ofSource "main" source = .ok m ∧ ∃ e ∈ m.exprs, e.spine.length = length := by
  rw [lastSpine?] at last
  cases read : Module.ofSource "main" source with
  | error error =>
    rw [read] at last
    cases last
  | ok m =>
    rw [read] at last
    obtain ⟨e, is, long⟩ := Option.map_eq_some_iff.mp last
    exact ⟨m, rfl, e, List.mem_of_getLast? is, long⟩

/-- The sign and the two accesses behind it are a chain of three edges. -/
theorem Module.nesting_of_signedAccesses : ∃ m e chain,
    Module.ofSource "main" "-a.b.c" = .ok m ∧ e ∈ m.exprs ∧ e.Chain chain ∧ chain.length = 3 ∧
      Edge.costs chain < Parse.maxDepth ∧
      chain.length < Parse.maxDepth + chain.countP (·.cost == 0) := by
  obtain ⟨m, accepted, e, mem, long⟩ :=
    spine_of_lastSpine? (show lastSpine? "-a.b.c" = some 3 by decide +kernel)
  exact ⟨m, e, e.spine, accepted, mem, e.chain_spine, long,
    Module.nesting_of_ofSource accepted mem e.chain_spine⟩

/-- A name with this many accesses behind it. -/
def accessChars (count : Nat) : List Char := 'a' :: (List.replicate count ['.', 'a']).flatten

/-- The objects of accesses are not counted, so that an accepted text makes a chain that is longer than
the greatest depth. -/
theorem Module.deep_chain_of_accessChars : ∃ m e chain,
    Module.ofSource "main" (String.ofList (accessChars (Parse.maxDepth + 1))) = .ok m ∧
      e ∈ m.exprs ∧ e.Chain chain ∧ Parse.maxDepth < chain.length := by
  have last : lastSpine? (String.ofList (accessChars (Parse.maxDepth + 1))) =
      some (Parse.maxDepth + 1) := by
    have size : (accessChars (Parse.maxDepth + 1)).length + 1 = 516 := by decide +kernel
    rw [lastSpine?, Module.ofSource, Token.ofSource, String.toList_ofList, String.length_ofList, size]
    decide +kernel
  obtain ⟨m, accepted, e, mem, long⟩ := spine_of_lastSpine? last
  exact ⟨m, e, e.spine, accepted, mem, e.chain_spine, long ▸ Nat.lt_succ_self _⟩

end ScriptEngine
