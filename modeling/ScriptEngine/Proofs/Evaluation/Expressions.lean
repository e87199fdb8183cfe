import ScriptEngine.Evaluation.Expression
import ScriptEngine.Proofs.Evaluation.Calls

/-!
# Expressions are tame

An expression at a site is left by a break or continue only if the site is in a loop, and never by a
return: each body inside it keeps its own.

* `tame_eval`: parts of an expression.
* `tame_newEntity`, `tame_construct`: members find the entity that they belong to.
* `follows_selectArm`: the arm that is chosen is one of the arms, in a frame that fits it.
* `tame_expression`: one case for each kind of expression.
-/

set_option linter.unusedSectionVars false

namespace ScriptEngine.Eval

variable {α : Type} {m : Machine} {d : Discipline} [d.Lawful] {env : EnvId} {base : World}
  {returns : Bool} {t : Site} {frame : FrameId}

/-! ## Parts -/

theorem tame_eval (tame : m.Tame d) {e : Expr} (fits : e.Fits d.imports t)
    (supports : d.Supports base t frame) : (eval m e frame).Tame d env base false t.inLoop := by
  unfold eval
  split
  · exact tame_pure
  · exact tame_lookup
  · exact tame.expr fits supports

theorem tame_evaluateAll (tame : m.Tame d) {es : List Expr} (fits : Expr.FitAll d.imports t es)
    (supports : d.Supports base t frame) :
    (evaluateAll m frame es).Tame d env base false t.inLoop := by
  induction es with
  | nil => exact tame_pure
  | cons e es ih =>
    obtain ⟨first, rest⟩ := fits
    refine (tame_eval tame first supports).andThen fun _ => ?_
    exact (ih rest).andThen fun _ => tame_pure

/-- A function keeps the site where it is made. -/
theorem tame_closure {definition : FunctionDef} (fits : definition.Fits d.imports t)
    (supports : d.Supports base t frame) {loop : Bool} :
    (closure definition frame).Tame d env base returns loop :=
  tame_newFunction ⟨t, fits, supports⟩

/-- The frame of a block supports the code that the frame around it does. -/
theorem follows_blockFrame {body : Block} {ends : Signal → Prop}
    (supports : d.Supports base t frame) :
    (blockFrame body frame).Follows d env base
      (fun inside w => d.Supports w t inside ∧ (body.declares = true → d.roomy w inside)) ends :=
  .ite (fun _ => (follows_childFrame supports).imp (fun _ _ made => ⟨made.1, fun _ => made.2⟩)
    fun _ ends => ends) fun none => .ret fun _ later =>
      ⟨supports.lasts later, fun declares => absurd declares none⟩

theorem tame_blockValue (tame : m.Tame d) {body : Block} (fits : body.Fits d.imports t)
    (supports : d.Supports base t frame) :
    (blockValue m body frame).Tame d env base returns t.inLoop :=
  (follows_blockFrame supports).bind fun _ _ _ keeps => (tame.block fits keeps.1 keeps.2).boundary

/-! ## Literals of data -/

theorem tame_mapEntries (tame : m.Tame d) {rest : List (Expr × Expr)}
    {entries : OrderedMap Value} (fits : Expr.EntriesFit d.imports t rest)
    (supports : d.Supports base t frame) :
    (mapEntries m frame rest entries).Tame d env base false t.inLoop := by
  induction rest generalizing entries with
  | nil => exact tame_pure
  | cons entry rest ih =>
    obtain ⟨key, value⟩ := entry
    obtain ⟨keyFits, valueFits, restFits⟩ := fits
    refine (tame_eval tame keyFits supports).andThen fun _ => ?_
    refine tame_ask.andThen fun _ => ?_
    exact (tame_eval tame valueFits supports).andThen fun _ => ih restFits

theorem tame_defineMembers (tame : m.Tame d) {entity : EntityRef}
    {members : List MemberInit} (fits : MemberInit.FitAll d.imports t members)
    (supports : d.Supports base t frame) :
    (defineMembers m entity frame members).Tame d env base false t.inLoop := by
  induction members with
  | nil => exact tame_pure
  | cons member members ih =>
    obtain ⟨name, value, position⟩ := member
    obtain ⟨first, rest⟩ := fits
    refine (tame_eval tame first supports).andThen fun _ => ?_
    exact tame_define.andThen fun _ => ih rest

/-- The frame of an entity supports code in the entity. -/
theorem follows_entityFrame {entity : EntityRef} {ends : Signal → Prop}
    (supports : d.Supports base t frame) (home : d.homes base entity) :
    (newFrame (some frame) (some entity)).Follows d env base
      (fun inside w => d.Supports w t.entity inside) ends :=
  (follows_newFrame supports.stands fun _ same => Option.some.inj same ▸ home).imp
    (fun _ _ made => ⟨World.supports_of_this made.1, made.2.2⟩) fun _ ends => ends

/-- The members of an entity stand in a frame that belongs to it. -/
theorem tame_newEntity (tame : m.Tame d) {under : Option Nat} {members : List MemberInit}
    (fits : MemberInit.FitAll d.imports t.entity members) (supports : d.Supports base t frame) :
    (newEntity m under members frame).Tame d env base false t.inLoop := by
  refine tame_read.andThen fun env => follows_newEntity.bind fun entity w later home => ?_
  refine (follows_entityFrame (supports.lasts later) home).bind fun inside w' later' supported => ?_
  exact Tame.andThen (tame_defineMembers (t := t.entity) tame fits supported) fun _ => tame_pure

theorem tame_constructionFields (tame : m.Tame d) {entity : EntityRef}
    {members : List MemberInit} {fields : HostState} (fits : MemberInit.FitAll d.imports t members)
    (supports : d.Supports base t frame) :
    (constructionFields m entity frame members fields).Tame d env base false t.inLoop := by
  induction members generalizing fields with
  | nil => exact tame_pure
  | cons member members ih =>
    obtain ⟨name, value, position⟩ := member
    obtain ⟨first, rest⟩ := fits
    refine (tame_eval tame first supports).andThen fun value => ?_
    split
    · exact tame_define.andThen fun _ => ih rest
    · exact tame_demand.andThen fun _ => ih rest

/-- So do the members of a construction. -/
theorem tame_construct (tame : m.Tame d) {className : String} {members : List MemberInit}
    (fits : MemberInit.FitAll d.imports t.entity members) (supports : d.Supports base t frame) :
    (construct m className members frame).Tame d env base false t.inLoop := by
  refine tame_lookup.andThen fun found => ?_
  split
  · refine tame_read.andThen fun env => follows_newEntity.bind fun entity w later home => ?_
    refine (follows_entityFrame (supports.lasts later) home).bind fun inside w' later' supported => ?_
    refine Tame.andThen (tame_constructionFields (t := t.entity) tame fits supported)
      fun fields => ?_
    refine tame_ask.andThen fun answer? => ?_
    match answer? with
    | some (.ok object) =>
      refine tame_newHost.andThen fun host => ?_
      exact (tame_change fun s => .modifyArena s entity.env fun _ => Nat.le_of_eq
        (Arena.size_attachHost ..).symm).andThen fun _ => tame_pure
    | some (.error e) => exact tame_panic
    | none => exact tame_panic
  · exact tame_panic

/-! ## Assignments -/

theorem tame_place (tame : m.Tame d) {e : Expr} (fits : e.Fits d.imports t)
    (supports : d.Supports base t frame) : (place m e frame).Tame d env base false t.inLoop := by
  obtain ⟨id, position, kind⟩ := e
  cases kind with
  | name name => exact tame_pure
  | member object name | tupleIndex object index =>
    have fits : object.Fits d.imports t := fits
    exact (tame_eval tame fits supports).andThen fun _ => tame_pure
  | index object index =>
    obtain ⟨objectFits, indexFits⟩ := fits
    refine (tame_eval tame objectFits supports).andThen fun _ => ?_
    exact (tame_eval tame indexFits supports).andThen fun _ => tame_pure
  | _ => exact tame_panic

theorem tame_update (tame : m.Tame d) {op : UpdateOp} {before : Bool} {target : Expr}
    (fits : target.Fits d.imports t) (supports : d.Supports base t frame) :
    (update m op before target frame).Tame d env base false t.inLoop := by
  refine (tame_place tame fits supports).andThen fun place => ?_
  refine (tame_readPlace tame).andThen fun value => ?_
  split
  · exact tame_writePlace.andThen fun _ => tame_pure
  · exact tame_panic

theorem tame_mismatch {pattern : Pattern} {value : Value} {loop : Bool} :
    (mismatch pattern value : Eval α).Tame d env base returns loop :=
  tame_ask.andThen fun _ => tame_panic

theorem tame_assign (tame : m.Tame d) {op : AssignOp} {target : AssignTarget}
    {value : Expr} (targetFits : target.Fits d.imports t) (valueFits : value.Fits d.imports t)
    (supports : d.Supports base t frame) :
    (assign m op target value frame).Tame d env base false t.inLoop := by
  cases target with
  | place target =>
    refine (tame_place tame targetFits supports).andThen fun place => ?_
    refine (tame_eval tame valueFits supports).andThen fun value => ?_
    cases op.binary? with
    | some op =>
      refine (tame_readPlace tame).andThen fun current => ?_
      exact tame_demand.andThen fun _ => tame_writePlace.andThen fun _ => tame_pure
    | none => exact tame_pure.andThen fun _ => tame_writePlace.andThen fun _ => tame_pure
  | pattern pattern =>
    refine (tame_eval tame valueFits supports).andThen fun value => ?_
    refine tame_ask.andThen fun names? => ?_
    cases names? with
    | some names => exact tame_assignNames.andThen fun _ => tame_pure
    | none => exact tame_mismatch

/-! ## Matching -/

/-- The body of the arm that is chosen fits the site of the match, and the frame of what its pattern
binds fits all the code that the frame around it does. -/
theorem follows_selectArm (tame : m.Tame d) {value : Value} {arms : List Arm}
    (fits : Arm.FitAll d.imports t arms) (supports : d.Supports base t frame) :
    (selectArm m value frame arms).Follows d env base
      (fun chosen w => ∀ (arm : Arm) inside, chosen = some (arm, inside) →
        arm.body.Fits d.imports t ∧ d.Supports w t inside)
      (Signal.Within false t.inLoop) := by
  induction arms generalizing base with
  | nil => exact .ret fun _ _ _ _ none => by cases none
  | cons arm arms ih =>
    obtain ⟨pattern, guard, body, position⟩ := arm
    obtain ⟨guardFits, bodyFits, rest⟩ := fits
    refine Follows.andThen tame_ask fun names? => ?_
    cases names? with
    | none => exact ih rest supports
    | some names =>
      refine (follows_childFrame supports).bind fun inside w later keeps => ?_
      have supported := keeps.1
      have chosen {ends : Signal → Prop} :
          (pure (some (⟨pattern, guard, body, position⟩, inside)) : Eval (Option (Arm × FrameId)))
            |>.Follows d env w (fun chosen w => ∀ (arm : Arm) inside, chosen = some (arm, inside) →
              arm.body.Fits d.imports t ∧ d.Supports w t inside) ends :=
        .ret fun w' later' arm inside' same => by
          cases same
          exact ⟨bodyFits, supported.lasts later'⟩
      refine Follows.andThen (tame_declareAll keeps.2) fun _ => ?_
      cases guard with
      | none => exact chosen
      | some guard =>
        refine Follows.andThen (tame_eval tame guardFits supported) fun holds => ?_
        exact .ite (fun _ => chosen) fun _ => ih rest (supports.lasts later)

/-! ## Operators -/

theorem tame_binary (tame : m.Tame d) {op : BinaryOp} {left right : Expr}
    (leftFits : left.Fits d.imports t) (rightFits : right.Fits d.imports t)
    (supports : d.Supports base t frame) :
    (binary m op left right frame).Tame d env base false t.inLoop := by
  have second : (eval m right frame).Tame d env base false t.inLoop :=
    tame_eval tame rightFits supports
  refine (tame_eval tame leftFits supports).andThen fun first => ?_
  split
  · exact .ite (fun _ => tame_pure) fun _ => second.andThen fun _ => tame_pure
  · exact .ite (fun _ => tame_pure) fun _ => second.andThen fun _ => tame_pure
  · exact second.andThen fun _ => tame_demand

theorem tame_call (tame : m.Tame d) {callee : Expr} {args : List Expr}
    (calleeFits : callee.Fits d.imports t) (argsFit : Expr.FitAll d.imports t args)
    (supports : d.Supports base t frame) :
    (call m callee args frame).Tame d env base false t.inLoop := by
  have arguments : (evaluateAll m frame args).Tame d env base false t.inLoop :=
    tame_evaluateAll tame argsFit supports
  obtain ⟨id, position, kind⟩ := callee
  unfold call
  split
  · next object name same =>
    cases same
    have calleeFits : object.Fits d.imports t := calleeFits
    refine (tame_eval tame calleeFits supports).andThen fun _ => ?_
    exact arguments.andThen fun _ => tame_this?.andThen fun _ => tame.callMethod.weaken
  · refine (tame_eval tame calleeFits supports).andThen fun _ => ?_
    exact arguments.andThen fun _ => tame.callAlone.weaken

theorem tame_baseOf {loop : Bool} : (baseOf frame).Tame d env base returns loop := by
  refine tame_ask.andThen fun base? => ?_
  cases base? with
  | some base => exact tame_pure
  | none => exact tame_panic

/-! ## Expressions -/

/-- What `this` is depends on the frame alone. -/
theorem expression_this_eq {env : EnvId} {w : World} {id : Nat} {position : Position} :
    expression m ⟨id, position, .this⟩ frame env w =
      (match w.store.frames.this? frame with
      | some entity => (pure (.entity entity) : Eval Value)
      | none => do
        modify fun w : World => w.note .unboundThis
        panic ⟨.entityNotFound, "'this' used outside an entity"⟩) env w :=
  rfl

/-- Where the frame belongs to an entity, `this` is that entity. -/
theorem expression_this {env : EnvId} {w : World} {id : Nat} {position : Position}
    {entity : EntityRef} (belongs : w.store.frames.this? frame = some entity) :
    expression m ⟨id, position, .this⟩ frame env w = .done (.entity entity) w := by
  rw [expression_this_eq, belongs]
  rfl

/-- Where it belongs to none, `this` is an incident. -/
theorem expression_this_unbound {env : EnvId} {w : World} {id : Nat} {position : Position}
    (belongs : w.store.frames.this? frame = none) :
    expression m ⟨id, position, .this⟩ frame env w =
      .stopped (.signal (.panic ⟨.entityNotFound, "'this' used outside an entity"⟩))
        (w.note .unboundThis) := by
  rw [expression_this_eq, belongs]
  rfl

/-- An expression that fits its site never meets an incident in a frame that supports the site, and
is not left by a return; by a break or continue only in a loop. -/
theorem tame_expression (tame : m.Tame d) {e : Expr} (fits : e.Fits d.imports t)
    (supports : d.Supports base t frame) :
    (expression m e frame).Tame d env base false t.inLoop := by
  obtain ⟨id, position, kind⟩ := e
  cases kind with
  | literal value => exact tame_pure
  | name name => exact tame_lookup
  | this =>
    intro w sound later
    obtain ⟨entity, belongs⟩ := Option.isSome_iff_exists.mp ((supports.lasts later).entity fits)
    rw [expression_this belongs]
    exact ⟨.refl sound, trivial⟩
  | base => exact tame_baseOf
  | external name => exact tame_lookupGlobal
  | «scoped» space name =>
    have fits : space.Fits d.imports t := fits
    refine (tame_eval tame fits supports).andThen fun value => ?_
    split
    · exact tame_spaceMember
    · exact tame_panic
  | array items =>
    have fits : Expr.FitAll d.imports t items := fits
    exact (tame_evaluateAll tame fits supports).andThen fun _ => tame_newArray
  | map entries =>
    have fits : Expr.EntriesFit d.imports t entries := fits
    exact (tame_mapEntries tame fits supports).andThen fun _ => tame_newMap
  | tuple items =>
    have fits : Expr.FitAll d.imports t items := fits
    exact (tame_evaluateAll tame fits supports).andThen fun _ => tame_pure
  | entity members => exact tame_newEntity tame fits supports
  | extend object members =>
    obtain ⟨objectFits, membersFit⟩ := fits
    refine (tame_eval tame objectFits supports).andThen fun value => ?_
    split
    · exact tame_newEntity tame membersFit supports
    · exact tame_panic
  | construct className members => exact tame_construct tame fits supports
  | unary op operand =>
    have fits : operand.Fits d.imports t := fits
    exact (tame_eval tame fits supports).andThen fun _ => tame_ofExcept
  | binary op left right => exact tame_binary tame fits.1 fits.2 supports
  | typeTest value typeName =>
    have fits : value.Fits d.imports t := fits
    exact (tame_eval tame fits supports).andThen fun _ => tame_pure
  | update op before target => exact tame_update tame fits supports
  | assign op target value => exact tame_assign tame fits.1 fits.2 supports
  | conditional condition thenBranch elseBranch =>
    obtain ⟨conditionFits, thenFits, elseFits⟩ := fits
    refine (tame_eval tame conditionFits supports).andThen fun _ => ?_
    exact .ite (fun _ => tame_eval tame thenFits supports) fun _ =>
      tame_eval tame elseFits supports
  | pipe value function =>
    obtain ⟨valueFits, functionFits⟩ := fits
    refine (tame_eval tame valueFits supports).andThen fun _ => ?_
    refine (tame_eval tame functionFits supports).andThen fun _ => ?_
    exact tame.callAlone.weaken
  | call callee args => exact tame_call tame fits.1 fits.2 supports
  | member object name =>
    have fits : object.Fits d.imports t := fits
    refine (tame_eval tame fits supports).andThen fun _ => ?_
    exact tame_this?.andThen fun _ => tame_member
  | tupleIndex object index =>
    have fits : object.Fits d.imports t := fits
    exact (tame_eval tame fits supports).andThen fun _ => tame_positional
  | index object index =>
    obtain ⟨objectFits, indexFits⟩ := fits
    refine (tame_eval tame objectFits supports).andThen fun _ => ?_
    refine (tame_eval tame indexFits supports).andThen fun _ => ?_
    exact tame_this?.andThen fun _ => tame_item tame
  | function definition => exact tame_closure fits supports
  | block body => exact tame_blockValue tame fits supports
  | async body =>
    -- The job keeps the site, but for the loops around it.
    refine (follows_childFrame supports.body).bind fun inside w later keeps =>
      tame_read.andThen fun env => ?_
    have fits : (Task.block body inside).Fits d w := ⟨t.body, rfl, fits, keeps.1, keeps.2⟩
    exact (tame_enqueue fits).andThen fun _ => tame_pure
  | safe body =>
    refine Tame.andThen (tame_blockValue tame fits supports.body).contain fun _ => ?_
    exact tame_make fun _ => .of_arenas rfl rfl rfl rfl
  | lock key body =>
    obtain ⟨keyFits, bodyFits⟩ := fits
    have locked (name : LockName) (w : World) (later : d.later base w) (plain : name ≠ .modules) :
        (holdingLock name (blockValue m body frame)).Tame d env w false t.inLoop :=
      tame_holdingLock plain (tame_blockValue tame bodyFits (supports.body.lasts later)).weaken
    cases key with
    | some key =>
      have keyFits : key.Fits d.imports t := keyFits
      refine (tame_eval tame keyFits supports).andThen fun key => Follows.bind ?_ locked
      exact .query fun _ _ _ => nofun
    | none =>
      refine Follows.bind ?_ locked
      exact .ret fun _ _ => nofun
  | matchOn scrutinee arms =>
    obtain ⟨scrutineeFits, armsFit⟩ := fits
    refine (tame_eval tame scrutineeFits supports).andThen fun value => ?_
    refine (follows_selectArm tame armsFit supports).bind fun chosen w later found => ?_
    cases chosen with
    | none => exact tame_pure
    | some chosen =>
      obtain ⟨⟨pattern, guard, body, position⟩, inside⟩ := chosen
      obtain ⟨bodyFits, supported⟩ := found _ _ rfl
      cases body with
      | block body => exact tame_blockValue tame bodyFits supported
      | expr value => exact tame_eval tame bodyFits supported

end ScriptEngine.Eval
