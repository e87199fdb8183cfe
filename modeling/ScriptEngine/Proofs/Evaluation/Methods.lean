import ScriptEngine.Evaluation.Method
import ScriptEngine.Proofs.Evaluation.Members

/-!
# Functions and methods that are always there are tame

They run code of scripts only by calling values, alone or in tasks of their own.

* `tame_builtin`: the functions that every script can call.
* `tame_itemMethod`: what calls a function for the items of an array.
* `tame_builtinMethod`: the methods that values have without being given any.
-/

set_option linter.unusedSectionVars false

namespace ScriptEngine.Eval

variable {α : Type} {m : Machine} {d : Discipline} [d.Lawful] {env : EnvId} {base : World}
  {returns loop : Bool}

/-! ## Functions -/

theorem tame_requestedPanic {args : List Value} :
    (requestedPanic args).Tame d env base returns loop := by
  unfold requestedPanic
  split
  · exact tame_pure
  · exact tame_pure
  · exact tame_display.andThen fun _ => tame_pure
  · exact tame_display.andThen fun _ => tame_pure
  · exact tame_pure

theorem tame_log {level : LogLevel} {args : List Value} :
    (log level args).Tame d env base returns loop :=
  tame_ask.andThen fun _ => tame_emit.andThen fun _ => tame_pure

theorem tame_length {value : Value} : (length value).Tame d env base returns loop := by
  refine tame_ask.andThen fun length? => ?_
  cases length? with
  | some n => exact tame_pure
  | none => exact tame_panic

theorem tame_jsonArgument {args : List Value} :
    (jsonArgument args).Tame d env base returns loop := by
  unfold jsonArgument
  split
  · split
    · exact tame_fromHost
    · exact tame_panic
  · exact tame_panic

theorem tame_entityMembers {fuel : Nat} {entity : EntityRef} {entries : List (String × Value)}
    (values : ∀ value, (entityOf fuel value).Tame d env base returns loop) :
    (entityMembers fuel entity entries).Tame d env base returns loop := by
  induction entries with
  | nil =>
    rw [entityMembers]
    exact tame_pure
  | cons entry entries ih =>
    rw [entityMembers]
    exact (values _).andThen fun _ => tame_define.andThen fun _ => ih

theorem tame_entityItems {fuel : Nat} {items : List Value}
    (values : ∀ value, (entityOf fuel value).Tame d env base returns loop) :
    (entityItems fuel items).Tame d env base returns loop := by
  induction items with
  | nil =>
    rw [entityItems]
    exact tame_pure
  | cons item items ih =>
    rw [entityItems]
    exact (values _).andThen fun _ => ih.andThen fun _ => tame_pure

theorem tame_entityOf {fuel : Nat} {value : Value} :
    (entityOf fuel value).Tame d env base returns loop := by
  induction fuel generalizing value with
  | zero =>
    rw [entityOf]
    exact .unfinished
  | succ fuel ih =>
    unfold entityOf
    split
    · exact .unfinished
    · rename_i same
      cases same
      refine tame_ask.andThen fun entries => tame_read.andThen fun env => ?_
      refine tame_makeEntity.andThen fun entity => ?_
      exact (tame_entityMembers fun _ => ih).andThen fun _ => tame_pure
    · rename_i same
      cases same
      refine tame_ask.andThen fun items => ?_
      exact (tame_entityItems fun _ => ih).andThen fun _ => tame_newArray
    · exact tame_pure

theorem tame_toEntity {value : Value} : (toEntity value).Tame d env base returns loop :=
  tame_ask.andThen fun _ => tame_entityOf

theorem tame_newHost {object : HostObject} :
    (make (·.newHost object)).Tame d env base returns loop :=
  tame_make fun _ => .of_arenas rfl rfl rfl rfl

theorem tame_builtin {function : Builtin} {args : List Value} :
    (builtin function args).Tame d env base returns loop := by
  unfold builtin
  cases function with
  | log | warning | error => exact tame_log
  | print => exact tame_ask.andThen fun _ => tame_emit.andThen fun _ => tame_pure
  | panic => exact tame_requestedPanic.andThen fun _ => tame_panic
  | sleep =>
    dsimp only
    split
    · exact .ite (fun _ => tame_sleep.andThen fun _ => tame_pure) fun _ => tame_panic
    · exact tame_panic
  | now => exact tame_get.andThen fun _ => tame_pure
  | len => exact tame_length
  | toStr => exact tame_display.andThen fun _ => tame_pure
  | toNum => exact tame_ofExcept.andThen fun _ => tame_pure
  | newMap | newList => exact tame_newHost.andThen fun _ => tame_pure
  | stringToJson => exact tame_jsonArgument
  | jsonToEntity =>
    dsimp only
    split
    · exact tame_jsonArgument.andThen fun _ => tame_toEntity
    · exact tame_toEntity

/-! ## Texts -/

theorem tame_stringMethod {method : StringMethod} {receiver : Value} {text name : String}
    {args : List Value} :
    (stringMethod method receiver text name args).Tame d env base returns loop := by
  have textAt (position : Nat) : Tame d env base
      (do return (← ofExcept (receiver.textArgument name args position)).toList) returns loop :=
    tame_ofExcept.andThen fun _ => tame_pure
  unfold stringMethod
  cases method with
  | size | trim | upper | lower => exact tame_pure
  | split => exact (textAt 0).andThen fun _ => tame_newArray
  | startsWith | endsWith | contains => exact (textAt 0).andThen fun _ => tame_pure
  | replace => exact (textAt 0).andThen fun _ => (textAt 1).andThen fun _ => tame_pure
  | indexOf =>
    refine (textAt 0).andThen fun part => ?_
    split
    · exact tame_pure
    · exact tame_pure
  | substring =>
    refine tame_ofExcept.andThen fun start => ?_
    dsimp only
    split
    · refine tame_ofExcept.andThen fun stop => ?_
      split
      · exact tame_pure
      · exact .crash
      · exact tame_panic
    · refine tame_pure.andThen fun stop => ?_
      split
      · exact tame_pure
      · exact .crash
      · exact tame_panic
  | toNum => exact tame_ofExcept.andThen fun _ => tame_pure

/-! ## Arrays -/

theorem tame_mapItems (tame : m.Tame d) {callback : Value} {items : List Value}
    {results : Array Value} : (mapItems m callback items results).Tame d env base returns loop := by
  induction items generalizing results with
  | nil => exact tame_pure
  | cons item items ih => exact Tame.andThen tame.callAlone.weaken fun _ => ih

theorem tame_eachItem (tame : m.Tame d) {callback : Value} {items : List Value} :
    (eachItem m callback items).Tame d env base returns loop := by
  induction items with
  | nil => exact tame_pure
  | cons item items ih => exact Tame.andThen tame.callAlone.weaken fun _ => ih

theorem tame_filterItems (tame : m.Tame d) {callback : Value} {items : List Value}
    {kept : Array Value} : (filterItems m callback items kept).Tame d env base returns loop := by
  induction items generalizing kept with
  | nil => exact tame_pure
  | cons item items ih => exact Tame.andThen tame.callAlone.weaken fun _ => ih

theorem tame_foldItems (tame : m.Tame d) {callback : Value} {items : List Value}
    {value : Value} : (foldItems m callback items value).Tame d env base returns loop := by
  induction items generalizing value with
  | nil => exact tame_pure
  | cons item items ih => exact Tame.andThen tame.callAlone.weaken fun _ => ih

/-- A call in a task of its own runs nothing but accepted functions. -/
theorem tame_spawnItems {callback : Value} {items : List Value} {promises : Array PromiseId} :
    (spawnItems callback items promises).Tame d env base returns loop := by
  induction items generalizing promises with
  | nil => exact tame_pure
  | cons item items ih =>
    have fits : (Task.apply callback [item]).Fits d base := trivial
    exact tame_read.andThen fun env => (tame_enqueue fits).andThen fun _ => ih

theorem tame_joinAll {promises : List PromiseId} {values : Array Value} :
    (joinAll promises values).Tame d env base returns loop := by
  induction promises generalizing values with
  | nil => exact tame_pure
  | cons promise promises ih =>
    exact tame_await.andThen fun _ => tame_ofExcept.andThen fun _ => ih

theorem tame_itemMethod (tame : m.Tame d) {method : ArrayMethod} {receiver : Value}
    {items : List Value} {name : String} {args : List Value} :
    (itemMethod m method receiver items name args).Tame d env base returns loop := by
  unfold itemMethod
  split
  · exact tame_panic
  · split
    · exact (tame_eachItem tame).andThen fun _ => tame_pure
    · exact (tame_mapItems tame).andThen fun _ => tame_newArray
    · exact (tame_filterItems tame).andThen fun _ => tame_newArray
    · split
      · exact tame_foldItems tame
      · exact tame_foldItems tame
      · exact tame_pure
    · exact tame_spawnItems.andThen fun _ => tame_joinAll.andThen fun _ =>
        tame_newArray

theorem tame_arrayMethod (tame : m.Tame d) {method : ArrayMethod} {receiver : Value}
    {id : ArrayId} {name : String} {args : List Value} :
    (arrayMethod m method receiver id name args).Tame d env base returns loop := by
  refine tame_ask.andThen fun size => ?_
  cases method with
  | push => exact tame_modifyArray.andThen fun _ => tame_pure
  | pop => exact tame_ask.andThen fun _ => tame_modifyArray.andThen fun _ => tame_pure
  | insert =>
    refine tame_ofExcept.andThen fun x => ?_
    cases Decimal.gap? x size with
    | some position => exact tame_modifyArray.andThen fun _ => tame_pure
    | none => exact tame_panic
  | remove =>
    refine tame_ofExcept.andThen fun x => ?_
    cases Decimal.position? x size with
    | some position =>
      exact tame_ask.andThen fun _ => tame_modifyArray.andThen fun _ => tame_pure
    | none => exact tame_panic
  | get => exact tame_ofExcept.andThen fun _ => tame_demand
  | set =>
    exact tame_ofExcept.andThen fun _ => tame_setArrayItem.andThen fun _ => tame_pure
  | size | isEmpty => exact tame_pure
  | contains => exact tame_ask
  | join =>
    dsimp only
    split
    · exact tame_pure.andThen fun _ => tame_ask
    · exact tame_ofExcept.andThen fun _ => tame_ask
  | forEach | map | filter | reduce | parallel =>
    exact tame_ask.andThen fun _ => tame_itemMethod tame

/-! ## Other kinds -/

theorem tame_mapMethod {method : MapMethod} {id : MapId} {args : List Value} :
    (mapMethod method id args).Tame d env base returns loop := by
  unfold mapMethod
  cases method with
  | put | remove =>
    exact tame_keyInto.andThen fun _ => tame_ask.andThen fun _ =>
      tame_modifyMap.andThen fun _ => tame_pure
  | get | containsKey | size | isEmpty => exact tame_ask
  | keys | values => exact tame_ask.andThen fun _ => tame_newArray

theorem tame_tupleMethod {method : TupleMethod} {receiver : Value} {items : List Value}
    {name : String} {args : List Value} :
    (tupleMethod method receiver items name args).Tame d env base returns loop := by
  cases method with
  | size => exact tame_pure
  | get => exact tame_ofExcept.andThen fun _ => tame_ofExcept

theorem tame_promiseMethod (tame : m.Tame d) {method : PromiseMethod}
    {receiver : Value} {id : PromiseId} {name : String} {args : List Value} :
    (promiseMethod m method receiver id name args).Tame d env base returns loop := by
  unfold promiseMethod
  split
  · exact tame_await.andThen fun _ => tame_ofExcept
  · exact tame_andThen tame
  · exact tame_panic

theorem tame_builtinMethod (tame : m.Tame d) {receiver : Value} {name : String}
    {args : List Value} : (builtinMethod m receiver name args).Tame d env base returns loop := by
  have missing : Tame d env base (panic (receiver.noMethod name) : Eval Value) returns loop :=
    tame_panic
  refine .ite (fun _ => tame_display.andThen fun _ => tame_pure) fun _ => ?_
  cases receiver with
  | string text =>
    cases StringMethod.ofName? name with
    | some method => exact tame_stringMethod
    | none => exact missing
  | number x =>
    cases NumberMethod.ofName? name with
    | some method => exact tame_pure
    | none => exact missing
  | array id =>
    cases ArrayMethod.ofName? name with
    | some method => exact tame_arrayMethod tame
    | none => exact missing
  | map id =>
    cases MapMethod.ofName? name with
    | some method => exact tame_mapMethod
    | none => exact missing
  | tuple items =>
    cases TupleMethod.ofName? name with
    | some method => exact tame_tupleMethod
    | none => exact missing
  | promise id =>
    cases PromiseMethod.ofName? name with
    | some method => exact tame_promiseMethod tame
    | none => exact missing
  | safe id =>
    cases SafeMethod.ofName? name with
    | some method => exact tame_ask.andThen fun _ => tame_pure
    | none => exact missing
  | entity entity =>
    cases EntityMethod.ofName? name with
    | some method => exact tame_ask.andThen fun _ => tame_newArray
    | none => exact missing
  | null | unit | bool | function | external | hostClass | space => exact missing

end ScriptEngine.Eval
