import ScriptEngine.Evaluation.Member
import ScriptEngine.Proofs.Evaluation.Tasks

/-!
# Names and members are tame

Reading and writing what values hold runs no code of scripts, but for the items of host objects. It
makes functions without any code of their own, and leaves all other code alone.

* `tame_lookup`, `tame_assignName`: names.
* `tame_member`, `tame_setMember`, `tame_item`: members and items.
* `tame_readPlace`, `tame_writePlace`, `tame_elements`: what statements make of them.
-/

set_option linter.unusedSectionVars false

namespace ScriptEngine.Eval

variable {α : Type} {m : Machine} {d : Discipline} [d.Lawful] {env : EnvId} {base : World}
  {returns loop : Bool}

/-! ## Names -/

theorem tame_bound {name : String} {binding : Binding} :
    (bound name binding).Tame d env base returns loop := by
  cases binding with
  | object value => exact tame_fromHost
  | hostClass ref => exact tame_pure
  | remote spec => exact tame_newFunction trivial

theorem tame_modifyEnvironment {env' : EnvId} {f : Environment → Environment}
    (forest : ∀ e, (f e).forest = e.forest) (modules : ∀ e, (f e).modules = e.modules)
    (grants : ∀ e, (f e).grants = e.grants) :
    (modify (·.modifyEnvironment env' f) : Eval Unit).Tame d env base returns loop :=
  tame_modify (fun _ => .modifyEnvironment forest modules)
    (fun _ => .modifyEnvironment forest grants) fun _ => ⟨rfl, rfl⟩

theorem tame_define {entity : EntityRef} {name : String} {value : Value} :
    (change (·.define entity name value)).Tame d env base returns loop :=
  tame_change fun s => .define s entity name value

theorem tame_makeEntity {env' : EnvId} {under : Option Nat} :
    (make (·.newEntity env' under)).Tame d env base returns loop :=
  tame_make fun s => .newEntity s env' under

theorem tame_utility : utility.Tame d env base returns loop := by
  unfold utility
  -- Any list of functions will do, and the actual one would be run through item by item.
  generalize Builtin.utilities = builtins
  refine tame_environment.andThen fun environment => ?_
  cases environment.utility with
  | some entity => exact tame_pure
  | none =>
    refine tame_read.andThen fun env => tame_makeEntity.andThen fun entity => ?_
    refine Tame.andThen (.forM fun builtin => ?_) fun _ => ?_
    · have fits : d.Admits base (.native builtin) := trivial
      exact (tame_newFunction fits).andThen fun _ => tame_define
    · refine Tame.andThen (tame_modifyEnvironment ?_ ?_ ?_) fun _ => tame_pure
      · exact fun _ => rfl
      · exact fun _ => rfl
      · exact fun _ => rfl

theorem tame_builtinNamed {name : String} :
    (builtinNamed name).Tame d env base returns loop := by
  refine .ite (fun _ => tame_utility) fun _ => ?_
  cases Builtin.ofName? name with
  | some builtin => exact tame_newFunction trivial
  | none => exact tame_panic

theorem tame_lookupGlobal {name : String} :
    (lookupGlobal name).Tame d env base returns loop := by
  refine tame_environment.andThen fun environment => ?_
  cases environment.resolve? name with
  | some binding => exact tame_bound
  | none => exact tame_builtinNamed

theorem tame_ownMember? {frame : FrameId} {name : String} :
    (ownMember? frame name).Tame d env base returns loop := by
  refine tame_this?.andThen fun this => ?_
  cases this with
  | none => exact tame_pure
  | some entity =>
    refine tame_ask.andThen fun member? => ?_
    cases member? with
    | some value => exact tame_pure
    | none =>
      refine tame_ask.andThen fun property => ?_
      cases property with
      | some value => exact tame_fromHost.andThen fun _ => tame_pure
      | none => exact tame_pure

theorem tame_declared? {frame : FrameId} {name : String} :
    (declared? frame name).Tame d env base returns loop :=
  fun w sound _ =>
    ⟨Discipline.Lawful.quiet sound (.lookUp w frame name) (.of_environments rfl)
        ⟨rfl, rfl⟩, trivial⟩

theorem tame_lookup {frame : FrameId} {name : String} :
    (lookup frame name).Tame d env base returns loop := by
  refine tame_declared?.andThen fun bound? => ?_
  cases bound? with
  | some value => exact tame_pure
  | none =>
    refine tame_ownMember?.andThen fun member? => ?_
    cases member? with
    | some value => exact tame_pure
    | none => exact tame_lookupGlobal

theorem tame_assignName {frame : FrameId} {name : String} {value : Value} :
    (assignName frame name value).Tame d env base returns loop := by
  refine tame_ask.andThen fun slot? => ?_
  cases slot? with
  | some slot =>
    exact .update fun w sound _ =>
      ⟨Discipline.Lawful.quiet sound (.write w slot value) (.of_environments rfl)
          ⟨rfl, rfl⟩, trivial⟩
  | none =>
    refine tame_this?.andThen fun this => ?_
    cases this with
    | some entity => exact tame_change fun s => .setMember s entity name value
    | none => exact tame_panic

theorem tame_assignNames {frame : FrameId} {names : List (String × Value)} :
    (assignNames frame names).Tame d env base returns loop := by
  induction names with
  | nil => exact tame_pure
  | cons entry names ih => exact tame_assignName.andThen fun _ => ih

/-! ## Members -/

theorem tame_checkPrivate {entity : EntityRef} {name : String} {viewer : Option EntityRef} :
    (checkPrivate entity name viewer).Tame d env base returns loop :=
  tame_ask.andThen fun _ => .ite (fun _ => tame_panic) fun _ => tame_pure

theorem tame_spaceMember {space : FrameId} {name : String} :
    (spaceMember space name).Tame d env base returns loop := by
  refine tame_ask.andThen fun value? => ?_
  cases value? with
  | some value => exact tame_pure
  | none => exact tame_panic

theorem tame_boundMethod {receiver : Value} {name : String} {orElse : Eval Value}
    (h : orElse.Tame d env base returns loop) :
    (boundMethod receiver name orElse).Tame d env base returns loop :=
  .ite (fun _ => tame_newFunction trivial) fun _ => h

theorem tame_hostMember {ref : HostRef} {receiver : Value} {name : String} :
    (hostMember ref receiver name).Tame d env base returns loop := by
  refine tame_ask.andThen fun property? => ?_
  cases property? with
  | some value => exact tame_fromHost
  | none => exact tame_newFunction trivial

theorem tame_member {object : Value} {name : String} {viewer : Option EntityRef} :
    (member object name viewer).Tame d env base returns loop := by
  cases object with
  | entity entity =>
    refine tame_checkPrivate.andThen fun _ => tame_ask.andThen fun member? => ?_
    cases member? with
    | some value => exact tame_pure
    | none =>
      refine .ite (fun _ => tame_ask.andThen fun base? => ?_) fun _ =>
        tame_ask.andThen fun ref? => ?_
      · cases base? with
        | some base => exact tame_pure
        | none => exact tame_pure
      · cases ref? with
        | some ref => exact tame_hostMember
        | none => exact tame_boundMethod tame_panic
  | map id =>
    refine tame_ask.andThen fun value? => ?_
    cases value? with
    | some value => exact tame_pure
    | none => exact tame_boundMethod tame_pure
  | external ref => exact tame_hostMember
  | hostClass ref => exact tame_newFunction trivial
  | space space => exact tame_spaceMember
  | null | unit | bool | number | string | array | tuple | function | promise | safe =>
    exact tame_boundMethod tame_panic

theorem tame_setProperty {ref : HostRef} {name : String} {value : Value} :
    (setProperty ref name value).Tame d env base returns loop := by
  refine tame_demand.andThen fun value => tame_ask.andThen fun answer? => ?_
  match answer? with
  | some (.ok object) => exact tame_change fun _ => .of_arenas rfl rfl rfl rfl
  | some (.error e) => exact tame_panic
  | none => exact tame_pure

theorem tame_modifyArray {id : ArrayId} {f : Array Value → Array Value} :
    (change (·.modifyArray id f)).Tame d env base returns loop :=
  tame_change fun _ => .of_arenas rfl rfl rfl rfl

theorem tame_modifyMap {id : MapId} {f : OrderedMap Value → OrderedMap Value} :
    (change (·.modifyMap id f)).Tame d env base returns loop :=
  tame_change fun _ => .of_arenas rfl rfl rfl rfl

theorem tame_setMember {object : Value} {name : String} {value : Value}
    {viewer : Option EntityRef} :
    (setMember object name value viewer).Tame d env base returns loop := by
  cases object with
  | entity entity =>
    refine tame_checkPrivate.andThen fun _ => tame_ask.andThen fun host? => ?_
    cases host? with
    | some ref => exact tame_setProperty
    | none => exact tame_change fun s => .setMember s entity name value
  | map id => exact tame_modifyMap
  | external ref => exact tame_setProperty
  | null | unit | bool | number | string | array | tuple | function | hostClass | promise | safe
    | space => exact tame_panic

/-! ## Items -/

theorem tame_item (tame : m.Tame d) {object index : Value}
    {viewer : Option EntityRef} :
    (item m object index viewer).Tame d env base returns loop := by
  unfold item
  split
  · exact tame_demand
  · exact tame_ofExcept
  · exact tame_ofExcept
  · exact tame_ask
  · exact tame_member
  · exact tame.callMethod.weaken
  · exact tame_panic

theorem tame_setArrayItem {id : ArrayId} {index : Float} {value : Value} :
    (setArrayItem id index value).Tame d env base returns loop := by
  refine tame_ask.andThen fun size => ?_
  cases Decimal.position? index size with
  | some position => exact tame_modifyArray
  | none => exact tame_panic

theorem tame_keyInto {id : MapId} {key : Value} :
    (keyInto id key).Tame d env base returns loop :=
  tame_ask.andThen fun _ => .ite (fun _ => .unfinished) fun _ => tame_ask

theorem tame_setItem {object index value : Value} {viewer : Option EntityRef} :
    (setItem object index value viewer).Tame d env base returns loop := by
  unfold setItem
  split
  · exact tame_setArrayItem
  · exact tame_keyInto.andThen fun _ => tame_modifyMap
  · exact tame_setMember
  · exact tame_panic

theorem tame_positional {object : Value} {index : Nat} :
    (positional object index).Tame d env base returns loop := by
  refine tame_ask.andThen fun items? => ?_
  cases items? with
  | none => exact tame_panic
  | some items =>
    dsimp only
    cases items[index]? with
    | some item => exact tame_pure
    | none => exact tame_panic

theorem tame_setPositional {object : Value} {index : Nat} {value : Value} :
    (setPositional object index value).Tame d env base returns loop := by
  unfold setPositional
  split
  · exact tame_ask.andThen fun _ => .ite (fun _ => tame_modifyArray) fun _ =>
      tame_panic
  · exact tame_panic

/-! ## Places and elements -/

theorem tame_readPlace (tame : m.Tame d) {place : Place} {frame : FrameId} :
    (readPlace m place frame).Tame d env base returns loop := by
  cases place with
  | name name => exact tame_lookup
  | member object name => exact tame_this?.andThen fun _ => tame_member
  | item object index => exact tame_this?.andThen fun _ => tame_item tame
  | position object index => exact tame_positional

theorem tame_writePlace {place : Place} {value : Value} {frame : FrameId} :
    (writePlace place value frame).Tame d env base returns loop := by
  cases place with
  | name name => exact tame_assignName
  | member object name => exact tame_this?.andThen fun _ => tame_setMember
  | item object index => exact tame_this?.andThen fun _ => tame_setItem
  | position object index => exact tame_setPositional

theorem tame_hostItems (tame : m.Tame d) {ref : HostRef} {count position : Nat}
    {items : Array Value} : (hostItems m ref count position items).Tame d env base returns loop := by
  induction count generalizing position items with
  | zero => exact tame_pure
  | succ count ih =>
    refine Tame.andThen tame.callHost.weaken fun answer => ?_
    cases answer with
    | ok value => exact tame_fromHost.andThen fun _ => ih
    | error e => exact tame_panic

theorem tame_elements (tame : m.Tame d) {value : Value} :
    (elements m value).Tame d env base returns loop := by
  unfold elements
  cases value with
  | array id => exact tame_ask
  | tuple items => exact tame_pure
  | map id => exact tame_ask
  | entity entity => exact tame_ask
  | string text => exact tame_pure
  | external ref =>
    refine Tame.andThen tame.callHost.weaken fun answer => ?_
    split
    · exact tame_hostItems tame
    · exact tame_ask.andThen fun _ => tame_panic
  | null | unit | bool | number | function | hostClass | promise | safe | space =>
    exact tame_panic

end ScriptEngine.Eval
