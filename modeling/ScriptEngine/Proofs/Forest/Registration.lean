import ScriptEngine.Forest.Builder
import ScriptEngine.Proofs.OrderedMap

/-!
# Registering modules

Calls register modules one after another, of source texts or of trees. One that fails, because of
its name or because of its text, leaves the builder as it was.

* `Registration`, `ForestBuilder.run_call`: a call, and what it comes to.
* `ForestBuilder.Indexed`: the index holds the names of the modules with their places.
* `ForestBuilder.afterCalls_succeeding`: calls that fail have no part in what is left.
* `ForestBuilder.afterCalls_spec`: what is left by calls.
-/

namespace ScriptEngine

/-- A module is called what its source text was called. -/
theorem Module.name_of_ofSource {name source : String} {m : Module}
    (made : Module.ofSource name source = .ok m) : m.name = name := by
  unfold ofSource at made
  split at made
  · cases made
  · split at made
    · cases made
    · obtain rfl := Except.ok.inj made
      rfl

/-! ## Doing something to a builder -/

namespace Building

variable {α β : Type}

@[simp]
theorem run_bind (x : Building α) (f : α → Building β) (b : ForestBuilder) :
    (x >>= f).run b =
      match x.run b with
      | (.ok a, b) => (f a).run b
      | (.error error, b) => (.error error, b) := by
  rw [run, run, ExceptT.run_bind, StateT.run_bind]
  rcases StateT.run (ExceptT.run x) b with ⟨_ | _, _⟩ <;> rfl

@[simp]
theorem run_pure (a : α) (b : ForestBuilder) : (pure a : Building α).run b = (.ok a, b) := rfl

@[simp]
theorem run_throw (error : LoadError) (b : ForestBuilder) :
    (throw error : Building α).run b = (.error error, b) := rfl

@[simp]
theorem run_get (b : ForestBuilder) : (get : Building ForestBuilder).run b = (.ok b, b) := rfl

@[simp]
theorem run_modify (f : ForestBuilder → ForestBuilder) (b : ForestBuilder) :
    (modify f : Building PUnit).run b = (.ok ⟨⟩, f b) := rfl

end Building

/-! ## Calls -/

/-- A call that registers a module: that of a source text, or a tree. -/
inductive Registration
  | source (name source : String)
  | tree (m : Module)

namespace Registration

/-- The name of the module. -/
def name : Registration → String
  | .source name _ => name
  | .tree m => m.name

/-- What the call answers a builder, and the builder that it leaves. -/
def run (b : ForestBuilder) : Registration → Except LoadError Unit × ForestBuilder
  | .source name text => (ForestBuilder.registerSource name text).run b
  | .tree m => (ForestBuilder.register m).run b

/-- The tree of the module. -/
def tree? : Registration → Except SourceError Module
  | .source name text => Module.ofSource name text
  | .tree m => .ok m

/-- The module of a call among some names, whatever else is registered. -/
def made (bindings : Bindings) (strict : Bool) (call : Registration) :
    Except LoadError AnalysedModule :=
  match call.tree? with
  | .error error => .error (.source error)
  | .ok m =>
    match m.analyze bindings.names strict with
    | .error error => .error (.semantic error)
    | .ok analysis => .ok ⟨m, analysis⟩

theorem name_of_made {bindings : Bindings} {strict : Bool} {call : Registration}
    {m : AnalysedModule} (made : call.made bindings strict = .ok m) : m.name = call.name := by
  unfold Registration.made at made
  split at made
  · cases made
  · next tree read =>
    split at made
    · cases made
    · obtain rfl := Except.ok.inj made
      cases call with
      | source name text =>
        change Module.ofSource name text = .ok tree at read
        exact Module.name_of_ofSource read
      | tree m =>
        cases read
        rfl

end Registration

namespace ForestBuilder

variable {b b' : ForestBuilder} {call : Registration} {calls : List Registration}

/-! ## One call -/

theorem run_requireNew (name : String) (b : ForestBuilder) :
    (requireNew name).run b =
      if b.index.contains name then (.error (.link (.duplicateModule name)), b)
      else (.ok (), b) := by
  cases there : b.index.contains name <;> simp [requireNew, there]

/-- A builder with one module more. -/
def push (b : ForestBuilder) (m : AnalysedModule) : ForestBuilder :=
  { b with modules := b.modules ++ [m], index := b.index.insert m.name b.modules.length }

theorem run_register (m : Module) (b : ForestBuilder) :
    (register m).run b =
      if b.index.contains m.name then (.error (.link (.duplicateModule m.name)), b)
      else match m.analyze b.bindings.names b.strict with
        | .error error => (.error (.semantic error), b)
        | .ok analysis => (.ok (), b.push ⟨m, analysis⟩) := by
  cases there : b.index.contains m.name with
  | true => simp [register, run_requireNew, there]
  | false =>
    cases analysed : m.analyze b.bindings.names b.strict with
    | error error => simp [register, run_requireNew, there, analysed]
    | ok analysis => simp [register, run_requireNew, there, analysed, push, AnalysedModule.name]

theorem run_registerSource (name source : String) (b : ForestBuilder) :
    (registerSource name source).run b =
      if b.index.contains name then (.error (.link (.duplicateModule name)), b)
      else match Module.ofSource name source with
        | .error error => (.error (.source error), b)
        | .ok m => (register m).run b := by
  cases there : b.index.contains name with
  | true => simp [registerSource, run_requireNew, there]
  | false =>
    cases read : Module.ofSource name source with
    | error error => simp [registerSource, run_requireNew, there, read]
    | ok m => simp [registerSource, run_requireNew, there, read]

/-- A call fails because of its name, or because of what it is made of, and then it changes nothing.
Otherwise there is one module more. -/
theorem run_call (call : Registration) (b : ForestBuilder) :
    call.run b =
      if b.index.contains call.name then (.error (.link (.duplicateModule call.name)), b)
      else match call.made b.bindings b.strict with
        | .error error => (.error error, b)
        | .ok m => (.ok (), b.push m) := by
  cases call with
  | tree m =>
    rw [Registration.run, run_register, Registration.made, Registration.tree?]
    dsimp only [Registration.name]
    cases m.analyze b.bindings.names b.strict <;> rfl
  | source name text =>
    rw [Registration.run, run_registerSource, Registration.made, Registration.tree?]
    dsimp only [Registration.name]
    cases read : Module.ofSource name text with
    | error error => rfl
    | ok m =>
      -- The name is asked for twice.
      obtain rfl := Module.name_of_ofSource read
      dsimp only
      rw [run_register]
      cases m.analyze b.bindings.names b.strict <;> split <;> simp [*]

/-- A call that fails changes nothing. -/
theorem unchanged_of_error {error : LoadError} (failed : (call.run b).1 = .error error) :
    (call.run b).2 = b := by
  rw [run_call] at failed ⊢
  split at failed
  · next there => rw [if_pos there]
  · next new =>
    rw [if_neg new]
    split at failed
    · rfl
    · cases failed

/-- A call that succeeds adds the module that it makes, under a name that was not there. -/
theorem eq_push_of_ok (done : (call.run b).1 = .ok ()) :
    b.index.contains call.name = false ∧
      ∃ m, call.made b.bindings b.strict = .ok m ∧ (call.run b).2 = b.push m := by
  rw [run_call] at done ⊢
  split at done
  · cases done
  · next new =>
    rw [if_neg new]
    split at done
    · cases done
    · next m made => exact ⟨Bool.eq_false_iff.mpr new, m, made, rfl⟩

/-! ## Builders with more modules -/

theorem after_eq_ok {x : Building Unit} : b.after x = .ok b' ↔ x.run b = (.ok (), b') := by
  rw [after]
  split <;> simp [*]

/-- Whoever adds a module gives it a new name, and it has been analysed among the bindings. -/
theorem add_eq_ok {m : Module} (added : b.add m = .ok b') :
    b.index.contains m.name = false ∧
      ∃ analysis, m.analyze b.bindings.names b.strict = .ok analysis ∧
        b' = b.push ⟨m, analysis⟩ := by
  have ran := after_eq_ok.mp added
  rw [run_register] at ran
  split at ran
  · cases ran
  · next new =>
    split at ran
    · cases ran
    · next analysis analysed =>
      exact ⟨Bool.eq_false_iff.mpr new, analysis, analysed, (congrArg Prod.snd ran).symm⟩

theorem add_of_new {m : Module} {analysis : Analysis} (new : b.index.contains m.name = false)
    (analysed : m.analyze b.bindings.names b.strict = .ok analysis) :
    b.add m = .ok (b.push ⟨m, analysis⟩) := by
  rw [add, after_eq_ok, run_register, new, analysed]
  rfl

theorem add_of_error {m : Module} {error : SemanticError} (new : b.index.contains m.name = false)
    (failed : m.analyze b.bindings.names b.strict = .error error) :
    b.add m = .error (.semantic error) := by
  rw [add, after, run_register, new, failed]
  rfl

/-- A source text adds the module that it makes. -/
theorem addSource_eq_ok {name source : String} (added : b.addSource name source = .ok b') :
    ∃ m, Module.ofSource name source = .ok m ∧ b.add m = .ok b' := by
  have ran := after_eq_ok.mp added
  rw [run_registerSource] at ran
  split at ran
  · cases ran
  · split at ran
    · cases ran
    · next m read => exact ⟨m, read, after_eq_ok.mpr ran⟩

theorem addSource_of_new {name source : String} {m : Module}
    (new : b.index.contains name = false) (read : Module.ofSource name source = .ok m) :
    b.addSource name source = b.add m := by
  rw [addSource, add, after, after, run_registerSource, new, read]
  rfl

/-! ## The index -/

/-- The names of the modules in the order of their registration. -/
def names (b : ForestBuilder) : List String := b.modules.map (·.name)

theorem names_push (b : ForestBuilder) (m : AnalysedModule) :
    (b.push m).names = b.names ++ [m.name] := List.map_append

/-- The names of the modules are distinct, and the index holds them with their places. -/
structure Indexed (b : ForestBuilder) : Prop where
  distinct : b.names.Nodup
  entries : b.index.entries = b.names.zipIdx

namespace Indexed

theorem start (bindings : Bindings) (strict : Bool) : (start bindings strict).Indexed :=
  ⟨List.nodup_nil, rfl⟩

theorem keys (h : b.Indexed) : b.index.entries.map (·.1) = b.names := by
  rw [h.entries, List.zipIdx_map_fst]

theorem get?_eq_some_iff (h : b.Indexed) {name : String} {i : Nat} :
    b.index.get? name = some i ↔ b.names[i]? = some name := by
  rw [OrderedMap.get?_eq_some_iff, h.entries]
  exact List.mem_zipIdx_iff_getElem?

theorem contains_iff (h : b.Indexed) {name : String} :
    b.index.contains name = true ↔ name ∈ b.names := by
  rw [Rows.contains, Option.isSome_iff_exists, List.mem_iff_getElem?]
  exact exists_congr fun i => h.get?_eq_some_iff

theorem not_mem_names (h : b.Indexed) {name : String} (new : b.index.contains name = false) :
    name ∉ b.names := by
  rw [← h.contains_iff, new]
  exact Bool.false_ne_true

theorem push (h : b.Indexed) {m : AnalysedModule} (new : m.name ∉ b.names) :
    (b.push m).Indexed := by
  refine ⟨?_, ?_⟩
  · rw [names_push]
    exact List.concat_eq_append ▸ h.distinct.concat new
  · have absent : m.name ∉ b.index.entries.map (·.1) := h.keys ▸ new
    rw [names_push, ForestBuilder.push, OrderedMap.entries_insert _ absent, h.entries,
      List.zipIdx_append]
    simp [ForestBuilder.names]

end Indexed

/-! ## Calls one after another -/

/-- What calls leave, those that fail included. -/
def afterCalls (b : ForestBuilder) (calls : List Registration) : ForestBuilder :=
  calls.foldl (fun b call => (call.run b).2) b

/-- The calls that succeed, each in its turn. -/
def succeeding (b : ForestBuilder) : List Registration → List Registration
  | [] => []
  | call :: calls =>
    match call.run b with
    | (.ok (), b) => call :: b.succeeding calls
    | (.error _, b) => b.succeeding calls

theorem afterCalls_cons (b : ForestBuilder) (call : Registration) (calls : List Registration) :
    b.afterCalls (call :: calls) = (call.run b).2.afterCalls calls := rfl

theorem succeeding_cons_of_ok (done : (call.run b).1 = .ok ()) :
    b.succeeding (call :: calls) = call :: (call.run b).2.succeeding calls := by
  rw [succeeding]
  split
  · next ran => rw [ran]
  · next ran =>
    rw [ran] at done
    cases done

theorem succeeding_cons_of_error {error : LoadError} (failed : (call.run b).1 = .error error) :
    b.succeeding (call :: calls) = b.succeeding calls := by
  have same := unchanged_of_error failed
  rw [succeeding]
  split
  · next ran =>
    rw [ran] at failed
    cases failed
  · next ran =>
    rw [ran] at same
    exact congrArg (·.succeeding calls) same

/-- Calls that fail have no part in what is left. -/
theorem afterCalls_succeeding (b : ForestBuilder) (calls : List Registration) :
    b.afterCalls (b.succeeding calls) = b.afterCalls calls := by
  induction calls generalizing b with
  | nil => rfl
  | cons call calls ih =>
    cases answer : (call.run b).1 with
    | ok => rw [succeeding_cons_of_ok answer, afterCalls_cons, afterCalls_cons, ih]
    | error error =>
      rw [succeeding_cons_of_error answer, afterCalls_cons, unchanged_of_error answer, ih]

/-- Without them the others succeed as they did. -/
theorem succeeding_succeeding (b : ForestBuilder) (calls : List Registration) :
    b.succeeding (b.succeeding calls) = b.succeeding calls := by
  induction calls generalizing b with
  | nil => rfl
  | cons call calls ih =>
    cases answer : (call.run b).1 with
    | ok => rw [succeeding_cons_of_ok answer, succeeding_cons_of_ok answer, ih]
    | error error => rw [succeeding_cons_of_error answer, ih]

/-- The index stays right, and each call that succeeds adds the module that it makes. The induction
is on the calls. -/
theorem Indexed.afterCalls (h : b.Indexed) (calls : List Registration) :
    (b.afterCalls calls).Indexed ∧ (b.afterCalls calls).bindings = b.bindings ∧
      (b.afterCalls calls).strict = b.strict ∧
        ∃ ms, (b.afterCalls calls).modules = b.modules ++ ms ∧
          List.Forall₂ (fun call m => call.made b.bindings b.strict = .ok m)
            (b.succeeding calls) ms := by
  induction calls generalizing b with
  | nil => exact ⟨h, rfl, rfl, [], (List.append_nil _).symm, .nil⟩
  | cons call calls ih =>
    cases answer : (call.run b).1 with
    | error error =>
      rw [afterCalls_cons, unchanged_of_error answer, succeeding_cons_of_error answer]
      exact ih h
    | ok =>
      obtain ⟨new, m, made, pushed⟩ := eq_push_of_ok answer
      rw [afterCalls_cons, succeeding_cons_of_ok answer, pushed]
      have absent : m.name ∉ b.names := Registration.name_of_made made ▸ h.not_mem_names new
      obtain ⟨indexed, bindings, strict, ms, modules, all⟩ := ih (h.push absent)
      refine ⟨indexed, bindings, strict, m :: ms, ?_, .cons made all⟩
      rw [modules, ForestBuilder.push, List.append_assoc]
      rfl

/-! ## What builders make -/

/-- The forest of a builder that links. -/
theorem eq_of_finish {f : Forest} (linked : b.finish = .ok f) :
    f = ⟨b.modules, b.bindings⟩ ∧ f.fault? = none := by
  unfold finish Forest.link at linked
  split at linked
  · cases linked
  · next none =>
    obtain rfl := Except.ok.inj linked
    exact ⟨rfl, none⟩

/-- A registered name is that of a module of the forest. -/
theorem exists_module? {f : Forest} (linked : b.finish = .ok f) {name : String}
    (there : name ∈ b.names) : ∃ m, f.module? name = some m := by
  obtain ⟨rfl, -⟩ := eq_of_finish linked
  obtain ⟨m, mem, named⟩ := List.mem_map.mp there
  exact Option.isSome_iff_exists.mp (List.find?_isSome.mpr ⟨m, mem, beq_iff_eq.mpr named⟩)

/-- The forest finds a module where the index has its name. -/
theorem Indexed.module?_eq (h : b.Indexed) {f : Forest} (linked : b.finish = .ok f)
    (name : String) : f.module? name = (b.index.get? name).bind (b.modules[·]?) := by
  obtain ⟨rfl, -⟩ := eq_of_finish linked
  rw [Forest.module?]
  dsimp only
  cases place : b.index.get? name with
  | none =>
    rw [Option.bind_none, List.find?_eq_none]
    intro m mem same
    have named : m.name = name := by simpa using same
    have there := h.contains_iff.mpr (List.mem_map.mpr ⟨m, mem, named⟩)
    rw [Rows.contains, place] at there
    cases there
  | some i =>
    have listed := h.get?_eq_some_iff.mp place
    rw [names, List.getElem?_map] at listed
    obtain ⟨m, at_, named⟩ := Option.map_eq_some_iff.mp listed
    have mem := List.mem_of_getElem? at_
    have found : (b.modules.find? fun m => m.name == name).isSome :=
      List.find?_isSome.mpr ⟨m, mem, by simp [named]⟩
    obtain ⟨m', first⟩ := Option.isSome_iff_exists.mp found
    have named' : m'.name = name := by simpa using List.find?_some first
    have same := List.inj_on_of_nodup_map h.distinct (List.mem_of_find?_eq_some first) mem
      (named'.trans named.symm)
    rw [first, same, Option.bind_some, at_]

/-- Registering is all or nothing. After any calls the names of the modules are distinct, those of
the calls that succeeded in their order, and the index holds exactly these names with their places;
the modules are what these calls make. The same is left, and they succeed too, if only they are
made. Any further call fails if its name is there, and else succeeds if it makes a module, whether
or not calls of its name have failed before; if it fails it changes nothing. The forest that is
linked finds modules by the index. -/
theorem afterCalls_spec (bindings : Bindings) (strict : Bool) (calls : List Registration) :
    let first := start bindings strict
    let done := first.succeeding calls
    let b := first.afterCalls calls
    b.names.Nodup ∧ b.names = done.map (·.name) ∧
      (∀ name i, b.index.get? name = some i ↔ b.names[i]? = some name) ∧
      List.Forall₂ (fun call m => call.made bindings strict = .ok m) done b.modules ∧
      first.afterCalls done = b ∧ first.succeeding done = done ∧
      (∀ call : Registration, (call.run b).1 =
        if call.name ∈ b.names then .error (.link (.duplicateModule call.name))
        else (call.made bindings strict).map fun _ => ()) ∧
      (∀ (call : Registration) error, (call.run b).1 = .error error → (call.run b).2 = b) ∧
      ∀ f, b.finish = .ok f → ∀ name,
        f.module? name = (b.index.get? name).bind (b.modules[·]?) := by
  intro first done b
  obtain ⟨indexed, sameBindings, sameStrict, ms, modules, all⟩ :=
    (Indexed.start bindings strict).afterCalls calls
  obtain rfl : b.modules = ms := modules.trans (List.nil_append ms)
  refine ⟨indexed.distinct, ?_, fun _ _ => indexed.get?_eq_some_iff, all,
    afterCalls_succeeding first calls, succeeding_succeeding first calls, ?_,
    fun _ _ => unchanged_of_error, fun f linked => indexed.module?_eq linked⟩
  · have same : List.Forall₂ (· = ·) (b.modules.map (·.name)) (done.map (·.name)) := by
      rw [List.forall₂_map_left_iff, List.forall₂_map_right_iff]
      exact all.flip.imp fun _ _ made => Registration.name_of_made made
    exact List.forall₂_eq_eq_eq ▸ same
  · intro call
    rw [run_call]
    by_cases there : call.name ∈ b.names
    · rw [if_pos (indexed.contains_iff.mpr there), if_pos there]
    · rw [if_neg (mt indexed.contains_iff.mp there), if_neg there, sameBindings, sameStrict]
      dsimp only [start]
      cases call.made bindings strict <;> rfl

/-- A name whose text was at fault is there to be used. -/
example : ((start .empty false).afterCalls
    [.source "a" "let x = ;", .source "a" "let x = 1;", .source "a" ""]).names = ["a"] := by
  decide +kernel

end ForestBuilder

end ScriptEngine
