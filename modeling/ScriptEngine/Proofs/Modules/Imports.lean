import ScriptEngine.Proofs.Evaluation.Places
import ScriptEngine.Proofs.Modules.Engines

/-!
# What becomes of an import

Whatever the world is like and whatever happens while an import waits, the end that it comes to stands
in the history: every item is linked, or the module has panicked, or one of the two is missing. In the
worlds of engines nothing is missing but what stands behind a return in the module.

* `Progress.Ends`: how an evaluation ends, if it does.
* `Import.Bound`, `Import.Failed`: the two ends of an import.
* `ends_importItems`, `ends_imported`, `ends_import`: the steps of an import, and all of it.
* `Engine.Reached.runsOnce_and_importsLive`: modules are initialised once, and imports are live.
* `Engine.Reached.import_binds`: what imports come to in the worlds of engines.
-/

namespace ScriptEngine

/-- Whatever happens while an evaluation waits, it ends with a value as `post` says or by a signal as
`ends` says, if it comes to an end. -/
def Progress.Ends {α : Type} (post : α → World → Prop) (ends : Signal → World → Prop) :
    Progress α → Prop
  | .done value w => post value w
  | .stopped (.signal s) w => ends s w
  | .stopped (.unfinished _) _ => True
  | .waiting _ _ resume => ∀ w, (resume w).Ends post ends

namespace Progress

variable {α β : Type} {post : α → World → Prop} {post' : β → World → Prop}
  {ends : Signal → World → Prop}

theorem Ends.bind {p : Progress α} {next : α → World → Progress β} (h : p.Ends post ends)
    (h' : ∀ v w, post v w → (next v w).Ends post' ends) : (p.bind next).Ends post' ends := by
  induction p with
  | done value w => exact h' value w h
  | stopped stop w => cases stop <;> exact h
  | waiting wait w resume ih => exact fun w => ih w (h w)

/-- What is attempted ends with the signal as a value. -/
theorem Ends.attempt {ends' : Signal → World → Prop} {p : Progress α} (h : p.Ends post ends) :
    p.attempt.Ends (fun result w => (∀ v, result = .ok v → post v w) ∧
      ∀ s, result = .error s → ends s w) ends' := by
  induction p with
  | done value w => exact ⟨fun v same => Except.ok.inj same ▸ h, nofun⟩
  | stopped stop w =>
    cases stop with
    | signal s => exact ⟨nofun, fun s' same => Except.error.inj same ▸ h⟩
    | unfinished => trivial
  | waiting wait w resume ih => exact fun w => ih w (h w)

theorem Ends.imp {post' : α → World → Prop} {ends' : Signal → World → Prop} {p : Progress α}
    (h : p.Ends post ends) (values : ∀ v w, post v w → post' v w)
    (signals : ∀ s w, ends s w → ends' s w) : p.Ends post' ends' := by
  induction p with
  | done value w => exact values value w h
  | stopped stop w =>
    cases stop with
    | signal s => exact signals s w h
    | unfinished => trivial
  | waiting wait w resume ih => exact fun w => ih w (h w)

/-- Nothing is said of ends. -/
theorem Ends.any (p : Progress α) : p.Ends (fun _ _ => True) fun _ _ => True := by
  induction p with
  | done value w => trivial
  | stopped stop w => cases stop <;> trivial
  | waiting wait w resume ih => exact ih

end Progress

/-! ## The ends of an import -/

/-- An import statement in the frame of a module. -/
structure Import where
  env : EnvId
  importer : FrameId
  items : List ImportItem
  source : String

namespace Import

/-- The link of an item to a frame of the module that it is imported from. -/
def link (i : Import) (exporter : FrameId) (item : ImportItem) : Link :=
  ⟨i.env, i.importer, item.localName, i.source, exporter, item.name⟩

/-- Every item has been imported. -/
def Bound (i : Import) (w : World) : Prop :=
  ∃ exporter, ∀ item ∈ i.items, .linked (i.link exporter item) ∈ w.history

/-- The module has panicked when it was run, or it has no slot for an item, or there is none. -/
inductive Failed (i : Import) (w : World) : Signal → Prop
  | panicked {cause : Panic} : w.history.head? = some (.failed i.env i.source cause) →
    Failed i w (.panic cause)
  | missed {exporter : FrameId} {item : ImportItem} : item ∈ i.items →
    w.store.frames.localSlot? exporter item.name = none →
    w.history.head? = some (.missed (i.link exporter item)) →
    Failed i w (.panic (.varNotFound (i.source ++ "::" ++ item.name)))
  | unknown : w.history.head? = some (.unknown i.env i.source) →
    Failed i w (.panic (.noModule i.source))

end Import

namespace Eval

variable {m : Machine} {env : EnvId} {frame exporter : FrameId} {source : String} {w : World}

/-- The items are imported in order, until one has no slot. -/
theorem ends_importItems {items all : List ImportItem} (among : items ⊆ all) :
    (importItems frame exporter source items env w).Ends
      (fun _ w' => w.history ⊆ w'.history ∧
        ∀ item ∈ items, .linked ((Import.mk env frame all source).link exporter item) ∈ w'.history)
      fun s w' => Import.Failed ⟨env, frame, all, source⟩ w' s := by
  induction items generalizing w with
  | nil => exact ⟨List.Subset.refl _, nofun⟩
  | cons item items ih =>
    obtain ⟨first, rest⟩ := List.cons_subset.mp among
    rw [importItems_cons]
    cases bound : w.store.frames.localSlot? exporter item.name with
    | none => exact .missed first bound rfl
    | some slot =>
      refine (ih rest).imp (fun _ w' ⟨kept, linked⟩ => ?_) fun _ _ failed => failed
      exact ⟨fun _ mem => kept (List.mem_cons_of_mem _ mem),
        List.forall_mem_cons.mpr ⟨kept List.mem_cons_self, linked⟩⟩

/-- Nothing leaves what contains all panics. -/
theorem ends_contain {α : Type} (x : Eval α) :
    (contain x env w).Ends (fun _ _ => True) fun _ _ => False := by
  rw [contain, bind_eq]
  refine (Progress.Ends.any (x env w)).attempt.bind fun result w' _ => ?_
  match result with
  | .ok value | .error (.panic cause) | .error (.returning value) | .error .breaking
  | .error .continuing => trivial

/-- A module that is run for others ends with its frame, or panics, and that is recorded. -/
theorem ends_initialised {body : Block} :
    (initialised m source body env w).Ends (fun _ _ => True) fun s w' =>
      ∃ cause, s = .panic cause ∧ w'.history.head? = some (.failed env source cause) := by
  rw [initialised_eq]
  have made : (moduleFrame [] env (w.record (.began env source))).Ends (fun _ _ => True)
      fun s w' => ∃ cause, s = .panic cause ∧
        w'.history.head? = some (.failed env source cause) := trivial
  refine made.bind fun frame w₁ _ => ?_
  refine ((ends_contain _).imp (fun _ _ ended => ended) fun _ _ no => no.elim).bind
    fun result w₂ _ => ?_
  cases result with
  | ok value => trivial
  | error cause => exact ⟨cause, rfl, rfl⟩

/-- A lock does not change what an evaluation ends with. -/
theorem ends_holdingLock {α : Type} {name : LockName} {x : Eval α} {ends : Signal → World → Prop}
    (h : ∀ w, (x env w).Ends (fun _ _ => True) ends)
    (keeps : ∀ {s w w'}, ends s w → w'.history = w.history → ends s w') :
    (holdingLock name x env w).Ends (fun _ _ => True) ends := by
  have locked (w : World) : (acquire ⟨env, name⟩ env w).Ends (fun _ _ => True) ends := by
    have run : acquire ⟨env, name⟩ env w =
        (if !(w.locks.acquire ⟨env, name⟩ w.turn.task).isHeldBy ⟨env, name⟩ w.turn.task then
          suspend (.lock ⟨env, name⟩) else pure () : Eval Unit) env
          { w with locks := w.locks.acquire ⟨env, name⟩ w.turn.task } := rfl
    rw [run]
    split
    · exact fun _ => trivial
    · trivial
  change ((acquire ⟨env, name⟩ >>= _) env w).Ends _ _
  rw [bind_eq]
  refine (locked w).bind fun _ w₁ _ => ?_
  rw [bind_eq]
  refine (h w₁).attempt.bind fun result w₂ ended => ?_
  cases result with
  | ok value => trivial
  | error s => exact keeps (ended.2 s rfl) rfl

/-- The frame of a module, or why there is none. -/
theorem ends_imported :
    (imported m source env w).Ends (fun _ _ => True) fun s w' =>
      (∃ cause, s = .panic cause ∧ w'.history.head? = some (.failed env source cause)) ∨
        s = .panic (.noModule source) ∧ w'.history.head? = some (.unknown env source) := by
  refine ends_holdingLock (fun w => ?_) fun ended same => by rwa [same]
  rw [loaded_eq]
  cases (w.environment env).modules.lookup source with
  | some frame => trivial
  | none =>
    cases (w.environment env).forest.module? source with
    | none => exact .inr ⟨rfl, rfl⟩
    | some found => exact ends_initialised.imp (fun _ _ _ => trivial) fun _ _ => .inl

/-- An import statement binds all its items, or fails, and either stands in the history. -/
theorem ends_import (levels : Nat) (position : Position) (i : Import) (w : World) :
    ((Goal.stmt ⟨position, .importFrom i.items i.source⟩ i.importer).run levels i.env w).Ends
      (fun _ => i.Bound) fun s w' => i.Failed w' s := by
  obtain ⟨env, frame, items, source⟩ := i
  cases levels with
  | zero => trivial
  | succ levels =>
    have run : (Goal.stmt ⟨position, .importFrom items source⟩ frame).run (levels + 1) env w =
        ((Goal.module source).run levels env w).bind fun exporter w =>
          importItems frame exporter source items env w := bind_eq ..
    rw [run]
    have exported : ((Goal.module source).run levels env w).Ends (fun _ _ => True)
        fun s w' => Import.Failed ⟨env, frame, items, source⟩ w' s := by
      cases levels with
      | zero => trivial
      | succ levels =>
        refine ends_imported.imp (fun _ _ _ => trivial) fun s w' ended => ?_
        rcases ended with ⟨cause, rfl, failed⟩ | ⟨rfl, unknown⟩
        · exact .panicked failed
        · exact .unknown unknown
    refine exported.bind fun exporter w₁ _ => ?_
    exact (ends_importItems fun _ mem => mem).imp (fun _ _ bound => ⟨exporter, bound.2⟩)
      fun _ _ failed => failed

end Eval

namespace Engine

variable {e : Engine}

/-! ## In the worlds of engines -/

/-- Modules are initialised once in an environment and never inside themselves, and imports are live,
whatever a host does with an engine. An import statement that ends with a value has linked all its
items. Names that are linked, also through others, share the slot of the module that they come from
first. Assigning a name that means a slot puts the value there, and looking one up, whenever that was,
has given what had been put there last. -/
theorem Reached.runsOnce_and_importsLive (reached : e.Reached) :
    e.world.RunsOnce ∧ e.world.ImportsLive ∧
      (∀ (levels : Nat) (position : Position) (i : Import) (w : World),
        ((Goal.stmt ⟨position, .importFrom i.items i.source⟩ i.importer).run levels i.env w).Ends
          (fun _ => i.Bound) fun _ _ => True) ∧
      ∀ (env : EnvId) (frame : FrameId) (name : String) (slot : SlotId) (w : World),
        w.store.frames.slot? frame name = some slot →
          (∀ value, ∃ w', Eval.assignName frame name value env w = .done () w' ∧
            w'.store.frames.accesses = .put slot value :: w.store.frames.accesses) ∧
          ∃ value w', Eval.lookup frame name env w = .done value w' ∧
            w'.store.frames.accesses = .read frame name slot value :: w.store.frames.accesses := by
  have modular := reached.modular
  refine ⟨modular.runsOnce, modular.importsLive, fun levels position i w => ?_,
    fun env frame name slot w means => ⟨fun value => ⟨_, Eval.assignName_of_slot? means, rfl⟩,
      _, _, Eval.lookup_of_slot? means, Frames.accesses_lookUp means⟩⟩
  exact (Eval.ends_import levels position i w).imp (fun _ _ bound => bound) fun _ _ _ => trivial

/-- The declaration of a variable. -/
def declaring (name : String) : Stmt :=
  ⟨.nowhere, .declare .varWord
    [⟨.bind name, some ⟨0, .nowhere, .literal (.bool true)⟩, .nowhere⟩]⟩

/-- Modules of which the last one imports a variable through the second one, assigns and reads it. -/
def sharing : List Module :=
  [⟨"m", ⟨[⟨.nowhere, .exportNames ["x"]⟩, declaring "x"], .nowhere⟩⟩,
    ⟨"between", ⟨[⟨.nowhere, .importFrom [⟨"x", none⟩] "m"⟩, ⟨.nowhere, .exportNames ["x"]⟩],
      .nowhere⟩⟩,
    ⟨"main", ⟨[⟨.nowhere, .importFrom [⟨"x", some "y"⟩] "between"⟩,
      ⟨.nowhere, .expression ⟨1, .nowhere, .assign .assign (.place ⟨2, .nowhere, .name "y"⟩)
        ⟨3, .nowhere, .literal (.bool false)⟩⟩ true⟩,
      ⟨.nowhere, .expression ⟨4, .nowhere, .name "y"⟩ false⟩], .nowhere⟩⟩]

/-- What is assigned in the last one is read there, and both names mean the slot of the first one. -/
theorem runsOnce_and_importsLive_of_sharing :
    ((runAmong sharing "main").2.world.RunsOnce ∧ (runAmong sharing "main").2.world.ImportsLive) ∧
      (∃ slot, (runAmong sharing "main").2.world.Names (0, "y") slot ∧
        (runAmong sharing "main").2.world.Names (2, "x") slot) ∧
      (runAmong sharing "main").1.toOption.map (·.isTruthy) = some false := by
  have live := Reached.runsOnce_and_importsLive (e := (runAmong sharing "main").2) .runAmong
  have first : (runAmong sharing "main").2.world.Aliases (0, "y") (1, "x") :=
    ⟨⟨0, 0, "y", "between", 1, "x"⟩, by decide +kernel, rfl, rfl⟩
  have second : (runAmong sharing "main").2.world.Aliases (1, "x") (2, "x") :=
    ⟨⟨0, 1, "x", "m", 2, "x"⟩, by decide +kernel, rfl, rfl⟩
  exact ⟨⟨live.1, live.2.1⟩, live.2.1.shared (.tail (.single first) second), by decide +kernel⟩

/-- Imports bind all their items, or pass the panic of the module on. However an import statement is
evaluated, and whatever happens while it waits, it ends with links for all items, or else the panic it
ends with is the last milestone: the module has panicked, it has no slot for an item, or there is no
module of that name. Among the milestones of an engine, whatever its host does, there is none of the
last kind, and an item has no slot only if a return has left the module before its end. -/
theorem Reached.import_binds (reached : e.Reached) :
    (∀ (levels : Nat) (position : Position) (i : Import) (w : World),
      ((Goal.stmt ⟨position, .importFrom i.items i.source⟩ i.importer).run levels i.env w).Ends
        (fun _ => i.Bound) fun s w' => i.Failed w' s) ∧
      (∀ env name, .unknown env name ∉ e.world.history) ∧
      ∀ link, .missed link ∈ e.world.history →
        (link.source, link.exporter) ∈ completed link.env e.world.history ∧
          .left link.exporter ∈ e.world.history := by
  have orderly := reached.modular.orderly
  exact ⟨Eval.ends_import, fun _ _ => orderly.not_mem_unknown, fun _ => orderly.of_missed⟩

/-- A module that exports a variable whose declaration stands behind a return, and one that imports
it. -/
def returning : List Module :=
  [⟨"m", ⟨[⟨.nowhere, .exportNames ["x"]⟩, ⟨.nowhere, .returnWith none⟩, declaring "x"], .nowhere⟩⟩,
    ⟨"main", ⟨[⟨.nowhere, .importFrom [⟨"x", none⟩] "m"⟩], .nowhere⟩⟩]

theorem import_binds_of_returning :
    .missed ⟨0, 0, "x", "m", 1, "x"⟩ ∈ (runAmong returning "main").2.world.history ∧
      .left 1 ∈ (runAmong returning "main").2.world.history := by
  have missed : .missed ⟨0, 0, "x", "m", 1, "x"⟩ ∈ (runAmong returning "main").2.world.history := by
    decide +kernel
  exact ⟨missed, ((Reached.import_binds .runAmong).2.2 _ missed).2⟩

/-- The import of a name that linking has found exported may end with a panic about the name. -/
theorem missed_of_returning :
    (runAmong returning "main").2.Reached ∧
      (∃ m ∈ ((runAmong returning "main").2.world.environment 0).forest.modules,
        m.name = "m" ∧ "x" ∈ m.exports) ∧
      .missed ⟨0, 0, "x", "m", 1, "x"⟩ ∈ (runAmong returning "main").2.world.history ∧
      panic? (runAmong returning "main").1 = some (.varNotFound "m::x") :=
  ⟨.runAmong, by decide +kernel, by decide +kernel, by decide +kernel⟩

end Engine

end ScriptEngine
