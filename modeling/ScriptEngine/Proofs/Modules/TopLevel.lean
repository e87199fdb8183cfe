import ScriptEngine.Proofs.Evaluation.Statements
import ScriptEngine.Proofs.Modules.Steps
import ScriptEngine.Proofs.Store.Matching

/-!
# The top level of a module

The statements of a module fill the frame that a task has made for it. Each of them finds the names
that it declares free, and leaves those of the statements behind it free.

* `World.MayImport`, `World.Fills`: what the top level of a module finds.
* `runs_hoist`, `runs_declarators`, `runs_importItems`: the steps that declare names.
* `Machine.TopLevel`: a machine that runs the top level of modules, and modules for those that import
  them.
* `runs_topStatement`, `runs_topBlock`: one step of it.
-/

namespace ScriptEngine

/-- A task may ask an environment for these items of a module: they are offered there, and the module
that the task runs there imports them. -/
structure World.MayImport (t : TaskId) (env : EnvId) (items : List ImportItem) (source : String)
    (w : World) : Prop where
  offers : (w.environment env).forest.Offers items source
  chain {count : Nat} {importer : String} {rest : List String} :
    w.standing t env = .owner count (importer :: rest) →
      (w.environment env).forest.Imports importer source

/-- A task has made a frame for a module that declares these names next, and has declared the others
before. -/
structure World.Fills (t : TaskId) (env : EnvId) (frame : FrameId) (body : Block)
    (names : List String) (w : World) : Prop where
  opened : w.Opened frame t
  distinct : names.Nodup
  free : ∀ name ∈ names, w.store.frames.localSlot? frame name = none
  covered : ∀ name ∈ body.declared, name ∈ names ∨ (w.store.frames.localSlot? frame name).isSome
  may : ∀ s ∈ body.statements, ∀ items source, s.import? = some (items, source) →
    w.MayImport t env items source

section

variable {t : TaskId} {env : EnvId} {frame : FrameId} {names : List String} {name : String}
  {items : List ImportItem} {source : String} {body : Block} {w w' : World}

theorem World.MayImport.stays (h : w.MayImport t env items source)
    (stays : w.Stays t ⟨none, none⟩ w') : w'.MayImport t env items source where
  offers := stays.continues.offers h.offers
  chain owner := stays.continues.imports (h.chain (stays.standing env nofun ▸ owner))

namespace World.Fills

theorem stays (h : w.Fills t env frame body names) (stays : w.Stays t ⟨none, none⟩ w') :
    w'.Fills t env frame body names := by
  have same (name : String) :
      w'.store.frames.localSlot? frame name = w.store.frames.localSlot? frame name := by
    have kept := stays.own frame h.opened (by simp)
    rw [Frames.localSlot?, kept, Frames.localSlot?]
  refine ⟨stays.continues.opened h.opened, h.distinct, fun name mem => ?_, fun name mem => ?_,
    fun s mem items source imports => (h.may s mem items source imports).stays stays⟩
  · rw [same]
    exact h.free name mem
  · rw [same]
    exact h.covered name mem

/-- When a name has got a slot, the others are still free. -/
theorem bindName (h : w.Fills t env frame body (name :: names))
    (root : w.store.frames.IsRoot frame) (slot : SlotId) :
    (w.bindName frame name slot).Fills t env frame body names := by
  have apart {other : String} (differs : other ≠ name) :
      (w.bindName frame name slot).store.frames.localSlot? frame other =
        w.store.frames.localSlot? frame other :=
    Frames.localSlot?_link.trans (if_neg fun same => differs same.2)
  obtain ⟨new, distinct⟩ := List.nodup_cons.mp h.distinct
  refine ⟨h.opened, distinct, fun other mem => ?_, fun other mem => ?_,
    fun s mem items source imports => ?_⟩
  · rw [apart fun same => new (same ▸ mem)]
    exact h.free other (List.mem_cons_of_mem _ mem)
  · by_cases same : other = name
    · subst same
      obtain ⟨f, found, -⟩ := root
      refine .inr (Option.isSome_iff_exists.mpr ⟨slot, Frames.localSlot?_link.trans ?_⟩)
      rw [if_pos ⟨rfl, rfl⟩, found, Option.map_some]
    · rw [apart same]
      exact (h.covered other mem).imp_left fun mem => (List.mem_cons.mp mem).resolve_left same
  · exact ⟨(h.may s mem items source imports).offers, (h.may s mem items source imports).chain⟩

/-- What is declared for the module has slots at the end. -/
theorem isSome (h : w.Fills t env frame body []) :
    ∀ name ∈ body.declared, (w.store.frames.localSlot? frame name).isSome :=
  fun name mem => (h.covered name mem).resolve_left List.not_mem_nil

end World.Fills

end

namespace Eval

variable {t : TaskId} {env : EnvId} {frame : FrameId} {body : Block} {names : List String}
  {m : Machine} {returns loop : Bool} {ends : Signal → Prop}

/-- What does not touch the frame of a module leaves all that lasts as it was. -/
theorem runs_of_follows {α : Type} {x : Eval α} {pre : World → Prop}
    (h : ∀ base, pre base → x.Follows (.modules t ⟨none, none⟩) env base (fun _ _ => True) ends)
    (keeps : ∀ {a b}, pre a → a.Stays t ⟨none, none⟩ b → pre b) :
    x.Runs (.modules t ⟨some frame, none⟩) env pre (fun _ => pre) ends :=
  ((Follows.runs h).frame (Discipline.weaker_modules ..) (·.slacken nofun nofun) keeps).imp
    (fun _ holds => holds) (fun _ _ after => after.2) fun _ within => within

/-- So the frame may be filled as before. -/
theorem fills_of_follows {α : Type} {x : Eval α}
    (h : ∀ base, x.Follows (.modules t ⟨none, none⟩) env base (fun _ _ => True) ends) :
    x.Runs (.modules t ⟨some frame, none⟩) env (World.Fills t env frame body names)
      (fun _ => World.Fills t env frame body names) ends :=
  runs_of_follows (fun base _ => h base) World.Fills.stays

/-! ## Names -/

theorem runs_declare {name : String} {value : Value} :
    (declare frame name value).Runs (.modules t ⟨some frame, none⟩) env
      (World.Fills t env frame body (name :: names))
      (fun _ => World.Fills t env frame body names) ends := by
  intro w sound fills
  have free := fills.free name List.mem_cons_self
  have steady := Discipline.steady_pushSlot w value
  have pushed : (w.pushSlot value).Fills t env frame body (name :: names) :=
    fills.stays (steady.stays sound.1)
  exact ⟨Discipline.leads_declare sound fills.opened rfl free value,
    pushed.bindName (sound.1.roots fills.opened) w.store.frames.slots.size⟩

theorem runs_declareAll {list : List (String × Value)} :
    (declareAll frame list).Runs (.modules t ⟨some frame, none⟩) env
      (World.Fills t env frame body (list.map (·.1) ++ names))
      (fun _ => World.Fills t env frame body names) ends := by
  induction list with
  | nil => exact .ret fun _ fills => fills
  | cons entry list ih => exact runs_declare.bind fun _ => ih

/-- The functions of a module get their names first. -/
theorem runs_hoist {list : List Stmt}
    (fits : ∀ s ∈ list, s.isImport = true ∨ s.Fits False .top) :
    (hoist frame list).Runs (.modules t ⟨some frame, none⟩) env
      (World.Fills t env frame body (list.flatMap (·.functionNames) ++ names))
      (fun _ => World.Fills t env frame body names) (Signal.Within true false) := by
  induction list with
  | nil => exact .ret fun _ fills => fills
  | cons s list ih =>
    obtain ⟨first, rest⟩ := List.forall_mem_cons.mp fits
    obtain ⟨position, kind⟩ := s
    have later := ih rest
    rw [hoist]
    cases kind with
    | function definition =>
      have first : definition.Fits False .top := first.resolve_left (by simp [Stmt.isImport])
      obtain ⟨name, params, body, position'⟩ := definition
      cases name with
      | none => exact later
      | some name =>
        refine (fills_of_follows fun _ => tame_closure first (.top trivial)).bind fun _ => ?_
        exact runs_declare.bind fun _ => later
    | _ => exact later

omit t m body names returns loop ends in
/-- A pattern is matched against a value first. -/
theorem declarePattern_eq {pattern : Pattern} {value : Value} :
    declarePattern frame pattern value env w =
      (match w.store.bindPattern pattern value with
        | some list => declareAll frame list
        | none => mismatch pattern value : Eval Unit) env w := rfl

/-- The names of a pattern get the parts of a value. -/
theorem runs_declarePattern {pattern : Pattern} {value : Value} :
    (declarePattern frame pattern value).Runs (.modules t ⟨some frame, none⟩) env
      (World.Fills t env frame body (pattern.bindings ++ names))
      (fun _ => World.Fills t env frame body names) (Signal.Within true false) := by
  intro w sound fills
  rw [declarePattern_eq]
  cases bound : w.store.bindPattern pattern value with
  | some list =>
    rw [← w.store.names_bindPattern bound] at fills
    exact runs_declareAll w sound fills
  | none => exact ⟨.refl sound, trivial⟩

/-- Values are declared in order. -/
theorem runs_declarators (tame : m.Tame (.modules t ⟨none, none⟩)) {list : List Declarator}
    (fits : Declarator.FitAll False .top list) :
    (declarators m frame list).Runs (.modules t ⟨some frame, none⟩) env
      (World.Fills t env frame body (list.flatMap (·.target.bindings) ++ names))
      (fun _ => World.Fills t env frame body names) (Signal.Within true false) := by
  induction list with
  | nil => exact .ret fun _ fills => fills
  | cons declarator list ih =>
    obtain ⟨target, value, position⟩ := declarator
    obtain ⟨first, rest⟩ := fits
    rw [List.flatMap_cons, List.append_assoc]
    have declared (value : Value) :
        (do declarePattern frame target value; declarators m frame list : Eval Unit).Runs
          (.modules t ⟨some frame, none⟩) env (World.Fills t env frame body _)
          (fun _ => World.Fills t env frame body names) (Signal.Within true false) :=
      runs_declarePattern.bind fun _ => ih rest
    cases value with
    | some value =>
      have first : value.Fits False .top := first
      exact (fills_of_follows fun _ => (tame_eval tame first (.top trivial)).returning).bind declared
    | none => exact (Runs.ret fun _ fills => fills).bind declared

/-! ## Imports -/

omit t m body names returns loop ends in
/-- An item is imported if the exporter has its name. -/
theorem importItems_cons {exporter : FrameId} {source : String} {item : ImportItem}
    {items : List ImportItem} {w : World} :
    importItems frame exporter source (item :: items) env w =
      match w.store.frames.localSlot? exporter item.name with
      | some slot => importItems frame exporter source items env
          (w.link ⟨env, frame, item.localName, source, exporter, item.name⟩ slot)
      | none => .stopped (.signal (.panic (.varNotFound (source ++ "::" ++ item.name))))
          (w.record (.missed ⟨env, frame, item.localName, source, exporter, item.name⟩)) := by
  rw [importItems, bind_eq]
  change ((ask _ >>= _) env w : Progress Unit) = _
  rw [bind_eq, ask, Progress.bind]
  cases w.store.frames.localSlot? exporter item.name <;> rfl

/-- The names of an item and of what it stands for may share a slot. -/
theorem leads_link (link : Link) {slot : SlotId} {w : World}
    (sound : (Discipline.modules t ⟨some link.importer, none⟩).sound w)
    (fills : w.Fills t link.env link.importer body (link.name :: names))
    (done : (link.source, link.exporter) ∈ completed link.env w.history)
    (bound : w.store.frames.localSlot? link.exporter link.exported = some slot) :
    (Discipline.modules t ⟨some link.importer, none⟩).Leads w (w.link link slot) ∧
      (w.link link slot).Fills t link.env link.importer body names := by
  have root := sound.1.roots fills.opened
  have named := Discipline.leads_bindName sound fills.opened rfl
    (fills.free link.name List.mem_cons_self) (sound.1.bounded _ _ _ bound)
  have shares : (w.bindName link.importer link.name slot).Shares link := by
    obtain ⟨f, importer, -⟩ := root
    obtain ⟨f', exporter, -⟩ := Option.bind_eq_some_iff.mp bound
    refine ⟨slot, Frames.localSlot?_link.trans ?_, Frames.localSlot?_link.trans ?_⟩
    · rw [if_pos ⟨rfl, rfl⟩, importer, Option.map_some]
    · rw [exporter, Option.map_some, bound, ite_self]
  have recorded (x : Slack) :
      (Discipline.modules t x).Leads (w.bindName link.importer link.name slot) (w.link link slot) :=
    Discipline.leads_record named.sound ⟨⟨t, fills.opened⟩, done⟩ (fun _ => rfl) (fun _ => rfl)
      (fun _ _ no => by cases no) fun _ same => by cases same; exact shares
  exact ⟨named.trans (recorded _), (fills.bindName root slot).stays (recorded ⟨none, none⟩).later⟩

omit t frame body names m returns loop ends in
/-- If an item that is offered has no slot, a return has left the module. -/
theorem left_of_unbound {exporter : FrameId} {source : String} {items : List ImportItem}
    {item : ImportItem} {w : World} (modular : w.Modular)
    (offers : (w.environment env).forest.Offers items source)
    (done : (source, exporter) ∈ completed env w.history) (mem : item ∈ items)
    (unbound : w.store.frames.localSlot? exporter item.name = none) :
    .left exporter ∈ w.history := by
  by_contra whole
  obtain ⟨found, there, declared⟩ := offers
  have bound := modular.filled done whole found there _ (declared item mem)
  rw [unbound] at bound
  cases bound

/-- What is imported shares its slot with what was exported. -/
theorem runs_importItems {exporter : FrameId} {source : String} {items all : List ImportItem}
    (among : items ⊆ all) :
    (importItems frame exporter source items).Runs (.modules t ⟨some frame, none⟩) env
      (fun w => w.Fills t env frame body (items.map (·.localName) ++ names) ∧
        (source, exporter) ∈ completed env w.history ∧
        (w.environment env).forest.Offers all source)
      (fun _ => World.Fills t env frame body names) (Signal.Within true false) := by
  induction items with
  | nil => exact .ret fun _ fills => fills.1
  | cons item items ih =>
    rintro w sound ⟨fills, done, offers⟩
    let link : Link := ⟨env, frame, item.localName, source, exporter, item.name⟩
    rw [importItems_cons]
    cases bound : w.store.frames.localSlot? exporter item.name with
    | none =>
      have left := left_of_unbound sound.1 offers done (among List.mem_cons_self) bound
      have missed :
          (Discipline.modules t ⟨some frame, none⟩).Leads w (w.record (.missed link)) :=
        Discipline.leads_record sound ⟨done, left⟩ (fun _ => rfl) (fun _ => rfl)
          (fun _ _ no => by cases no) fun _ no => by cases no
      exact ⟨missed, trivial⟩
    | some slot =>
      obtain ⟨leads, rest⟩ : _ ∧
          (w.link link slot).Fills t env frame body (items.map (·.localName) ++ names) :=
        leads_link link sound fills done bound
      have done : (source, exporter) ∈ completed env (w.link link slot).history := done
      have later := ih (fun _ mem => among (List.mem_cons_of_mem _ mem)) _ leads.sound
        ⟨rest, done, offers⟩
      exact later.rebase leads.later leads.yields

end Eval

/-! ## Statements -/

/-- A machine runs statements at the top level of modules so that each of them declares its names,
and modules for those that import them so that they are initialised. -/
structure Machine.TopLevel (t : TaskId) (m : Machine) : Prop where
  stmt {env frame body names s} : (s.isImport = true ∨ s.Fits False .top) → s ∈ body.statements →
    (m.run (.stmt s frame)).Runs (.modules t ⟨some frame, none⟩) env
      (World.Fills t env frame body (s.names ++ names))
      (fun _ => World.Fills t env frame body names) (Signal.Within true false)
  block {env frame body} : body.TopLevel →
    (m.run (.block body frame)).Runs (.modules t ⟨some frame, none⟩) env
      (World.Fills t env frame body (Stmt.allNames body.statements))
      (fun _ => World.Fills t env frame body []) (Signal.Within true false)
  module {env items source} : (m.run (.module source)).Runs (.modules t ⟨none, none⟩) env
    (World.MayImport t env items source)
    (fun exporter w => (source, exporter) ∈ completed env w.history) (Signal.Within false false)

namespace Eval

variable {t : TaskId} {env : EnvId} {frame : FrameId} {body : Block} {names : List String}
  {m : Machine}

/-- A statement at the top level declares its names, and leaves the others free. -/
theorem runs_topStatement (tame : m.Tame (.modules t ⟨none, none⟩)) (top : m.TopLevel t) {s : Stmt}
    (fits : s.isImport = true ∨ s.Fits False .top) (among : s ∈ body.statements) :
    (statement m s frame).Runs (.modules t ⟨some frame, none⟩) env
      (World.Fills t env frame body (s.names ++ names))
      (fun _ => World.Fills t env frame body names) (Signal.Within true false) := by
  obtain ⟨position, kind⟩ := s
  cases kind with
  | declare word list => exact runs_declarators tame (fits.resolve_left nofun)
  | function definition => exact .ret fun _ fills => fills
  | importFrom items source =>
    have may {w : World} (fills : w.Fills t env frame body (items.map (·.localName) ++ names)) :
        w.MayImport t env items source := fills.may _ among items source rfl
    have initialised : (m.run (.module source)).Runs (.modules t ⟨none, none⟩) env
        (World.Fills t env frame body (items.map (·.localName) ++ names))
        (fun exporter w => (source, exporter) ∈ completed env w.history)
        (Signal.Within true false) :=
      top.module.imp (fun _ => may) (fun _ _ done => done) fun _ within => within.imp nofun nofun
    have kept := initialised.frame (Discipline.weaker_modules t ⟨none, none⟩ ⟨some frame, none⟩)
      (·.slacken nofun nofun) World.Fills.stays
    exact kept.bind fun exporter => (runs_importItems fun _ mem => mem).imp
      (fun _ both => ⟨both.2, both.1, (may both.2).offers⟩)
      (fun _ _ fills => fills) fun _ within => within
  | namespaceBlock name inner =>
    have fits : inner.Fits False .top := fits.resolve_left nofun
    have made : (childFrame frame).Runs (.modules t ⟨none, none⟩) env
        (World.Fills t env frame body (name :: names))
        (fun inside w => w.store.frames.IsChild inside) (Signal.Within true false) :=
      Follows.runs fun _ _ => (follows_childFrame (.top trivial)).imp
        (fun _ _ both => both.2) fun _ within => within
    have kept := made.frame (Discipline.weaker_modules t ⟨none, none⟩ ⟨some frame, none⟩)
      (·.slacken nofun nofun) World.Fills.stays
    refine kept.bind fun inside => Runs.bind (runs_of_follows (fun base both => ?_) ?_) fun _ =>
      runs_declare.imp (fun _ both => both.2) (fun _ _ fills => fills) fun _ within => within
    · exact Tame.boundary (tame.block fits (.top trivial) fun _ => both.1)
    · exact fun both stays => ⟨stays.continues.frames.isChild both.1, both.2.stays stays⟩
  | exportNames names => exact .ret fun _ fills => fills
  | _ => exact fills_of_follows fun _ => tame_statement tame (fits.resolve_left nofun) (.top trivial) nofun

/-- The statements of a module declare their names one after another. -/
theorem runs_topStatements {α : Type} (top : m.TopLevel t) {last : Expr → Eval α} {without : α}
    (h : ∀ e : Expr, e.Fits False .top → ∀ base,
      (last e).Tame (.modules t ⟨none, none⟩) env base true false) {list : List Stmt}
    (fits : ∀ s ∈ list, s.isImport = true ∨ s.Fits False .top) (among : list ⊆ body.statements) :
    (statements m frame last without list).Runs (.modules t ⟨some frame, none⟩) env
      (World.Fills t env frame body (list.flatMap (·.names)))
      (fun _ => World.Fills t env frame body []) (Signal.Within true false) := by
  induction list with
  | nil => exact .ret fun _ fills => fills
  | cons s list ih =>
    obtain ⟨first, rest⟩ := List.forall_mem_cons.mp fits
    obtain ⟨mem, among⟩ := List.cons_subset.mp among
    unfold statements
    split
    · next no => cases no
    · next same =>
      cases same
      exact fills_of_follows (h _ (first.resolve_left nofun))
    · next same =>
      cases same
      exact (top.stmt first mem).bind fun _ => ih rest among

/-- The body of a module declares its names, functions first. -/
theorem runs_topBlock (tame : m.Tame (.modules t ⟨none, none⟩)) (top : m.TopLevel t)
    (fits : body.TopLevel) :
    (block m body frame).Runs (.modules t ⟨some frame, none⟩) env
      (World.Fills t env frame body (Stmt.allNames body.statements))
      (fun _ => World.Fills t env frame body []) (Signal.Within true false) :=
  (runs_hoist fits.fits).bind fun _ => runs_topStatements top
    (fun _ fits _ => (tame_eval tame fits (.top trivial)).returning) fits.fits fun _ mem => mem

end Eval

end ScriptEngine
