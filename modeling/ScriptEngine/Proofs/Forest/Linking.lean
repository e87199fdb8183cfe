import Mathlib.Data.List.Chain
import Mathlib.Data.List.Infix
import Mathlib.Data.List.Nodup
import Mathlib.Data.List.Perm.Subperm
import Mathlib.Data.List.TakeWhile
import Mathlib.Logic.Relation
import ScriptEngine.Forest.Image
import ScriptEngine.Proofs.Analysis.Acceptance
import ScriptEngine.Proofs.Forest.Registration

/-!
# Linking is sound and complete

The search for a circle keeps a list of finished modules. `Ordered` is its invariant: whatever a
module imports stands further back in the list, so nothing in it imports itself through others. The
way that a search has come is a chain of imports (`WayTo`), which closes to a circle when it meets
one of its own modules.

* `follow_ok`, `follow_error`: what one search leaves finished, and the circle it stops with.
* `cycle?_eq_none_iff`, `circle_of_cycle?`: the same of the searches from all modules.
* `ForestBuilder.finish_spec`: when the modules of a builder fit together.
* `ForestImage.restore_eq_ok_iff`: what restoring from an image comes to.
-/

namespace ScriptEngine.Forest

/-! ## The graph of imports -/

/-- A module of the first name imports from one of the second. -/
def Imports (f : Forest) (importer source : String) : Prop :=
  ∃ m ∈ f.modules, m.name = importer ∧ source ∈ m.sources

/-- Each name in a list imports the next one, and the last name is the first one again. -/
structure Circle (f : Forest) (path : List String) : Prop where
  two_le_length : 2 ≤ path.length
  closed : path.head? = path.getLast?
  chain : path.IsChain f.Imports

/-- Whether a module of this name is there. -/
def Has (f : Forest) (name : String) : Prop := ∃ m ∈ f.modules, m.name = name

variable {f : Forest}

theorem has_of_imports {a b : String} (h : f.Imports a b) : f.Has a := by
  obtain ⟨m, mem, named, -⟩ := h
  exact ⟨m, mem, named⟩

theorem module?_eq_none_iff {name : String} : f.module? name = none ↔ ¬ f.Has name := by
  simp [module?, Has]

theorem mem_of_module? {name : String} {m : AnalysedModule} (h : f.module? name = some m) :
    m ∈ f.modules ∧ m.name = name := by
  refine ⟨List.mem_of_find?_eq_some h, ?_⟩
  simpa using List.find?_some h

/-- The module of a name is the only one of that name. -/
theorem eq_of_module? {name : String} {m n : AnalysedModule}
    (distinct : (f.modules.map (·.name)).Nodup) (found : f.module? name = some m)
    (mem : n ∈ f.modules) (named : n.name = name) : n = m := by
  obtain ⟨mem', named'⟩ := mem_of_module? found
  exact List.inj_on_of_nodup_map distinct mem mem' (named.trans named'.symm)

theorem mem_sources_iff {name source : String} {m : AnalysedModule}
    (distinct : (f.modules.map (·.name)).Nodup) (found : f.module? name = some m) :
    source ∈ m.sources ↔ f.Imports name source := by
  obtain ⟨mem, named⟩ := mem_of_module? found
  constructor
  · intro h
    exact ⟨m, mem, named, h⟩
  · rintro ⟨n, nmem, nnamed, h⟩
    rwa [eq_of_module? distinct found nmem nnamed] at h

/-- A circle leads from a module back to itself. -/
theorem Circle.transGen {path : List String} (h : f.Circle path) :
    ∃ name, Relation.TransGen f.Imports name name := by
  obtain ⟨long, closed, chain⟩ := h
  match path with
  | a :: b :: rest =>
    refine ⟨a, ?_⟩
    obtain ⟨first, chain⟩ := List.isChain_cons_cons.mp chain
    have last : (b :: rest).getLast (by simp) = a := by
      rw [List.head?_cons, List.getLast?_cons_cons, List.getLast?_eq_some_getLast (by simp)]
        at closed
      exact (Option.some.inj closed).symm
    have back : Relation.ReflTransGen f.Imports b a := by
      have := List.relationReflTransGen_of_exists_isChain_cons rest chain last
      exact this
    exact Relation.TransGen.head' first back

/-! ## Finished modules -/

/-- Whatever a module in the list imports stands behind it in the list, as far as it is there. -/
inductive Ordered (f : Forest) : List String → Prop
  | nil : Ordered f []
  | cons {name : String} {finished : List String} :
    (∀ source, f.Imports name source → f.Has source → source ∈ finished) → name ∉ finished →
      Ordered f finished → Ordered f (name :: finished)

/-- Nothing leads out of an ordered list but to modules that are not there. -/
theorem Ordered.mem_of_imports {finished : List String} (h : Ordered f finished) {a b : String}
    (mem : a ∈ finished) (step : f.Imports a b) (there : f.Has b) : b ∈ finished := by
  induction h with
  | nil => simp at mem
  | cons sources _ _ ih =>
    rcases List.mem_cons.mp mem with rfl | mem
    · exact List.mem_cons_of_mem _ (sources b step there)
    · exact List.mem_cons_of_mem _ (ih mem)

theorem Ordered.mem_of_reflTransGen {finished : List String} (h : Ordered f finished)
    {a b : String} (way : Relation.ReflTransGen f.Imports a b) (there : f.Has b)
    (mem : a ∈ finished) : b ∈ finished := by
  induction way using Relation.ReflTransGen.head_induction_on with
  | refl => exact mem
  | head step rest ih =>
    refine ih (h.mem_of_imports mem step ?_)
    rcases Relation.ReflTransGen.cases_head rest with rfl | ⟨_, next, -⟩
    · exact there
    · exact has_of_imports next

/-- No module in an ordered list leads back to itself. -/
theorem Ordered.not_transGen {finished : List String} (h : Ordered f finished) {name : String}
    (mem : name ∈ finished) : ¬ Relation.TransGen f.Imports name name := by
  induction h with
  | nil => simp at mem
  | @cons first finished sources fresh ordered ih =>
    rcases List.mem_cons.mp mem with rfl | mem
    · intro way
      obtain ⟨next, step, rest⟩ := Relation.TransGen.head'_iff.mp way
      have there : f.Has name := has_of_imports step
      have nextThere : f.Has next := by
        rcases Relation.ReflTransGen.cases_head rest with rfl | ⟨_, onward, -⟩
        · exact there
        · exact has_of_imports onward
      exact fresh (ordered.mem_of_reflTransGen rest there (sources next step nextThere))
    · exact ih mem

/-! ## One search -/

section Folds

variable {α β ε : Type} {step : β → α → Except ε β}

theorem exists_of_foldlM_error {e : ε} {items : List α} {start : β}
    (h : items.foldlM step start = .error e) :
    ∃ item ∈ items, ∃ value, step value item = .error e := by
  induction items generalizing start with
  | nil => cases h
  | cons item items ih =>
    rw [List.foldlM_cons] at h
    cases now : step start item with
    | error e' =>
      rw [now] at h
      obtain rfl : e' = e := Except.error.inj h
      exact ⟨item, List.mem_cons_self, start, now⟩
    | ok value =>
      rw [now] at h
      obtain ⟨item', mem, value', later⟩ := ih h
      exact ⟨item', List.mem_cons_of_mem _ mem, value', later⟩

end Folds

/-- Each module on a way imports the next one, the last one imports the name that is followed, and
the modules of the way are there and all different. -/
structure WayTo (f : Forest) (path : List String) (name : String) : Prop where
  chain : (path ++ [name]).IsChain f.Imports
  nodup : path.Nodup
  there : ∀ x ∈ path, f.Has x

theorem WayTo.start (name : String) : f.WayTo [] name :=
  ⟨List.isChain_singleton name, List.nodup_nil, by simp⟩

theorem WayTo.step {path : List String} {name source : String} (way : f.WayTo path name)
    (fresh : name ∉ path) (onward : f.Imports name source) : f.WayTo (path ++ [name]) source where
  chain := by
    refine List.IsChain.append way.chain (List.isChain_singleton source) ?_
    intro a last b first
    simp only [List.getLast?_concat, Option.mem_some_iff] at last
    simp only [List.head?_cons, Option.mem_some_iff] at first
    exact last ▸ first ▸ onward
  nodup := way.nodup.append (List.nodup_singleton name) (by simpa using fresh)
  there := by
    intro x mem
    rcases List.mem_append.mp mem with mem | mem
    · exact way.there x mem
    · rw [List.mem_singleton.mp mem]
      exact has_of_imports onward

/-- A way has no more modules than there are, and fewer if one is there that it does not pass. -/
theorem WayTo.length_lt {path : List String} {name : String} (way : f.WayTo path name)
    (there : f.Has name) (fresh : name ∉ path) : path.length < f.modules.length := by
  have nodup : (name :: path).Nodup := List.nodup_cons.mpr ⟨fresh, way.nodup⟩
  have subset : name :: path ⊆ f.modules.map (·.name) := by
    intro x mem
    have : f.Has x := by
      rcases List.mem_cons.mp mem with rfl | mem
      · exact there
      · exact way.there x mem
    obtain ⟨m, mem, named⟩ := this
    exact List.mem_map.mpr ⟨m, mem, named⟩
  have := (nodup.subperm subset).length_le
  simp only [List.length_cons, List.length_map] at this
  omega

/-- A way that comes back to one of its modules has gone round a circle. -/
theorem WayTo.circle {path : List String} {name : String} (way : f.WayTo path name)
    (mem : name ∈ path) : f.Circle (path.dropWhile (· != name) ++ [name]) := by
  have rest : path.dropWhile (· != name) ≠ [] := by
    intro empty
    have := List.dropWhile_eq_nil_iff.mp empty name mem
    simp at this
  have first : (path.dropWhile (· != name)).head? = some name := by
    rw [List.head?_eq_some_head rest]
    have := List.head_dropWhile_not (· != name) rest
    simpa using this
  refine ⟨?_, ?_, ?_⟩
  · have := List.length_pos_iff.mpr rest
    simp only [List.length_append, List.length_singleton]
    omega
  · rw [List.head?_append, first, List.getLast?_concat]
    rfl
  · refine way.chain.suffix ?_
    obtain ⟨before, whole⟩ := List.dropWhile_suffix (l := path) (· != name)
    exact ⟨before, by rw [← List.append_assoc, whole]⟩

/-- What the search from some names leaves finished. -/
structure Finishes (f : Forest) (path names finished after : List String) : Prop where
  ordered : Ordered f after
  subset : finished ⊆ after
  /-- No module on the way is finished meanwhile. -/
  apart : ∀ x ∈ path, x ∈ after → x ∈ finished
  done : ∀ name ∈ names, f.Has name → name ∈ after

theorem Finishes.none {path finished : List String} (ordered : Ordered f finished) :
    f.Finishes path [] finished finished :=
  ⟨ordered, List.Subset.refl _, fun _ _ mem => mem, by simp⟩

theorem Finishes.trans {path names names' first second third : List String}
    (h : f.Finishes path names first second) (h' : f.Finishes path names' second third) :
    f.Finishes path (names ++ names') first third where
  ordered := h'.ordered
  subset := List.Subset.trans h.subset h'.subset
  apart := fun x mem last => h.apart x mem (h'.apart x mem last)
  done := by
    intro name mem there
    rcases List.mem_append.mp mem with mem | mem
    · exact h'.subset (h.done name mem there)
    · exact h'.done name mem there

theorem Finishes.finished {path finished : List String} {name : String} (ordered : Ordered f finished)
    (mem : name ∈ finished) : f.Finishes path [name] finished finished :=
  ⟨ordered, List.Subset.refl _, fun _ _ mem => mem, by simpa using fun _ => mem⟩

theorem Finishes.missing {path finished : List String} {name : String} (ordered : Ordered f finished)
    (missing : ¬ f.Has name) : f.Finishes path [name] finished finished :=
  ⟨ordered, List.Subset.refl _, fun _ _ mem => mem, by simpa using fun there => absurd there missing⟩

/-- If following each of some names finishes it, following them one after another finishes all. -/
theorem Finishes.foldlM {path names finished after : List String}
    {follow : List String → String → Except (List String) (List String)}
    (each : ∀ name ∈ names, ∀ {before later : List String}, Ordered f before →
      follow before name = .ok later → f.Finishes path [name] before later)
    (ordered : Ordered f finished) (h : names.foldlM follow finished = .ok after) :
    f.Finishes path names finished after := by
  induction names generalizing finished with
  | nil =>
    obtain rfl : finished = after := Except.ok.inj h
    exact .none ordered
  | cons name names ih =>
    rw [List.foldlM_cons] at h
    cases now : follow finished name with
    | error e => rw [now] at h; cases h
    | ok middle =>
      rw [now] at h
      have first := each name List.mem_cons_self ordered now
      have rest := ih (fun other mem => each other (List.mem_cons_of_mem _ mem)) first.ordered h
      exact first.trans rest

/-! Each outcome of a search by its cause. -/

section Outcomes

variable {fuel : Nat} {path finished : List String} {name : String}

theorem follow_of_mem_finished (mem : name ∈ finished) :
    f.follow fuel path finished name = .ok finished := by
  unfold follow
  simp [mem]

theorem follow_of_mem_path (open' : name ∉ finished) (mem : name ∈ path) :
    f.follow fuel path finished name = .error (path.dropWhile (· != name) ++ [name]) := by
  unfold follow
  simp [open', mem]

theorem follow_zero (open' : name ∉ finished) (fresh : name ∉ path) :
    f.follow 0 path finished name = .ok finished := by
  unfold follow
  simp [open', fresh]

theorem follow_of_missing (open' : name ∉ finished) (fresh : name ∉ path)
    (missing : f.module? name = none) : f.follow fuel path finished name = .ok finished := by
  unfold follow
  cases fuel <;> simp [open', fresh, missing]

theorem follow_of_found {m : AnalysedModule} (open' : name ∉ finished) (fresh : name ∉ path)
    (found : f.module? name = some m) :
    f.follow (fuel + 1) path finished name =
      (m.sources.foldlM (f.follow fuel (path ++ [name])) finished).map (name :: ·) := by
  rw [follow.eq_def]
  simp only [List.contains_eq_mem, open', fresh, found, decide_false, Bool.false_eq_true, if_false]
  cases m.sources.foldlM (f.follow fuel (path ++ [name])) finished <;> rfl

end Outcomes

/-- A finished module is ordered before what it has led to. -/
theorem Finishes.finish {path finished inner : List String} {name : String} {m : AnalysedModule}
    (distinct : (f.modules.map (·.name)).Nodup) (found : f.module? name = some m)
    (open' : name ∉ finished) (fresh : name ∉ path)
    (all : f.Finishes (path ++ [name]) m.sources finished inner) :
    f.Finishes path [name] finished (name :: inner) where
  ordered := by
    refine .cons (fun source onward there => ?_) (fun mem => ?_) all.ordered
    · exact all.done source ((mem_sources_iff distinct found).mpr onward) there
    · exact open' (all.apart name (by simp) mem)
  subset := List.subset_cons_of_subset name all.subset
  apart := by
    intro x mem last
    rcases List.mem_cons.mp last with rfl | last
    · exact absurd mem fresh
    · exact all.apart x (List.mem_append_left _ mem) last
  done := by
    intro other mem _
    exact List.mem_singleton.mp mem ▸ List.mem_cons_self

/-- A search that meets no circle finishes the module it starts from. The fuel lasts: the way never
passes a module twice. -/
theorem follow_ok {fuel : Nat} {path finished after : List String} {name : String}
    (distinct : (f.modules.map (·.name)).Nodup) (way : f.WayTo path name)
    (enough : f.modules.length ≤ path.length + fuel) (ordered : Ordered f finished)
    (h : f.follow fuel path finished name = .ok after) :
    f.Finishes path [name] finished after := by
  induction fuel generalizing path finished after name with
  | zero =>
    by_cases closed : name ∈ finished
    · rw [follow_of_mem_finished closed] at h
      exact Except.ok.inj h ▸ .finished ordered closed
    by_cases passed : name ∈ path
    · rw [follow_of_mem_path closed passed] at h
      cases h
    rw [follow_zero closed passed] at h
    -- The way has come through every module there is, so this one is none of them.
    refine Except.ok.inj h ▸ .missing ordered fun there => ?_
    have := way.length_lt there passed
    omega
  | succ fuel ih =>
    by_cases closed : name ∈ finished
    · rw [follow_of_mem_finished closed] at h
      exact Except.ok.inj h ▸ .finished ordered closed
    by_cases passed : name ∈ path
    · rw [follow_of_mem_path closed passed] at h
      cases h
    cases found : f.module? name with
    | none =>
      rw [follow_of_missing closed passed found] at h
      exact Except.ok.inj h ▸ .missing ordered (module?_eq_none_iff.mp found)
    | some m =>
      rw [follow_of_found closed passed found] at h
      cases sources : m.sources.foldlM (f.follow fuel (path ++ [name])) finished with
      | error e => rw [sources] at h; cases h
      | ok inner =>
        rw [sources] at h
        obtain rfl : name :: inner = after := Except.ok.inj h
        refine .finish distinct found closed passed (.foldlM ?_ ordered sources)
        intro source mem before later ordered now
        refine ih (way.step passed ((mem_sources_iff distinct found).mp mem)) ?_ ordered now
        simp only [List.length_append, List.length_singleton]
        omega

/-- A search that stops has come round a circle. -/
theorem follow_error {fuel : Nat} {path finished circle : List String} {name : String}
    (distinct : (f.modules.map (·.name)).Nodup) (way : f.WayTo path name)
    (h : f.follow fuel path finished name = .error circle) : f.Circle circle := by
  induction fuel generalizing path finished name with
  | zero =>
    by_cases closed : name ∈ finished
    · rw [follow_of_mem_finished closed] at h
      cases h
    by_cases passed : name ∈ path
    · rw [follow_of_mem_path closed passed] at h
      exact Except.error.inj h ▸ way.circle passed
    rw [follow_zero closed passed] at h
    cases h
  | succ fuel ih =>
    by_cases closed : name ∈ finished
    · rw [follow_of_mem_finished closed] at h
      cases h
    by_cases passed : name ∈ path
    · rw [follow_of_mem_path closed passed] at h
      exact Except.error.inj h ▸ way.circle passed
    cases found : f.module? name with
    | none =>
      rw [follow_of_missing closed passed found] at h
      cases h
    | some m =>
      rw [follow_of_found closed passed found] at h
      cases sources : m.sources.foldlM (f.follow fuel (path ++ [name])) finished with
      | ok inner => rw [sources] at h; cases h
      | error e =>
        rw [sources] at h
        obtain rfl : e = circle := Except.error.inj h
        obtain ⟨source, mem, _, now⟩ := exists_of_foldlM_error sources
        exact ih (way.step passed ((mem_sources_iff distinct found).mp mem)) now

/-! ## All searches -/

/-- The searches from all modules meet a circle if there is one. -/
theorem cycle?_eq_none_iff (distinct : (f.modules.map (·.name)).Nodup) :
    f.cycle? = none ↔ ∀ name, ¬ Relation.TransGen f.Imports name name := by
  unfold cycle?
  cases searches : f.modules.foldlM
      (fun finished m => f.follow f.modules.length [] finished m.name) [] with
  | ok after =>
    refine iff_of_true rfl fun name round => ?_
    have searches' : (f.modules.map (·.name)).foldlM (f.follow f.modules.length []) [] =
        .ok after := by
      rwa [List.foldlM_map]
    have all : f.Finishes [] (f.modules.map (·.name)) [] after := by
      refine .foldlM (fun name _ before later ordered now => ?_) .nil searches'
      exact follow_ok distinct (.start name) (by simp) ordered now
    obtain ⟨_, step, -⟩ := Relation.TransGen.head'_iff.mp round
    obtain ⟨m, mem, named⟩ := has_of_imports step
    have done := all.done name (named ▸ List.mem_map_of_mem mem) ⟨m, mem, named⟩
    exact all.ordered.not_transGen done round
  | error circle =>
    refine iff_of_false (by simp) fun none => ?_
    obtain ⟨m, _, _, now⟩ := exists_of_foldlM_error searches
    obtain ⟨name, round⟩ := (follow_error distinct (.start m.name) now).transGen
    exact none name round

/-- The circle that the searches meet is one. -/
theorem circle_of_cycle? {path : List String} (distinct : (f.modules.map (·.name)).Nodup)
    (h : f.cycle? = some path) : f.Circle path := by
  unfold cycle? at h
  split at h
  next => cases h
  next circle searches =>
    obtain rfl : circle = path := Option.some.inj h
    obtain ⟨m, _, _, now⟩ := exists_of_foldlM_error searches
    exact follow_error distinct (.start m.name) now

/-! ## Linking -/

/-- Every exported name is found at the top level of its module. -/
def ExportsFound (f : Forest) : Prop :=
  ∀ m ∈ f.modules, ∀ name ∈ m.exports, m.analysis.declares name = true

/-- Every exported name is one that the top level of its module declares. -/
def ExportsDeclared (f : Forest) : Prop :=
  ∀ m ∈ f.modules, ∀ name ∈ m.exports, name ∈ m.tree.body.declared

/-- Every import names a module that is there, and only names which that one exports. -/
def ImportsMet (f : Forest) : Prop :=
  ∀ m ∈ f.modules, ∀ items source position, (items, source, position) ∈ m.tree.imports →
    ∃ exporter ∈ f.modules, exporter.name = source ∧
      ∀ item ∈ items, item.name ∈ exporter.exports

/-- No module imports itself, be it through others. -/
def Acyclic (f : Forest) : Prop :=
  ∀ name, ¬ Relation.TransGen f.Imports name name

theorem undeclaredExports_eq_none_iff :
    f.modules.findSome? undeclaredExport? = none ↔ f.ExportsFound := by
  simp [undeclaredExport?, ExportsFound, AnalysedModule.exports]

/-- An analysis finds at the top level what stands there. -/
theorem exportsFound_iff
    (analysed : ∀ m ∈ f.modules, ∃ names strict, m.tree.analyze names strict = .ok m.analysis) :
    f.ExportsFound ↔ f.ExportsDeclared := by
  refine forall₂_congr fun m mem => forall₂_congr fun name _ => ?_
  obtain ⟨names, strict, found⟩ := analysed m mem
  exact Module.declares_iff found

theorem unmetImports_eq_none_iff (distinct : (f.modules.map (·.name)).Nodup) :
    f.modules.findSome? f.unmetImport? = none ↔ f.ImportsMet := by
  rw [List.findSome?_eq_none_iff]
  refine forall₂_congr fun m _ => ?_
  rw [unmetImport?, List.findSome?_eq_none_iff]
  constructor
  · intro met items source position mem
    have met := met _ mem
    cases found : f.module? source with
    | none => simp [found] at met
    | some exporter =>
      obtain ⟨there, named⟩ := mem_of_module? found
      refine ⟨exporter, there, named, fun item itemMem => ?_⟩
      simp only [found, List.findSome?_eq_none_iff] at met
      simpa using met item itemMem
  · rintro met ⟨items, source, position⟩ mem
    obtain ⟨exporter, there, named, exported⟩ := met items source position mem
    cases found : f.module? source with
    | none => exact absurd ⟨exporter, there, named⟩ (module?_eq_none_iff.mp found)
    | some other =>
      obtain rfl := eq_of_module? distinct found there named
      simp only [found, List.findSome?_eq_none_iff]
      intro item itemMem
      simpa using exported item itemMem

/-- The error of a linked forest is none exactly if its modules fit together. -/
theorem fault?_eq_none_iff (distinct : (f.modules.map (·.name)).Nodup) :
    f.fault? = none ↔ f.ExportsFound ∧ f.ImportsMet ∧ f.Acyclic := by
  rw [← undeclaredExports_eq_none_iff, ← unmetImports_eq_none_iff distinct, Acyclic,
    ← cycle?_eq_none_iff distinct]
  unfold fault?
  cases f.modules.findSome? undeclaredExport? <;>
    cases f.modules.findSome? f.unmetImport? <;> simp

/-- A module that imports and exports nothing links alone. -/
theorem fault?_of_alone {m : AnalysedModule} (imports : m.tree.imports = [])
    (exports : m.tree.exports = []) (bindings : Bindings) : Forest.fault? ⟨[m], bindings⟩ = none := by
  have noSources : m.sources = [] := by rw [AnalysedModule.sources, imports]; rfl
  refine (fault?_eq_none_iff (f := ⟨[m], bindings⟩)
    (List.nodup_singleton m.name)).mpr ⟨?_, ?_, ?_⟩
  · intro n mem name exported
    obtain rfl := List.mem_singleton.mp mem
    rw [AnalysedModule.exports, exports] at exported
    cases exported
  · intro n mem items source position imported
    obtain rfl := List.mem_singleton.mp mem
    rw [imports] at imported
    cases imported
  · intro name circle
    obtain ⟨next, ⟨n, mem, -, imported⟩, -⟩ := Relation.TransGen.head'_iff.mp circle
    obtain rfl := List.mem_singleton.mp mem
    rw [noSources] at imported
    cases imported

theorem cycle?_of_fault? {path : List String} (h : f.fault? = some (.importCycle path)) :
    f.cycle? = some path := by
  have exports : f.modules.findSome? undeclaredExport? ≠ some (.importCycle path) := by
    intro found
    obtain ⟨m, -, found⟩ := List.exists_of_findSome?_eq_some found
    obtain ⟨⟨name, position⟩, -, found⟩ := List.exists_of_findSome?_eq_some found
    dsimp only at found
    split at found <;> cases found
  have imports : f.modules.findSome? f.unmetImport? ≠ some (.importCycle path) := by
    intro found
    obtain ⟨m, -, found⟩ := List.exists_of_findSome?_eq_some found
    obtain ⟨⟨items, source, position⟩, -, found⟩ := List.exists_of_findSome?_eq_some found
    dsimp only at found
    split at found
    · cases found
    · obtain ⟨_, -, found⟩ := List.exists_of_findSome?_eq_some found
      split at found <;> cases found
  rw [fault?] at h
  cases first : f.modules.findSome? undeclaredExport? with
  | some e => rw [first] at h exports; exact absurd h exports
  | none =>
    cases second : f.modules.findSome? f.unmetImport? with
    | some e => rw [first, second] at h; rw [second] at imports; exact absurd h imports
    | none =>
      rw [first, second] at h
      obtain ⟨_, found, same⟩ := Option.map_eq_some_iff.mp h
      rw [found, LinkError.importCycle.inj same]

end ScriptEngine.Forest

namespace ScriptEngine.ForestBuilder

/-- Builders that modules have been registered with, one after another. The host may change what it
binds, and whether undeclared names are rejected, at any time. -/
inductive Registered : ForestBuilder → Prop
  | start (bindings : Bindings) (strict : Bool) : Registered (.start bindings strict)
  | withBindings {b : ForestBuilder} (bindings : Bindings) :
    Registered b → Registered (b.withBindings bindings)
  | withStrict {b : ForestBuilder} (strict : Bool) : Registered b → Registered (b.withStrict strict)
  | add {b b' : ForestBuilder} (m : Module) : Registered b → b.add m = .ok b' → Registered b'

/-- Builders that modules have been registered with among the names that they bind, and as strictly
as they are: nothing was changed after the first module. -/
inductive Uniform : ForestBuilder → Prop
  | start (bindings : Bindings) (strict : Bool) : Uniform (.start bindings strict)
  | add {b b' : ForestBuilder} (m : Module) : Uniform b → b.add m = .ok b' → Uniform b'

/-- A source text registers the module that it makes. -/
theorem Registered.addSource {b b' : ForestBuilder} {name source : String} (h : Registered b)
    (added : b.addSource name source = .ok b') : Registered b' := by
  obtain ⟨m, -, added⟩ := addSource_eq_ok added
  exact .add m h added

/-- Registered modules are in the index. -/
theorem Registered.indexed {b : ForestBuilder} (h : Registered b) : b.Indexed := by
  induction h with
  | start bindings strict => exact .start bindings strict
  | withBindings bindings _ ih => exact ⟨ih.distinct, ih.entries⟩
  | withStrict strict _ ih => exact ⟨ih.distinct, ih.entries⟩
  | add m _ added ih =>
    obtain ⟨new, analysis, -, rfl⟩ := add_eq_ok added
    exact ih.push (ih.not_mem_names new)

/-- The names of registered modules are distinct. -/
theorem Registered.distinct {b : ForestBuilder} (h : Registered b) :
    (b.modules.map (·.name)).Nodup := h.indexed.distinct

/-- A module that is added is analysed among the names that are bound then. -/
theorem analysed_of_add {b b' : ForestBuilder} {m : Module} (added : b.add m = .ok b')
    {analysed : AnalysedModule → Prop} (earlier : ∀ n ∈ b.modules, analysed n)
    (new : ∀ a, m.analyze b.bindings.names b.strict = .ok a → analysed ⟨m, a⟩) :
    ∀ n ∈ b'.modules, analysed n := by
  obtain ⟨-, a, found, rfl⟩ := add_eq_ok added
  intro n mem
  rcases List.mem_append.mp mem with mem | mem
  · exact earlier n mem
  · obtain rfl := List.mem_singleton.mp mem
    exact new a found

/-- Registered modules have been analysed, among what was bound when they were added. -/
theorem Registered.analysed {b : ForestBuilder} (h : Registered b) :
    ∀ m ∈ b.modules, ∃ names strict, m.tree.analyze names strict = .ok m.analysis := by
  induction h with
  | start => exact fun m mem => by cases mem
  | withBindings _ _ ih | withStrict _ _ ih => exact ih
  | add m _ added ih => exact analysed_of_add added ih fun a found => ⟨_, _, found⟩

/-- A builder that was not changed after its first module is one that modules were registered
with. -/
theorem Uniform.registered {b : ForestBuilder} (h : Uniform b) : Registered b := by
  induction h with
  | start bindings strict => exact .start bindings strict
  | add m _ added ih => exact .add m ih added

/-- Its modules have been analysed among what is still bound. -/
theorem Uniform.analysed {b : ForestBuilder} (h : Uniform b) :
    ∀ m ∈ b.modules, m.tree.analyze b.bindings.names b.strict = .ok m.analysis := by
  induction h with
  | start => exact fun m mem => by cases mem
  | add m _ added ih =>
    obtain ⟨-, _, -, same⟩ := add_eq_ok added
    have bindings : _ = _ := congrArg ForestBuilder.bindings same
    have strict : _ = _ := congrArg ForestBuilder.strict same
    rw [bindings, strict]
    exact analysed_of_add added ih fun _ found => found

/-- Registered modules are linked exactly if every exported name is declared, every import is met by
a module that exports the name, and no module imports itself, be it through others. A circle that
linking fails with is a genuine one. -/
theorem finish_spec {b : ForestBuilder} (registered : Registered b) :
    ((∃ f, b.finish = .ok f) ↔
      Forest.ExportsDeclared ⟨b.modules, b.bindings⟩ ∧
        Forest.ImportsMet ⟨b.modules, b.bindings⟩ ∧ Forest.Acyclic ⟨b.modules, b.bindings⟩) ∧
      ∀ path, b.finish = .error (.importCycle path) →
        Forest.Circle ⟨b.modules, b.bindings⟩ path := by
  have distinct := registered.distinct
  have found : Forest.ExportsFound ⟨b.modules, b.bindings⟩ ↔ _ :=
    Forest.exportsFound_iff registered.analysed
  rw [← found, ← Forest.fault?_eq_none_iff distinct]
  unfold finish Forest.link
  cases fault : Forest.fault? ⟨b.modules, b.bindings⟩ with
  | none => simp
  | some e =>
    refine ⟨by simp, fun path failed => ?_⟩
    obtain rfl := Except.error.inj failed
    exact Forest.circle_of_cycle? distinct (Forest.cycle?_of_fault? fault)

/-- A module that imports itself. -/
def selfImporter : Module := ⟨"a", ⟨[⟨.nowhere, .importFrom [] "a"⟩], .nowhere⟩⟩

theorem finish_spec_of_selfImporter :
    ∃ b, (start .empty false).add selfImporter = .ok b ∧
      b.finish = .error (.importCycle ["a", "a"]) ∧
        Forest.Circle ⟨b.modules, b.bindings⟩ ["a", "a"] :=
  ⟨_, rfl, rfl, (finish_spec (.add selfImporter (.start .empty false) rfl)).2 _ rfl⟩

end ScriptEngine.ForestBuilder

/-!
## Restoring

A forest is restored from its image as it was built: its modules are added one after another, and
linked.
-/

namespace ScriptEngine

/-- Adding modules one after another registers them. -/
theorem ForestBuilder.Registered.addAll {b b' : ForestBuilder} {modules : List Module}
    (h : b.Registered) (added : modules.foldlM ForestBuilder.add b = .ok b') : b'.Registered := by
  induction modules generalizing b with
  | nil => exact Except.ok.inj added ▸ h
  | cons m modules ih =>
    rw [List.foldlM_cons] at added
    cases first : b.add m with
    | error e => rw [first] at added; cases added
    | ok b₁ =>
      rw [first] at added
      exact ih (.add m h first) added

/-- A forest is restored if its modules can be added and linked again. -/
theorem ForestImage.restore_eq_ok_iff {image : ForestImage} {strict : Bool} {f : Forest} :
    image.restore strict = .ok f ↔
      ∃ b, image.modules.foldlM ForestBuilder.add (.start (.ofRemotes image.remotes) strict) = .ok b ∧
        b.finish = .ok f := by
  unfold restore
  cases added : image.modules.foldlM ForestBuilder.add
    (.start (.ofRemotes image.remotes) strict) with
  | error e => simp [bind, Except.bind, added]
  | ok b => cases linked : b.finish <;> simp [bind, Except.bind, added, linked]

/-- What is restored comes of a builder. -/
theorem ForestImage.exists_registered {image : ForestImage} {strict : Bool} {f : Forest}
    (h : image.restore strict = .ok f) : ∃ b : ForestBuilder, b.Registered ∧ b.finish = .ok f := by
  obtain ⟨b, added, linked⟩ := restore_eq_ok_iff.mp h
  exact ⟨b, .addAll (.start _ _) added, linked⟩

end ScriptEngine
