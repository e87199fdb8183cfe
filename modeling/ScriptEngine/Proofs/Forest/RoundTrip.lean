import Mathlib.Data.List.Forall2
import ScriptEngine.Engine.Image
import ScriptEngine.Proofs.Analysis.Reanalysis
import ScriptEngine.Proofs.Analysis.Strictness
import ScriptEngine.Proofs.Forest.Linking
import ScriptEngine.Proofs.Host.Bindings

/-!
# Forests and their bytes

A forest is kept as its trees and its remote calls. Whatever else it has is found again when it is
restored, among the remote calls alone. A host may change what it binds between two modules of a
forest; what was found about the earlier ones need not be found again then.

* `AnalysedModule.Again`: a module that was analysed again, among other names of the host.
* `ForestBuilder.addAll_again`: what becomes of modules that are added again.
* `Forest.fault?_again`: modules that fit together still do when they are analysed again.
* `Forest.ofBytes_toBytes`: a forest with remote calls only is restored as it was, if and only if
  its modules are analysed again as they were.
* `Forest.ofBytes_toBytes_of_lenient`: any forest is restored without its objects and classes if and
  only if no module writes to a name that is not bound then.
-/

namespace ScriptEngine

/-- A module that was analysed again, among these names and this strictly. -/
structure AnalysedModule.Again (names : List String) (strict : Bool) (m n : AnalysedModule) :
    Prop where
  tree : n.tree = m.tree
  analysed : m.tree.analyze names strict = .ok n.analysis

namespace AnalysedModule.Again

variable {names : List String} {strict : Bool} {m n : AnalysedModule}

theorem name (h : Again names strict m n) : n.name = m.name := congrArg Module.name h.tree

theorem exports (h : Again names strict m n) : n.exports = m.exports :=
  congrArg (fun tree => tree.exports.map (·.1)) h.tree

theorem sources (h : Again names strict m n) : n.sources = m.sources := by
  rw [AnalysedModule.sources, h.tree, AnalysedModule.sources]

/-- What modules have by their trees alone stays the same. -/
theorem map_eq {α : Type} {f : AnalysedModule → α} {ms ns : List AnalysedModule}
    (h : List.Forall₂ (Again names strict) ms ns)
    (same : ∀ m n, Again names strict m n → f n = f m) : ns.map f = ms.map f := by
  induction h with
  | nil => rfl
  | cons first _ ih => rw [List.map_cons, List.map_cons, same _ _ first, ih]

/-- Every module is analysed again. -/
theorem exists_of_mem {ms ns : List AnalysedModule} (h : List.Forall₂ (Again names strict) ms ns)
    (mem : m ∈ ms) : ∃ n ∈ ns, Again names strict m n := by
  obtain ⟨i, bound, rfl⟩ := List.mem_iff_getElem.mp mem
  have bound' : i < ns.length := by rwa [← h.length_eq]
  exact ⟨_, List.getElem_mem bound', h.get bound bound'⟩

/-- No other module is there afterwards. -/
theorem exists_of_mem_again {ms ns : List AnalysedModule}
    (h : List.Forall₂ (Again names strict) ms ns) (mem : n ∈ ns) :
    ∃ m ∈ ms, Again names strict m n := by
  obtain ⟨i, bound, rfl⟩ := List.mem_iff_getElem.mp mem
  have bound' : i < ms.length := by rwa [h.length_eq]
  exact ⟨_, List.getElem_mem bound', h.get bound' bound⟩

end AnalysedModule.Again

/-! ## Adding modules again -/

/-- Modules that are added again are all analysed again, up to the first that is rejected. -/
theorem ForestBuilder.addAll_again {c : ForestBuilder} (indexed : c.Indexed)
    {ms : List AnalysedModule} (distinct : ((c.modules ++ ms).map (·.name)).Nodup) :
    (∃ ns c', (ms.map (·.tree)).foldlM ForestBuilder.add c = .ok c' ∧
      c'.modules = c.modules ++ ns ∧ c'.bindings = c.bindings ∧
        List.Forall₂ (AnalysedModule.Again c.bindings.names c.strict) ms ns) ∨
    ∃ m ∈ ms, ∃ e, m.tree.analyze c.bindings.names c.strict = .error e ∧
      (ms.map (·.tree)).foldlM ForestBuilder.add c = .error (.semantic e) := by
  induction ms generalizing c with
  | nil => exact .inl ⟨[], c, rfl, (List.append_nil _).symm, rfl, .nil⟩
  | cons m ms ih =>
    have absent : m.name ∉ c.names := by
      rw [List.map_append, List.nodup_append] at distinct
      exact fun mem => distinct.2.2 m.name mem m.name List.mem_cons_self rfl
    have new : c.index.contains m.tree.name = false :=
      Bool.eq_false_iff.mpr (mt indexed.contains_iff.mp absent)
    rw [List.map_cons, List.foldlM_cons]
    cases again : m.tree.analyze c.bindings.names c.strict with
    | error e =>
      rw [add_of_error new again]
      exact .inr ⟨m, List.mem_cons_self, e, again, rfl⟩
    | ok a =>
      rw [add_of_new new again]
      have names : ((c.modules ++ [(⟨m.tree, a⟩ : AnalysedModule)] ++ ms).map (·.name)).Nodup := by
        simpa [AnalysedModule.name] using distinct
      rcases ih (c := c.push ⟨m.tree, a⟩) (indexed.push absent) names with
        ⟨ns, c', others, modules, bindings, all⟩ | ⟨n, mem, e, rejected, failed⟩
      · refine .inl ⟨⟨m.tree, a⟩ :: ns, c', others, ?_, bindings, .cons ⟨rfl, again⟩ all⟩
        rw [modules, push, List.append_assoc]
        rfl
      · exact .inr ⟨n, List.mem_cons_of_mem _ mem, e, rejected, failed⟩

/-! ## Linking them again -/

/-- Modules that fit together still do when they are analysed again: their exports, their imports and
what stands at their top level are in their trees. -/
theorem Forest.fault?_again {names : List String} {strict : Bool} {f : Forest}
    {ns : List AnalysedModule} (bindings : Bindings)
    (distinct : (f.modules.map (·.name)).Nodup)
    (analysed : ∀ m ∈ f.modules, ∃ names strict, m.tree.analyze names strict = .ok m.analysis)
    (again : List.Forall₂ (AnalysedModule.Again names strict) f.modules ns)
    (linked : f.fault? = none) : Forest.fault? ⟨ns, bindings⟩ = none := by
  have sameNames : ns.map (·.name) = f.modules.map (·.name) :=
    AnalysedModule.Again.map_eq again fun _ _ h => h.name
  obtain ⟨found, met, acyclic⟩ := (fault?_eq_none_iff distinct).mp linked
  have declared := (exportsFound_iff analysed).mp found
  refine (fault?_eq_none_iff (f := ⟨ns, bindings⟩) (by rwa [sameNames])).mpr ⟨?_, ?_, ?_⟩
  · refine (exportsFound_iff (f := ⟨ns, bindings⟩) fun n mem => ?_).mpr fun n mem name exported => ?_
    all_goals obtain ⟨m, there, isAgain⟩ := AnalysedModule.Again.exists_of_mem_again again mem
    · exact ⟨names, strict, isAgain.tree ▸ isAgain.analysed⟩
    · rw [isAgain.tree]
      exact declared m there name (isAgain.exports ▸ exported)
  · intro n mem items source position imported
    obtain ⟨m, there, isAgain⟩ := AnalysedModule.Again.exists_of_mem_again again mem
    obtain ⟨exporter, mem', named, exported⟩ :=
      met m there items source position (isAgain.tree ▸ imported)
    obtain ⟨exporter', mem'', isAgain'⟩ := AnalysedModule.Again.exists_of_mem again mem'
    exact ⟨exporter', mem'', isAgain'.name.trans named, fun item itemMem =>
      isAgain'.exports ▸ exported item itemMem⟩
  · intro name circle
    have kept : Forest.Imports ⟨ns, bindings⟩ ≤ f.Imports := by
      rintro importer source ⟨n, mem, named, imported⟩
      obtain ⟨m, there, isAgain⟩ := AnalysedModule.Again.exists_of_mem_again again mem
      exact ⟨m, there, isAgain.name ▸ named, isAgain.sources ▸ imported⟩
    exact acyclic name (Relation.TransGen.mono kept name name circle)

/-! ## Restoring -/

/-- The bindings that a forest has when it is restored: its remote calls. -/
def Forest.restoredBindings (f : Forest) : Bindings := .ofRemotes f.bindings.remotes

/-- A name stands for something when the forest is restored: it is a builtin or a remote call of the
forest. -/
def Forest.Keeps (f : Forest) (name : String) : Prop :=
  name ∈ builtinNames ∨
    ∃ binding, f.bindings.resolve? name = some binding ∧ binding.isRemote = true

theorem Forest.keeps_iff {f : Forest} {name : String} :
    f.Keeps name ↔ Rebinding.Bound f.restoredBindings.names name := by
  rw [Rebinding.Bound, restoredBindings, Bindings.mem_names_ofRemotes_remotes, or_comm]
  rfl

/-- A forest is restored from its image with its modules analysed again among its remote calls, or
rejected as one of them is. -/
theorem Forest.restore_image {b : ForestBuilder} {f : Forest} (registered : b.Registered)
    (linked : b.finish = .ok f) (strict : Bool) :
    (∃ ns, f.image.restore strict = .ok ⟨ns, f.restoredBindings⟩ ∧
      List.Forall₂ (AnalysedModule.Again f.restoredBindings.names strict) f.modules ns) ∨
    ∃ m ∈ f.modules, ∃ e, m.tree.analyze f.restoredBindings.names strict = .error e ∧
      f.image.restore strict = .error (.semantic e) := by
  obtain ⟨rfl, noFault⟩ := ForestBuilder.eq_of_finish linked
  let remotes : Bindings := .ofRemotes b.bindings.remotes
  rcases ForestBuilder.addAll_again (c := .start remotes strict) (.start _ _) registered.distinct
    with ⟨ns, c, added, modules, bindings, again⟩ | ⟨m, mem, e, rejected, failed⟩
  · have relinked := Forest.fault?_again remotes registered.distinct registered.analysed again noFault
    refine .inl ⟨ns, ForestImage.restore_eq_ok_iff.mpr ⟨c, added, ?_⟩, again⟩
    rw [ForestBuilder.finish, modules, bindings]
    have linked' : Forest.link ⟨ns, remotes⟩ = .ok ⟨ns, remotes⟩ := by
      rw [Forest.link, relinked]
    exact linked'
  · refine .inr ⟨m, mem, e, rejected, ?_⟩
    have failed' : (Forest.image ⟨b.modules, b.bindings⟩).modules.foldlM ForestBuilder.add
      (.start remotes strict) = .error (.semantic e) := failed
    simp only [ForestImage.restore, Forest.image] at failed' ⊢
    rw [failed']
    rfl

/-- A forest is restored from its bytes if it is from its image, when the bytes give that. -/
theorem Forest.ofBytes_toBytes_eq {f : Forest} {strict : Bool}
    (inverts : ForestImage.ofBytes? f.toBytes = some f.image) :
    Forest.ofBytes f.toBytes strict = (f.image.restore strict).mapError .load := by
  rw [ofBytes, inverts]
  cases restored : f.image.restore strict <;> simp only [restored] <;> rfl

/-- One module that imports and exports nothing makes a forest, if it can be analysed. -/
theorem ForestBuilder.exists_forest_of_alone (bindings : Bindings) (strict : Bool) {m : Module}
    (accepted : (m.analyze bindings.names strict).toBool = true) (imports : m.imports = [])
    (exports : m.exports = []) :
    ∃ a, m.analyze bindings.names strict = .ok a ∧
      ∃ b, (start bindings strict).add m = .ok b ∧ b.finish = .ok ⟨[⟨m, a⟩], bindings⟩ := by
  cases analysed : m.analyze bindings.names strict with
  | error e =>
    rw [analysed] at accepted
    cases accepted
  | ok a =>
    have added : (start bindings strict).add m = .ok ((start bindings strict).push ⟨m, a⟩) :=
      add_of_new rfl analysed
    have noFault := Forest.fault?_of_alone (m := ⟨m, a⟩) imports exports bindings
    exact ⟨a, rfl, _, added, by simp [finish, Forest.link, push, start, noFault]⟩

/-- A forest that is the same as another one, whatever the order of bindings and declarations. -/
structure Forest.Same (f g : Forest) : Prop where
  trees : g.modules.map (·.tree) = f.modules.map (·.tree)
  analyses : List.Forall₂ (fun m n => m.analysis.Same n.analysis) f.modules g.modules
  exports : g.modules.map (·.exports) = f.modules.map (·.exports)
  resolve? : ∀ name, g.bindings.resolve? name = f.bindings.resolve? name
  rootScope : f.rootScope.Alike g.rootScope

/-- The root scope holds the names that are bound. -/
theorem Forest.rootScope_alike {f g : Forest}
    (same : ∀ name, name ∈ f.bindings.names ↔ name ∈ g.bindings.names) :
    f.rootScope.Alike g.rootScope := by
  obtain ⟨shape, entries⟩ :=
    Analyzing.State.held?_foldl_define .external f.bindings.names .empty (by decide)
  obtain ⟨shape', entries'⟩ :=
    Analyzing.State.held?_foldl_define .external g.bindings.names .empty (by decide)
  refine ⟨shape.symm.trans shape', fun id name => (entries' id name).trans ?_⟩
  rw [show f.rootScope.held? id name = _ from entries id name]
  simp only [same name]

/-- What was found about the modules of a forest is what an analysis finds among the names that are
bound in the end. -/
def Forest.Lasting (f : Forest) (strict : Bool) : Prop :=
  ∀ m ∈ f.modules, ∃ a, m.tree.analyze f.bindings.names strict = .ok a ∧ m.analysis.Same a

/-- Forests with remote calls only keep all their names. -/
theorem Forest.names_restoredBindings {f : Forest}
    (remote : ∀ name binding, f.bindings.resolve? name = some binding → binding.isRemote = true)
    (name : String) : name ∈ f.bindings.names ↔ name ∈ f.restoredBindings.names := by
  rw [restoredBindings, Bindings.mem_names_ofRemotes_remotes, Bindings.mem_names_iff]
  exact exists_congr fun binding => ⟨fun bound => ⟨bound, remote name binding bound⟩, And.left⟩

/-- A forest with remote calls only, whose bytes give the image that was written, is restored from
its bytes as it was if it was built among these calls and as strictly: in general, if and only if
its modules are analysed again as they were. -/
theorem Forest.ofBytes_toBytes {b : ForestBuilder} {f : Forest} (registered : b.Registered)
    (linked : b.finish = .ok f)
    (remote : ∀ name binding, f.bindings.resolve? name = some binding → binding.isRemote = true)
    (inverts : ForestImage.ofBytes? f.toBytes = some f.image) :
    (b.Uniform → ∃ g, Forest.ofBytes f.toBytes b.strict = .ok g ∧ f.Same g) ∧
      ∀ strict, (∃ g, Forest.ofBytes f.toBytes strict = .ok g ∧ f.Same g) ↔ f.Lasting strict := by
  let r : Rebinding := ⟨f.bindings.names, f.restoredBindings.names⟩
  have exact : r.Exact := names_restoredBindings remote
  have restoring (strict : Bool) :
      (∃ g, Forest.ofBytes f.toBytes strict = .ok g ∧ f.Same g) ↔ f.Lasting strict := by
    rw [ofBytes_toBytes_eq inverts]
    constructor
    · rintro ⟨g, restored, same⟩ m mem
      rcases restore_image registered linked strict with ⟨ns, found, again⟩ | ⟨_, _, e, -, failed⟩
      · rw [found] at restored
        obtain rfl := Except.ok.inj restored
        obtain ⟨i, bound, rfl⟩ := List.mem_iff_getElem.mp mem
        have bound' : i < ns.length := by rwa [← again.length_eq]
        obtain ⟨a, analysed, like⟩ :=
          Module.analyze_of_exact (r := r.flip) exact.flip (again.get bound bound').analysed
        exact ⟨a, analysed, (same.analyses.get bound bound').trans like⟩
      · rw [failed] at restored
        cases restored
    · intro lasting
      have finds (m : AnalysedModule) (mem : m ∈ f.modules) :
          ∃ c, m.tree.analyze r.after strict = .ok c ∧ m.analysis.Same c := by
        obtain ⟨a, analysed, like⟩ := lasting m mem
        obtain ⟨c, again, like'⟩ := Module.analyze_of_exact (r := r) exact analysed
        exact ⟨c, again, like.trans like'⟩
      rcases restore_image registered linked strict with ⟨ns, found, again⟩ | ⟨m, mem, e, fails, -⟩
      · refine ⟨⟨ns, f.restoredBindings⟩, by rw [found]; rfl,
          AnalysedModule.Again.map_eq again fun _ _ h => h.tree, ?_,
          AnalysedModule.Again.map_eq again fun _ _ h => h.exports, fun name => ?_,
          rootScope_alike exact⟩
        · refine List.forall₂_iff_get.mpr ⟨again.length_eq, fun i bound bound' => ?_⟩
          obtain ⟨c, analysed, like⟩ := finds _ (List.get_mem f.modules ⟨i, bound⟩)
          have twice := (again.get bound bound').analysed.symm.trans analysed
          exact Except.ok.inj twice ▸ like
        · refine (Bindings.resolve?_ofRemotes_remotes _ _).trans ?_
          cases bound : f.bindings.resolve? name with
          | none => rfl
          | some binding => simp [remote name binding bound]
      · obtain ⟨c, analysed, -⟩ := finds m mem
        cases analysed.symm.trans fails
  refine ⟨fun uniform => (restoring b.strict).mpr fun m mem => ?_, restoring⟩
  obtain ⟨rfl, -⟩ := ForestBuilder.eq_of_finish linked
  exact Module.analyze_of_exact (r := ⟨b.bindings.names, b.bindings.names⟩) (fun _ => .rfl)
    (uniform.analysed m mem)

/-- A module that reads one name. -/
def readerOf (name : String) : Module :=
  ⟨"main", ⟨[⟨.nowhere, .expression ⟨0, .nowhere, .name name⟩ false⟩], .nowhere⟩⟩

/-- The brokered call of the forests below. -/
def brokeredSum : Binding := .remote (.brokered "math.add" 2)

/-- A forest of one module that binds one remote call keeps the two. -/
theorem Forest.image_of_remote (m : AnalysedModule) (name : String) :
    Forest.image ⟨[m], Bindings.empty.bind name brokeredSum⟩ =
      ⟨[m.tree], [(name, .brokered "math.add" 2)]⟩ := by
  simp [Forest.image, brokeredSum, Bindings.remotes, Bindings.entries_bind_empty]

/-- The one name that is bound stands for a remote call. -/
theorem Bindings.isRemote_of_brokeredSum {name asked : String} {binding : Binding}
    (bound : (Bindings.empty.bind name brokeredSum).resolve? asked = some binding) :
    binding.isRemote = true := by
  have entry := OrderedMap.get?_eq_some_iff.mp bound
  rw [Bindings.entries_bind_empty] at entry
  obtain ⟨rfl, rfl⟩ := Prod.mk.inj (List.mem_singleton.mp entry)
  rfl

set_option maxRecDepth 4000 in
theorem Forest.ofBytes_toBytes_of_reader :
    ∃ b f, (ForestBuilder.start (Bindings.empty.bind "calc" brokeredSum) true).add
        (readerOf "calc") = .ok b ∧ b.finish = .ok f ∧
      (∃ g, Forest.ofBytes f.toBytes b.strict = .ok g ∧ f.Same g) ∧ f.Lasting b.strict := by
  obtain ⟨a, -, b, added, linked⟩ := ForestBuilder.exists_forest_of_alone
    (Bindings.empty.bind "calc" brokeredSum) true (m := readerOf "calc") (by decide +kernel) rfl rfl
  have inverts (f : Forest)
      (image : f.image = ⟨[readerOf "calc"], [("calc", .brokered "math.add" 2)]⟩) :
      ForestImage.ofBytes? f.toBytes = some f.image := by
    rw [toBytes, image]
    rfl
  obtain ⟨restored, lasting⟩ := ofBytes_toBytes (.add _ (.start _ _) added) linked
    (fun _ _ => Bindings.isRemote_of_brokeredSum) (inverts _ (image_of_remote _ _))
  have again := restored (.add _ (.start _ _) added)
  exact ⟨b, _, added, linked, again, (lasting b.strict).mp again⟩

/-- A module that writes to one name. -/
def writerOf (name : String) : Module :=
  ⟨"main", ⟨[⟨.nowhere, .expression ⟨2, .nowhere, .assign .assign
    (.place ⟨0, .nowhere, .name name⟩) ⟨1, .nowhere, .literal .null⟩⟩ true⟩], .nowhere⟩⟩

set_option maxRecDepth 4000 in
/-- A forest with remote calls only that is not restored: its module writes to a name that the host
binds no longer when the forest is linked. -/
theorem Forest.not_restored_of_rebound :
    ∃ b f, (ForestBuilder.start (Bindings.empty.bind "calc" brokeredSum) false).add
        (writerOf "calc") = .ok b ∧
      (b.withBindings (.bind .empty "sum" brokeredSum)).finish = .ok f ∧
      (∀ name binding, f.bindings.resolve? name = some binding → binding.isRemote = true) ∧
      ForestImage.ofBytes? f.toBytes = some f.image ∧
        Forest.ofBytes f.toBytes false =
          .error (.load (.semantic ⟨.undeclaredAssignment "calc", "main", .nowhere⟩)) := by
  obtain ⟨a, -, b, added, linked⟩ := ForestBuilder.exists_forest_of_alone
    (Bindings.empty.bind "calc" brokeredSum) false (m := writerOf "calc") (by decide +kernel) rfl rfl
  have modules : b.modules = [⟨writerOf "calc", a⟩] :=
    (congrArg Forest.modules (ForestBuilder.eq_of_finish linked).1).symm
  have noFault := fault?_of_alone (m := ⟨writerOf "calc", a⟩) rfl rfl
    (.bind .empty "sum" brokeredSum)
  have image : Forest.image ⟨[⟨writerOf "calc", a⟩], .bind .empty "sum" brokeredSum⟩ =
      ⟨[writerOf "calc"], [("sum", .brokered "math.add" 2)]⟩ := image_of_remote _ _
  have inverts : ForestImage.ofBytes? (Forest.toBytes ⟨[⟨writerOf "calc", a⟩],
      .bind .empty "sum" brokeredSum⟩) = some (Forest.image ⟨[⟨writerOf "calc", a⟩],
        .bind .empty "sum" brokeredSum⟩) := by
    rw [toBytes, image]
    rfl
  have names : (Bindings.ofRemotes [("sum", .brokered "math.add" 2)]).names = ["sum"] := by
    have once : ([("sum", RemoteSpec.brokered "math.add" 2)].map (·.1)).Nodup := by simp
    rw [Bindings.names, Rows.keys, Bindings.entries_ofRemotes once]
    rfl
  have rejected : (writerOf "calc").analyze (Bindings.ofRemotes
      [("sum", .brokered "math.add" 2)]).names false =
        .error ⟨.undeclaredAssignment "calc", "main", .nowhere⟩ := names ▸ rfl
  refine ⟨b, ⟨[⟨writerOf "calc", a⟩], .bind .empty "sum" brokeredSum⟩, added, ?_,
    fun _ _ => Bindings.isRemote_of_brokeredSum, inverts, ?_⟩
  · simp [ForestBuilder.finish, ForestBuilder.withBindings, Forest.link, modules, noFault]
  · rw [ofBytes_toBytes_eq inverts, image, ForestImage.restore, List.foldlM_cons,
      ForestBuilder.add_of_error rfl rejected]
    rfl

/-- No module of a forest writes, outside of any entity, to what it knows as a name of the host but
what stands for nothing when the forest is restored. -/
def Forest.SparesHost (f : Forest) : Prop :=
  ∀ m ∈ f.modules, ∀ name ∈ m.analysis.overwritten, f.Keeps name

/-- A forest whose bytes give the image that was written is restored from its bytes, with undeclared
names left to a run, if no module writes to an object, a class or another name of the host that is
not bound then: with the same names and exports of modules, and with its remote calls. Otherwise it
is rejected at such a name. -/
theorem Forest.ofBytes_toBytes_of_lenient {b : ForestBuilder} {f : Forest}
    (registered : b.Registered) (linked : b.finish = .ok f)
    (inverts : ForestImage.ofBytes? f.toBytes = some f.image) :
    (f.SparesHost → ∃ g, Forest.ofBytes f.toBytes false = .ok g ∧
      g.modules.map (fun m => (m.name, m.exports)) = f.modules.map (fun m => (m.name, m.exports)) ∧
        ∀ name, g.bindings.resolve? name = (f.bindings.resolve? name).filter Binding.isRemote) ∧
    (¬ f.SparesHost → ∃ m ∈ f.modules, ∃ name position, Forest.ofBytes f.toBytes false =
      .error (.load (.semantic ⟨.undeclaredAssignment name, m.name, position⟩)) ∧
        name ∈ m.analysis.overwritten ∧ ¬ f.Keeps name ∧ ∃ p ∈ m.tree.parts, p.Writes name) := by
  rw [ofBytes_toBytes_eq inverts]
  have rebound (m : AnalysedModule) (mem : m ∈ f.modules) : ∃ names,
      m.tree.analyze names false = .ok m.analysis := by
    obtain ⟨rfl, -⟩ := ForestBuilder.eq_of_finish linked
    obtain ⟨names, strict, analysed⟩ := registered.analysed m mem
    cases strict with
    | false => exact ⟨names, analysed⟩
    | true => exact ⟨names, Module.analyze_of_strict analysed⟩
  rcases restore_image registered linked false with ⟨ns, restored, again⟩ | ⟨m, mem, e, fails, failed⟩
  · have spares : f.SparesHost := by
      intro m mem name overwritten
      obtain ⟨n, -, isAgain⟩ := AnalysedModule.Again.exists_of_mem again mem
      obtain ⟨names, analysed⟩ := rebound m mem
      rcases Module.analyze_rebound ⟨names, f.restoredBindings.names⟩ (by simp) analysed with
        ⟨_, -, -, spared⟩ | ⟨_, _, fails, -⟩
      · exact keeps_iff.mpr (spared name overwritten)
      · cases isAgain.analysed.symm.trans fails
    refine ⟨fun _ => ⟨⟨ns, f.restoredBindings⟩, by rw [restored]; rfl,
      AnalysedModule.Again.map_eq again fun _ _ h => by rw [h.name, h.exports],
      fun name => Bindings.resolve?_ofRemotes_remotes _ _⟩, fun not => absurd spares not⟩
  · obtain ⟨names, analysed⟩ := rebound m mem
    rcases Module.analyze_rebound ⟨names, f.restoredBindings.names⟩ (by simp) analysed with
      ⟨_, found, -⟩ | ⟨name, position, fails', breaks⟩
    · cases found.symm.trans fails
    · obtain rfl := Except.error.inj (fails.symm.trans fails')
      have gone := mt keeps_iff.mp breaks.drops.2
      refine ⟨fun spares => absurd (spares m mem name breaks.isOverwritten) gone,
        fun _ => ⟨m, mem, name, position, ?_, breaks.isOverwritten, gone, breaks.writes⟩⟩
      rw [failed]
      rfl

/-- A forest of one module that binds one object of the host keeps nothing but the module. -/
theorem Forest.image_of_object (m : AnalysedModule) (name : String) (value : HostValue) :
    Forest.image ⟨[m], Bindings.empty.bind name (.object value)⟩ = ⟨[m.tree], []⟩ := by
  simp [Forest.image, Bindings.remotes, Bindings.entries_bind_empty]

set_option maxRecDepth 4000 in
theorem Forest.ofBytes_toBytes_of_hostReader :
    ∃ b f, (ForestBuilder.start (Bindings.empty.bind "ctx" (.object .null)) false).add
        (readerOf "ctx") = .ok b ∧ b.finish = .ok f ∧
      ∃ g, Forest.ofBytes f.toBytes false = .ok g ∧
        g.modules.map (fun m => (m.name, m.exports)) = [("main", [])] ∧
          ∀ name, g.bindings.resolve? name = (f.bindings.resolve? name).filter Binding.isRemote := by
  obtain ⟨a, analysed, b, added, linked⟩ := ForestBuilder.exists_forest_of_alone
    (Bindings.empty.bind "ctx" (.object .null)) false
    (m := readerOf "ctx") (by decide +kernel) rfl rfl
  have inverts (f : Forest) (image : f.image = ⟨[readerOf "ctx"], []⟩) :
      ForestImage.ofBytes? f.toBytes = some f.image := by
    rw [toBytes, image]
    rfl
  have restored := ofBytes_toBytes_of_lenient (.add _ (.start _ _) added) linked
    (inverts _ (image_of_object _ _ _))
  refine ⟨b, _, added, linked, restored.1 ?_⟩
  intro m mem name overwritten
  obtain rfl := List.mem_singleton.mp mem
  have none : ((readerOf "ctx").analyze (Bindings.empty.bind "ctx" (.object .null)).names
      false).toOption.map (·.overwritten) = some [] := by decide +kernel
  rw [analysed] at none
  have nothing : a.overwritten = [] := Option.some.inj none
  rw [nothing] at overwritten
  cases overwritten

set_option maxRecDepth 4000 in
/-- A forest that is not restored: its module writes to an object of the host. -/
theorem Forest.not_restored_of_writer :
    ∃ b f, (ForestBuilder.start (Bindings.empty.bind "ctx" (.object .null)) false).add
        (writerOf "ctx") = .ok b ∧ b.finish = .ok f ∧
      ForestImage.ofBytes? f.toBytes = some f.image ∧
        Forest.ofBytes f.toBytes false =
          .error (.load (.semantic ⟨.undeclaredAssignment "ctx", "main", .nowhere⟩)) := by
  obtain ⟨a, -, b, added, linked⟩ := ForestBuilder.exists_forest_of_alone
    (Bindings.empty.bind "ctx" (.object .null)) false
    (m := writerOf "ctx") (by decide +kernel) rfl rfl
  have image : Forest.image ⟨[⟨writerOf "ctx", a⟩], Bindings.empty.bind "ctx" (.object .null)⟩ =
      ⟨[writerOf "ctx"], []⟩ := image_of_object _ _ _
  refine ⟨b, _, added, linked, ?_, ?_⟩
  · rw [toBytes, image]
    rfl
  · rw [toBytes, image]
    rfl

end ScriptEngine
