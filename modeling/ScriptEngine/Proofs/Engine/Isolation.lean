import ScriptEngine.Proofs.Engine.Deeds

/-!
# Grants are isolated

What a name from outside means in an environment can be told from what was done: it is what it was
bound to last there, or else what the engine of the builder of its forest had for it when that
builder was opened, or else something that is always there.

* `lastGrant`, `lastGrantIn`, `boundAtOpening`: what comes of a record for a name.
* `Engines.Sound`: engines, builders, forests and environments bind names as the record says.
* `Engines.isolated`: what a name means in an environment.
-/

namespace ScriptEngine

open Relation (ReflTransGen)

/-! ## Records -/

/-- What a name was bound to last in an engine, the latest deed being the first. -/
def lastGrant (engine : Nat) (name : String) : List Deed → Option Binding
  | [] => none
  | .granted engine' name' binding :: past =>
    if engine = engine' ∧ name = name' then some binding else lastGrant engine name past
  | _ :: past => lastGrant engine name past

/-- What a name was bound to last in an environment. -/
def lastGrantIn (place : Place) (name : String) : List Deed → Option Binding
  | [] => none
  | .grantedIn place' name' binding :: past =>
    if place = place' ∧ name = name' then some binding else lastGrantIn place name past
  | _ :: past => lastGrantIn place name past

/-- What a name was bound to in the engine of a builder when this was opened. -/
def boundAtOpening (builder : Nat) (name : String) : List Deed → Option Binding
  | [] => none
  | .opened builder' engine :: past =>
    if builder = builder' then lastGrant engine name past else boundAtOpening builder name past
  | _ :: past => boundAtOpening builder name past

namespace Engines

variable {s s' : Engines} {i k : Nat} {name : String} {place : Place}

/-! ## What has become of names -/

/-- A forest comes of a builder with this number. -/
structure Built (s : Engines) (k : Nat) (forest : Forest) : Prop where
  linked : ∃ b : ForestBuilder, b.Registered ∧ b.finish = .ok forest
  resolve? (name : String) : forest.bindings.resolve? name = boundAtOpening k name s.log

/-- What is bound in engines, builders, forests and environments is what was done. Forests get into
environments only from builders, or from other environments. -/
structure Sound (s : Engines) : Prop where
  reached (i : Nat) : (s.engine i).Reached
  bindings (i : Nat) (name : String) :
    (s.engine i).bindings.resolve? name = lastGrant i name s.log
  grants (place : Place) (name : String) :
    (s.environment place).grants.resolve? name = lastGrantIn place name s.log
  pending {k : Nat} {b : ScriptBuilder} {c : ForestBuilder} :
    s.builders[k]? = some b → b.pending = some c →
      c.Registered ∧ ∀ name, c.bindings.resolve? name = boundAtOpening k name s.log
  linked {k : Nat} {b : ScriptBuilder} {forest : Forest} :
    s.builders[k]? = some b → b.forest = some forest → s.Built k forest
  made {place : Place} {k : Nat} : .made place k ∈ s.log →
    k < s.builders.length ∧ place.env < s.size place.engine ∧
      s.Built k (s.environment place).forest
  all (place : Place) : place.env < s.size place.engine → ∃ k, .made place k ∈ s.log

theorem sound_start (options : Nat → Options) : (start options).Sound where
  reached i := .start (options i)
  bindings _ _ := rfl
  grants _ _ := rfl
  pending there := by cases there
  linked there := by cases there
  made mem := absurd mem List.not_mem_nil
  all _ there := absurd there (Nat.not_lt_zero _)

theorem boundAtOpening_cons {deed : Deed} (apart : ∀ engine, deed ≠ .opened k engine)
    (log : List Deed) : boundAtOpening k name (deed :: log) = boundAtOpening k name log := by
  cases deed with
  | opened builder engine =>
    have differs : k ≠ builder := fun same => apart engine (same ▸ rfl)
    rw [boundAtOpening, if_neg differs]
  | _ => rfl

theorem Built.later {forest : Forest} (h : s.Built k forest)
    (same : ∀ name, boundAtOpening k name s'.log = boundAtOpening k name s.log) :
    s'.Built k forest :=
  ⟨h.linked, fun name => (h.resolve? name).trans (same name).symm⟩

theorem Gives.built (sound : s.Sound) {forest : Forest} (gives : s.Gives k forest) :
    k < s.builders.length ∧ s.Built k forest := by
  cases gives with
  | linked there given =>
    exact ⟨(List.getElem?_eq_some_iff.mp there).1, sound.linked there given⟩
  | shared made => exact ⟨(sound.made made).1, (sound.made made).2.2⟩

/-! ### Engines -/

/-- One engine changes, but none of the forests of its environments. -/
theorem Sound.withEngine (sound : s.Sound) {e : Engine} {deed : Deed} (reached : e.Reached)
    (size : e.world.environments.size = s.size i)
    (forest : ∀ env, (e.world.environment env).forest = (s.environment ⟨i, env⟩).forest)
    (opens : ∀ k j, deed ≠ .opened k j) (makes : ∀ place k, deed ≠ .made place k)
    (bindings : ∀ j name, (if j = i then e else s.engine j).bindings.resolve? name =
      lastGrant j name (deed :: s.log))
    (grants : ∀ place name, (if place.engine = i then e.world.environment place.env
      else s.environment place).grants.resolve? name = lastGrantIn place name (deed :: s.log)) :
    (s.withEngine i e deed).Sound := by
  have sizes (j : Nat) : (s.withEngine i e deed).size j = s.size j := by
    rw [size_withEngine]
    split
    · next same => rw [size, same]
    · rfl
  have forests (place : Place) :
      ((s.withEngine i e deed).environment place).forest = (s.environment place).forest := by
    rw [environment_withEngine]
    split
    · next same => rw [forest, ← same]
    · rfl
  have opening (k : Nat) (name : String) :
      boundAtOpening k name (s.withEngine i e deed).log = boundAtOpening k name s.log :=
    boundAtOpening_cons (opens k) s.log
  constructor
  case reached =>
    intro j
    rw [engine_withEngine]
    split
    · exact reached
    · exact sound.reached j
  case bindings =>
    intro j name
    rw [engine_withEngine]
    exact bindings j name
  case grants =>
    intro place name
    rw [environment_withEngine]
    exact grants place name
  case pending =>
    intro k b c there found
    have known := sound.pending there found
    exact ⟨known.1, fun name => (known.2 name).trans (opening k name).symm⟩
  case linked =>
    intro k b forest there given
    exact (sound.linked there given).later (opening k)
  case made =>
    intro place k mem
    have old : .made place k ∈ s.log := List.mem_of_ne_of_mem (makes place k).symm mem
    rw [sizes, forests]
    obtain ⟨bound, inside, built⟩ := sound.made old
    exact ⟨bound, inside, built.later (opening k)⟩
  case all =>
    intro place there
    rw [sizes] at there
    obtain ⟨k, mem⟩ := sound.all place there
    exact ⟨k, List.mem_cons_of_mem _ mem⟩

/-- An engine that goes on with its bindings. -/
theorem bindings_ite {e : Engine} (same : e.bindings = (s.engine i).bindings) (j : Nat) :
    (if j = i then e else s.engine j).bindings = (s.engine j).bindings := by
  split
  · next here => rw [same, here]
  · rfl

theorem grants_ite {e : Engine}
    (same : ∀ env, (e.world.environment env).grants = (s.environment ⟨i, env⟩).grants)
    (place : Place) :
    (if place.engine = i then e.world.environment place.env else s.environment place).grants =
      (s.environment place).grants := by
  split
  · next here => rw [same, ← here]
  · rfl

/-- A name is bound in an engine. -/
theorem Sound.grant (sound : s.Sound) (i : Nat) (name : String) (binding : Binding) :
    (s.withEngine i ((s.engine i).grant name binding) (.granted i name binding)).Sound := by
  refine sound.withEngine ((sound.reached i).grant name binding) rfl (fun _ => rfl) nofun nofun
    (fun j other => ?_) fun place other => ?_
  · rw [lastGrant, ← sound.bindings j other]
    by_cases same : j = i
    · subst same
      rw [if_pos rfl, Engine.grant, Bindings.resolve?_bind]
      exact if_congr (and_iff_right rfl).symm rfl rfl
    · rw [if_neg same, if_neg fun both => same both.1]
  · rw [grants_ite fun _ => rfl]
    exact sound.grants place other

/-- A name is bound in an environment. -/
theorem Sound.grantIn (sound : s.Sound) (name : String) (binding : Binding)
    (there : place.env < s.size place.engine) :
    (s.withEngine place.engine ((s.engine place.engine).grantIn place.env name binding)
      (.grantedIn place name binding)).Sound := by
  have changed (env : EnvId) :=
    (s.engine place.engine).world.environment_modifyEnvironment place.env env fun e =>
      { e with grants := e.grants.bind name binding }
  refine sound.withEngine ((sound.reached _).grantIn _ name binding) Array.size_modify
    (fun env => ?_) nofun nofun (fun j other => ?_) fun other name' => ?_
  · rw [Engine.grantIn, changed]
    split <;> rfl
  · have same : ((s.engine place.engine).grantIn place.env name binding).bindings =
        (s.engine place.engine).bindings := rfl
    rw [bindings_ite same]
    exact sound.bindings j other
  · rw [lastGrantIn, ← sound.grants other name']
    split
    · next same =>
      rw [Engine.grantIn, changed, environment, same]
      by_cases here : place.env = other.env
      · obtain rfl : other = place := Place.ext same here.symm
        rw [if_pos ⟨rfl, there⟩, Bindings.resolve?_bind]
        exact if_congr (and_iff_right rfl).symm rfl rfl
      · have apart : other ≠ place := fun same => here (congrArg Place.env same.symm)
        rw [if_neg fun both => here both.1, if_neg fun both => apart both.1]
    · next differs =>
      rw [if_neg fun both => differs (congrArg Place.engine both.1)]

/-- Nothing is bound. -/
theorem Sound.work (sound : s.Sound) (i : Nat) {e : Engine} (works : (s.engine i).Works e) :
    (s.withEngine i e .other).Sound := by
  have same := works.sameBindings (sound.reached i)
  refine sound.withEngine (works.reached (sound.reached i)) same.size same.forest nofun nofun
    (fun j other => ?_) fun place other => ?_
  · rw [bindings_ite works.bindings]
    exact sound.bindings j other
  · rw [grants_ite same.grants]
    exact sound.grants place other

theorem size_withEnvironment (forest : Forest) (entry : Option String) (j : Nat) :
    (s.withEnvironment i forest entry k).size j = if j = i then s.size i + 1 else s.size j := by
  rw [withEnvironment, size_withEngine]
  split
  · exact Array.size_push _
  · rfl

theorem environment_withEnvironment (forest : Forest) (entry : Option String) (place : Place) :
    (s.withEnvironment i forest entry k).environment place =
      if place = ⟨i, s.size i⟩ then
        ⟨forest, entry, .empty, (s.engine i).broker, (s.engine i).agent, (s.engine i).options, [], none⟩
      else s.environment place := by
  obtain ⟨j, env⟩ := place
  rw [withEnvironment, environment_withEngine]
  by_cases here : j = i
  · subst here
    rw [if_pos rfl]
    refine (World.environment_newEnvironment _ _ env).trans (if_congr ?_ rfl rfl)
    exact ⟨fun same => same ▸ rfl, congrArg Place.env⟩
  · rw [if_neg here, if_neg fun same => here (congrArg Place.engine same)]

/-- The places of the environments with one more of them. -/
theorem lt_size_withEnvironment (forest : Forest) (entry : Option String) :
    place.env < (s.withEnvironment i forest entry k).size place.engine ↔
      place = ⟨i, s.size i⟩ ∨ place.env < s.size place.engine := by
  obtain ⟨j, env⟩ := place
  rw [size_withEnvironment, Place.mk.injEq]
  by_cases here : j = i
  · subst here
    rw [if_pos rfl, eq_self, true_and]
    exact Nat.lt_succ_iff_lt_or_eq.trans or_comm
  · rw [if_neg here]
    exact ⟨.inr, fun either => either.resolve_left fun both => here both.1⟩

/-- An environment is made, in which nothing is granted yet. -/
theorem Sound.environment (sound : s.Sound) (i : Nat) {forest : Forest} (entry : Option String)
    (gives : s.Gives k forest) : (s.withEnvironment i forest entry k).Sound := by
  obtain ⟨bound, built⟩ := gives.built sound
  have opening (k' : Nat) (name : String) :
      boundAtOpening k' name (s.withEnvironment i forest entry k).log =
        boundAtOpening k' name s.log := rfl
  constructor
  case reached =>
    intro j
    rw [withEnvironment, engine_withEngine]
    split
    · obtain ⟨b, registered, linked⟩ := built.linked
      exact (sound.reached i).newEnvironment entry registered linked
    · exact sound.reached j
  case bindings =>
    intro j name
    rw [withEnvironment, engine_withEngine]
    split
    · next same => exact same ▸ sound.bindings i name
    · exact sound.bindings j name
  case grants =>
    intro place name
    rw [environment_withEnvironment]
    refine Eq.trans ?_ (sound.grants place name)
    split
    · next same =>
      -- Nothing was ever granted at a place that is new: what is not there has no grants.
      have absent : s.environment ⟨i, s.size i⟩ = default :=
        World.environment_of_size_le (Nat.le_refl _)
      rw [same, absent]
      rfl
    · rfl
  case pending =>
    intro k' b c there found
    exact sound.pending there found
  case linked =>
    intro k' b forest there given
    exact (sound.linked there given).later (opening k')
  case made =>
    intro place k' mem
    rw [lt_size_withEnvironment, environment_withEnvironment]
    rcases List.mem_cons.mp mem with same | old
    · have here : place = ⟨i, s.size i⟩ := (Deed.made.inj same).1
      obtain rfl := (Deed.made.inj same).2
      rw [if_pos here]
      exact ⟨bound, .inl here, built.later (opening _)⟩
    · obtain ⟨bound', inside, built'⟩ := sound.made old
      have apart : place ≠ ⟨i, s.size i⟩ := by
        rintro rfl
        exact Nat.lt_irrefl _ inside
      rw [if_neg apart]
      exact ⟨bound', .inr inside, built'.later (opening _)⟩
  case all =>
    intro place there
    rcases (lt_size_withEnvironment forest entry).mp there with rfl | old
    · exact ⟨k, List.mem_cons_self⟩
    · obtain ⟨k', mem⟩ := sound.all place old
      exact ⟨k', List.mem_cons_of_mem _ mem⟩

/-! ### Builders -/

/-- The builders with one more of them. -/
theorem getElem?_withOpening {b : ScriptBuilder} (there : (s.withOpening i).builders[k]? = some b) :
    (k < s.builders.length ∧ s.builders[k]? = some b) ∨
      k = s.builders.length ∧ b = .start (s.engine i) := by
  rw [withOpening, List.getElem?_append] at there
  split at there
  · next bound => exact .inl ⟨bound, there⟩
  · next outside =>
    rw [List.getElem?_singleton] at there
    split at there
    · next last => exact .inr ⟨by omega, (Option.some.inj there).symm⟩
    · cases there

/-- A builder is opened, with the bindings of its engine. -/
theorem Sound.opening (sound : s.Sound) (i : Nat) : (s.withOpening i).Sound := by
  have old {k : Nat} (bound : k < s.builders.length) (name : String) :
      boundAtOpening k name (s.withOpening i).log = boundAtOpening k name s.log :=
    boundAtOpening_cons (fun _ same => Nat.ne_of_gt bound (Deed.opened.inj same).1) s.log
  constructor
  case reached => exact sound.reached
  case bindings => exact sound.bindings
  case grants => exact sound.grants
  case pending =>
    intro k b c there found
    rcases getElem?_withOpening there with ⟨bound, there⟩ | ⟨rfl, rfl⟩
    · have known := sound.pending there found
      exact ⟨known.1, fun name => (known.2 name).trans (old bound name).symm⟩
    · -- This is the moment at which the bindings of the engine are copied.
      obtain rfl := Option.some.inj found
      refine ⟨.start _ _, fun name => (sound.bindings i name).trans ?_⟩
      rw [withOpening, boundAtOpening, if_pos rfl]
  case linked =>
    intro k b forest there given
    rcases getElem?_withOpening there with ⟨bound, there⟩ | ⟨rfl, rfl⟩
    · exact (sound.linked there given).later (old bound)
    · cases given
  case made =>
    intro place k mem
    have differs : Deed.made place k ≠ .opened s.builders.length i := nofun
    obtain ⟨bound, inside, built⟩ := sound.made (List.mem_of_ne_of_mem differs mem)
    refine ⟨?_, inside, built.later (old bound)⟩
    rw [withOpening, List.length_append]
    exact Nat.lt_add_right _ bound
  case all =>
    intro place inside
    obtain ⟨k, mem⟩ := sound.all place inside
    exact ⟨k, List.mem_cons_of_mem _ mem⟩

theorem getElem?_withBuilder {j : Nat} {b c : ScriptBuilder}
    (there : (s.withBuilder k b).builders[j]? = some c) :
    (j = k ∧ c = b) ∨ s.builders[j]? = some c := by
  rw [withBuilder, List.getElem?_set] at there
  split at there
  · next here =>
    split at there
    · exact .inl ⟨here.symm, (Option.some.inj there).symm⟩
    · cases there
  · exact .inr there

/-- A builder goes on with the bindings that it was opened with. -/
theorem Sound.withBuilder (sound : s.Sound) {b b' : ScriptBuilder} (there : s.builders[k]? = some b)
    (pending : ∀ c', b'.pending = some c' → ∃ c, b.pending = some c ∧ c'.bindings = c.bindings ∧
      (c.Registered → c'.Registered))
    (linked : ∀ forest, b'.forest = some forest → b.forest = some forest ∨
      ∃ c, b.pending = some c ∧ c.finish = .ok forest) : (s.withBuilder k b').Sound := by
  have opening (k' : Nat) (name : String) : boundAtOpening k' name (s.withBuilder k b').log =
      boundAtOpening k' name s.log := rfl
  constructor
  case reached => exact sound.reached
  case bindings => exact sound.bindings
  case grants => exact sound.grants
  case pending =>
    intro k' _ c' there' found
    rcases getElem?_withBuilder there' with ⟨rfl, rfl⟩ | there'
    · obtain ⟨c, found', same, registers⟩ := pending _ found
      obtain ⟨registered, known⟩ := sound.pending there found'
      exact ⟨registers registered, fun name => same ▸ known name⟩
    · exact sound.pending there' found
  case linked =>
    intro k' _ forest there' given
    rcases getElem?_withBuilder there' with ⟨rfl, rfl⟩ | there'
    · rcases linked _ given with given | ⟨c, found, finished⟩
      · exact (sound.linked there given).later (opening _)
      · obtain ⟨registered, known⟩ := sound.pending there found
        obtain ⟨rfl, -⟩ := ForestBuilder.eq_of_finish finished
        exact ⟨⟨c, registered, finished⟩, known⟩
    · exact (sound.linked there' given).later (opening _)
  case made =>
    intro place k' mem
    have differs : Deed.made place k' ≠ .other := nofun
    obtain ⟨bound, inside, built⟩ := sound.made (List.mem_of_ne_of_mem differs mem)
    refine ⟨?_, inside, built.later (opening _)⟩
    rw [Engines.withBuilder, List.length_set]
    exact bound
  case all =>
    intro place inside
    obtain ⟨k', mem⟩ := sound.all place inside
    exact ⟨k', List.mem_cons_of_mem _ mem⟩

/-! ## Every step -/

/-- What is bound is as the record says, whatever is done next. -/
theorem Step.sound (step : s.Step s') (sound : s.Sound) : s'.Sound := by
  cases step with
  | grant i name binding => exact sound.grant i name binding
  | grantIn place name binding there => exact sound.grantIn name binding there
  | work i works => exact sound.work i works
  | opening i => exact sound.opening i
  | load name source there =>
    exact sound.withBuilder there (fun _ => ScriptBuilder.exists_of_pending_register)
      fun forest given => .inl (ScriptBuilder.forest_register _ name source ▸ given)
  | @link k b there =>
    rcases b.link_cases with same | ⟨c, found, spent, finished⟩
    · rw [same]
      exact sound.withBuilder there (fun c found => ⟨c, found, rfl, id⟩) fun _ => .inl
    · apply sound.withBuilder there
      · intro c' found'
        rw [spent] at found'
        cases found'
      · intro forest given
        rw [finished] at given
        cases result : c.finish with
        | error error =>
          rw [result] at given
          cases given
        | ok forest' =>
          rw [result] at given
          exact .inr ⟨c, found, Option.some.inj given ▸ result⟩
  | environment i entry gives => exact sound.environment i entry gives

theorem Reached.sound {options : Nat → Options} (reached : Reached options s) : s.Sound := by
  induction reached with
  | refl => exact sound_start options
  | tail _ step ih => exact step.sound ih

/-- Nothing is struck from the record, and a builder is opened once. -/
theorem Step.log_eq (step : s.Step s') (bound : k < s.builders.length) :
    k < s'.builders.length ∧
      ∃ deed, s'.log = deed :: s.log ∧ ∀ engine, deed ≠ .opened k engine := by
  cases step with
  | opening i =>
    refine ⟨?_, _, rfl, fun engine same => Nat.ne_of_gt bound (Deed.opened.inj same).1⟩
    rw [withOpening, List.length_append]
    exact Nat.lt_add_right _ bound
  | load | link =>
    refine ⟨?_, _, rfl, nofun⟩
    rw [withBuilder, List.length_set]
    exact bound
  | grant | grantIn | work | environment => exact ⟨bound, _, rfl, nofun⟩

/-- What a builder was opened with is as it was, whatever is done. -/
theorem log_eq_of_steps (steps : ReflTransGen Step s s') (bound : k < s.builders.length) :
    k < s'.builders.length ∧ ∃ new, s'.log = new ++ s.log ∧
      ∀ name, boundAtOpening k name s'.log = boundAtOpening k name s.log := by
  induction steps with
  | refl => exact ⟨bound, [], rfl, fun _ => rfl⟩
  | tail _ step ih =>
    -- The builder is numbered below the length, so none that is opened later has its number.
    obtain ⟨bound, new, log, same⟩ := ih
    obtain ⟨bound', deed, log', apart⟩ := step.log_eq bound
    refine ⟨bound', deed :: new, by rw [log', log]; rfl, fun name => ?_⟩
    rw [log', boundAtOpening_cons apart]
    exact same name

/-- Only what is granted in an environment counts there. -/
theorem lastGrantIn_append {new log : List Deed}
    (none : ∀ binding, .grantedIn place name binding ∉ new) :
    lastGrantIn place name (new ++ log) = lastGrantIn place name log := by
  induction new with
  | nil => rfl
  | cons deed new ih =>
    have rest := ih fun binding mem => none binding (List.mem_cons_of_mem _ mem)
    cases deed with
    | grantedIn place' name' binding =>
      rw [List.cons_append, lastGrantIn, if_neg, rest]
      rintro ⟨rfl, rfl⟩
      exact none binding List.mem_cons_self
    | _ => exact rest

/-- What a name means in an environment. -/
theorem Sound.resolve?_environment (sound : s.Sound) (made : .made place k ∈ s.log)
    (name : String) : (s.environment place).resolve? name =
      (lastGrantIn place name s.log).orElse fun _ => boundAtOpening k name s.log := by
  rw [Environment.resolve?, sound.grants, (sound.made made).2.2.resolve?]

/-- Grants are isolated. Engines bind names as they were granted last, and every environment was
made over a forest of some builder. A name from outside means there what it was granted for last in
this environment, or else what the engine of the builder had for it when the builder was opened, or
else what is always there. Whatever is done with engines, builders and environments, it means the
same until it is granted in this environment again. Nor does an evaluation change what is bound,
from one wait to the next. -/
theorem isolated {options : Nat → Options} (reached : Reached options s) :
    (∀ i name, (s.engine i).bindings.resolve? name = lastGrant i name s.log) ∧
    (∀ place, place.env < s.size place.engine → ∃ k, .made place k ∈ s.log) ∧
    (∀ place k name, .made place k ∈ s.log →
      (s.environment place).resolve? name =
        (lastGrantIn place name s.log).orElse (fun _ => boundAtOpening k name s.log) ∧
      (∀ w, (s.engine place.engine).world.SameBindings w →
        Eval.lookupGlobal name place.env w =
          ((s.environment place).resolve? name).elim (Eval.builtinNamed name) (Eval.bound name)
            place.env w) ∧
      ∀ s', ReflTransGen Step s s' → ∃ new, s'.log = new ++ s.log ∧
        ((∀ binding, .grantedIn place name binding ∉ new) →
          (s'.environment place).resolve? name = (s.environment place).resolve? name)) ∧
    ∀ i env levels (α : Type) (goal : Goal α), goal.Suits (s.engine i).world →
      (goal.run levels env (s.engine i).world).KeepsBindings (s.engine i).world := by
  have sound := reached.sound
  refine ⟨sound.bindings, sound.all,
    fun place k name made => ⟨sound.resolve?_environment made name, ?_, ?_⟩, ?_⟩
  · intro w same
    rw [Eval.lookupGlobal_eq, same.resolve?]
    rfl
  · intro s' steps
    obtain ⟨-, new, log, opening⟩ := log_eq_of_steps steps (sound.made made).1
    refine ⟨new, log, fun none => ?_⟩
    have made' : .made place k ∈ s'.log := log ▸ List.mem_append_right new made
    have reached' : Reached options s' := reached.trans steps
    rw [reached'.sound.resolve?_environment made', sound.resolve?_environment made, opening, log,
      lastGrantIn_append none]
  · intro i env levels α goal suits
    exact goal.keepsBindings_run levels env suits (sound.reached i).accepted

/-- A name is bound in an engine, where it is bound anew once a builder is opened, and then in one
of two environments over the same forest. -/
theorem isolated_of_shared_forest : ∃ (s s' : Engines) (once later here : Binding),
    Reached (fun _ => .standard) s ∧ s.log = [.made ⟨0, 1⟩ 0, .made ⟨0, 0⟩ 0, .other, .other,
      .granted 0 "x" later, .opened 0 0, .granted 0 "x" once] ∧
    s.Step s' ∧ s'.log = .grantedIn ⟨0, 1⟩ "x" here :: s.log ∧
    (s.engine 0).bindings.resolve? "x" = some later ∧
    (s.environment ⟨0, 0⟩).resolve? "x" = some once ∧
    (s'.environment ⟨0, 0⟩).resolve? "x" = some once ∧
    (s'.environment ⟨0, 1⟩).resolve? "x" = some here ∧
    Eval.lookupGlobal "print" 0 (s.engine 0).world =
      Eval.builtinNamed "print" 0 (s.engine 0).world := by
  let once : Binding := .object (.bool false)
  let later : Binding := .object (.bool true)
  let here : Binding := .remote (.brokered "x" 1)
  let s₁ := (start fun _ => .standard).withEngine 0 ((Engine.start .standard).grant "x" once)
    (.granted 0 "x" once)
  let s₂ := s₁.withOpening 0
  let s₃ := s₂.withEngine 0 ((s₂.engine 0).grant "x" later) (.granted 0 "x" later)
  let b : ScriptBuilder := .start (s₁.engine 0)
  let s₄ := s₃.withBuilder 0 (b.register "a" "").2
  let s₅ := s₄.withBuilder 0 (b.register "a" "").2.link.2
  have linked : (b.register "a" "").2.link.2.forest.isSome = true := by decide +kernel
  obtain ⟨forest, linked⟩ := Option.isSome_iff_exists.mp linked
  let s₆ := s₅.withEnvironment 0 forest none 0
  let s₇ := s₆.withEnvironment 0 (s₆.environment ⟨0, 0⟩).forest none 0
  let s₈ := s₇.withEngine 0 ((s₇.engine 0).grantIn 1 "x" here) (.grantedIn ⟨0, 1⟩ "x" here)
  have reached₅ : Reached (fun _ => .standard) s₅ :=
    ((((ReflTransGen.refl.tail (.grant 0 "x" once)).tail (.opening 0)).tail
      (.grant 0 "x" later)).tail (.load "a" "" rfl)).tail (.link rfl)
  have reached : Reached (fun _ => .standard) s₇ :=
    (reached₅.tail (.environment 0 none (.linked rfl linked))).tail
      (.environment 0 none (.shared List.mem_cons_self))
  have last : s₇.Step s₈ := .grantIn ⟨0, 1⟩ "x" here (Nat.lt_succ_self 1)
  obtain ⟨bindings, -, answers, -⟩ := isolated reached
  obtain ⟨-, -, answers', -⟩ := isolated (reached.tail last)
  have made : .made ⟨0, 0⟩ 0 ∈ s₇.log := .tail _ (.head _)
  have made' : .made ⟨0, 1⟩ 0 ∈ s₈.log := .tail _ (.head _)
  have first := (answers ⟨0, 0⟩ 0 "x" made).1
  have kept : (s₈.environment ⟨0, 0⟩).resolve? "x" = some once := by
    obtain ⟨new, log, keeps⟩ := (answers ⟨0, 0⟩ 0 "x" made).2.2 s₈ (.single last)
    have one : [Deed.grantedIn ⟨0, 1⟩ "x" here] = new := List.append_cancel_right log
    refine (keeps fun binding mem => ?_).trans first
    rw [← one, List.mem_singleton] at mem
    cases mem
  have looked := (answers ⟨0, 0⟩ 0 "print" made).2.1 _ (.of_environments rfl)
  rw [(answers ⟨0, 0⟩ 0 "print" made).1] at looked
  exact ⟨s₇, s₈, once, later, here, reached, rfl, last, rfl, bindings 0 "x", first, kept,
    (answers' ⟨0, 1⟩ 0 "x" made').1, looked⟩

end Engines

end ScriptEngine
