import ScriptEngine.Evaluation.Run
import ScriptEngine.Proofs.Store.Entities

/-!
# Who sees a private member

A script reads a private member of an entity by its name only where the entity that it stands in is
related. Reading by position, taking apart by a pattern and going round a loop do not look at names:
whoever does so gets the own members of an entity, private ones included.

* `ReadForm`: the forms in which a script reads from an entity.
* `ReadForm.Hides`: what a form gives does not depend on the value of a member.
* `ReadForm.Opens`: a form gets as far as a member whatever its name is.
* `ReadForm.hides_of_private`: every form hides a private member unless it opens it.
* `ReadForm.answer?_positional`: what reading by position shows.
-/

namespace ScriptEngine

/-- What an evaluation ends with, if it ends without waiting. -/
def Progress.answer? {α : Type} : Progress α → Option (Except Stop α)
  | .done value _ => some (.ok value)
  | .stopped stop _ => some (.error stop)
  | .waiting .. => none

/-- What is made of the value of an evaluation depends on how it ends only. -/
theorem Eval.answer?_result {α β : Type} (x : Eval α) (g : α → β) (env : EnvId) (w : World) :
    ((do return g (← x) : Eval β) env w).answer? = (x env w).answer?.map (Except.map g) := by
  show (match x env w with
    | .done value w => Progress.done (g value) w
    | .stopped stop w => .stopped stop w
    | .waiting wait w resume => .waiting wait w fun w =>
      (resume w).bind fun value w => .done (g value) w : Progress β).answer? = _
  cases x env w <;> rfl

/-- The world with another value of a member. -/
def World.withMember (w : World) (holder : EntityRef) (name : String) (value : Value) : World :=
  { w with store := w.store.define holder name value }

/-- A form in which a script reads from an entity: a member by its name, the item under its name, the
item at a position, the parts of a pattern, or the elements that a loop visits. -/
inductive ReadForm
  | member
  | item
  | position (index : Nat)
  | pattern (p : Pattern)
  | elements

namespace ReadForm

/-- What a viewer reads from an entity; a pattern need not fit. -/
def read (m : Machine) (entity : EntityRef) (name : String) (viewer : Option EntityRef) :
    ReadForm → Eval (Option (List Value))
  | .member => do return some [← Eval.member (.entity entity) name viewer]
  | .item => do return some [← Eval.item m (.entity entity) (.string name) viewer]
  | .position index => do return some [← Eval.positional (.entity entity) index]
  | .pattern p => do
    let names ← Eval.ask (·.bindPattern p (.entity entity))
    return names.map fun names => names.map (·.2)
  | .elements => do return some (← Eval.elements m (.entity entity))

/-- What is read does not depend on the value of a member that an entity has. -/
def Hides (form : ReadForm) (m : Machine) (w : World) (entity holder : EntityRef) (name : String)
    (viewer : Option EntityRef) : Prop :=
  ∀ env value, (form.read m entity name viewer env (w.withMember holder name value)).answer? =
    (form.read m entity name viewer env w).answer?

/-- What is read from an entity by position, without a look at names, includes a member. -/
def Opens (s : Store) (entity holder : EntityRef) (name : String) : ReadForm → Prop
  | .member | .item => False
  | .position index => holder = entity ∧ (s.members entity)[index]?.map (·.1) = some name
  | .pattern p => (∃ items, p = .tuple items) ∧ s.Reaches holder (.entity entity)
  | .elements => holder = entity

variable {m : Machine} {w : World} {env : EnvId} {entity holder : EntityRef} {name : String}
  {viewer : Option EntityRef}

/-- What a stranger finds under a private name. -/
def denial (name : String) : Stop :=
  .signal (.panic ⟨.memberNotFound, "'" ++ name ++ "' is private to its entity"⟩)

/-- A stranger finds no private member, whether there is one of that name or not. -/
theorem member_of_stranger (hidden : isPrivateName name = true)
    (stranger : ∀ v ∈ viewer, w.store.related v entity = false) :
    Eval.member (.entity entity) name viewer env w = .stopped (denial name) w := by
  have refused : Eval.checkPrivate entity name viewer env w = .stopped (denial name) w := by
    have strange : (!isPrivateName name || viewer.any fun v => w.store.related v entity) = false := by
      cases viewer with
      | none => simp [hidden]
      | some v => simp [hidden, stranger v rfl]
    show (if (!(!isPrivateName name || viewer.any fun v => w.store.related v entity)) = true then
      Eval.panic _ else pure () : Eval Unit) env w = _
    rw [strange]
    rfl
  show (Eval.checkPrivate entity name viewer >>= _) env w = _
  simp only [Bind.bind, refused]

/-- A position shows the own member that stands there, whoever looks. -/
theorem answer?_positional (index : Nat) :
    (Eval.positional (.entity entity) index env w).answer? =
      some (((w.store.members entity)[index]?.map (·.2)).elim
        (.error (.signal (.panic
          (.outOfBounds (Float.ofNat index) (w.store.members entity).length)))) .ok) := by
  simp only [Eval.positional, Eval.ask, Store.positional?, Bind.bind, List.getElem?_map,
    List.length_map]
  cases (w.store.members entity)[index]? <;> rfl

/-- A form hides a private member from strangers unless it opens it. -/
theorem hides_of_private (m : Machine) (hidden : isPrivateName name = true)
    (stranger : ∀ v ∈ viewer, w.store.related v entity = false)
    (has : w.store.holder? entity name = some holder) (form : ReadForm)
    (closed : ¬ form.Opens w.store entity holder name) :
    form.Hides m w entity holder name viewer := by
  intro env value
  have stranger' : ∀ v ∈ viewer, (w.withMember holder name value).store.related v entity = false :=
    fun v mem => (Store.related_define v entity).trans (stranger v mem)
  cases form with
  | member =>
    rw [read, Eval.answer?_result, Eval.answer?_result, member_of_stranger hidden stranger,
      member_of_stranger hidden stranger']
    rfl
  | item =>
    rw [read, Eval.answer?_result, Eval.answer?_result]
    show Option.map _ (Eval.member (.entity entity) name viewer env _).answer? =
      Option.map _ (Eval.member (.entity entity) name viewer env _).answer?
    rw [member_of_stranger hidden stranger, member_of_stranger hidden stranger']
    rfl
  | position index =>
    rw [read, Eval.answer?_result, Eval.answer?_result, answer?_positional, answer?_positional]
    have own := Store.own_of_holder? has
    have here : ((w.withMember holder name value).store.members entity)[index]? =
        (w.store.members entity)[index]? := Store.getElem?_members_define own closed
    have length : ((w.withMember holder name value).store.members entity).length =
        (w.store.members entity).length := Store.length_members_define own
    rw [here, length]
  | pattern p =>
    rw [read, Eval.answer?_result, Eval.answer?_result]
    have same : (w.store.define holder name value).bindPattern p (.entity entity) =
        w.store.bindPattern p (.entity entity) := by
      cases p with
      | tuple items => exact Store.bindPattern_define _ fun reaches => closed ⟨⟨items, rfl⟩, reaches⟩
      | literal literal => rw [Store.bindPattern, Store.bindPattern, Store.equals_literal]
      | _ => rfl
    show Option.map _ (some (Except.ok ((w.store.define holder name value).bindPattern p _))) =
      Option.map _ (some (Except.ok (w.store.bindPattern p _)))
    rw [same]
  | elements =>
    rw [read, Eval.answer?_result, Eval.answer?_result]
    have same : (w.store.define holder name value).members entity = w.store.members entity :=
      Store.members_define_of_ne closed
    show Option.map _ (some (Except.ok (((w.store.define holder name value).members entity).map _))) =
      Option.map _ (some (Except.ok ((w.store.members entity).map _)))
    rw [same]

/-- A world with an entity of one private member, one over it as a base, and a third one apart. -/
def family : World :=
  { World.empty with
    store := { Store.empty with arenas := #[⟨#[
      ⟨⟨⟨#[("_age", .number 48)]⟩, by decide⟩, none, none⟩,
      ⟨⟨⟨#[("height", .number 180)]⟩, by decide⟩, some 0, none⟩,
      ⟨.empty, none, none⟩]⟩] } }

/-- Going round the heir of a private member hides it from an entity apart, as asking for it does. -/
theorem hides_of_private_family :
    isPrivateName "_age" = true ∧ (∀ v ∈ some ⟨0, 2⟩, family.store.related v ⟨0, 1⟩ = false) ∧
      family.store.holder? ⟨0, 1⟩ "_age" = some ⟨0, 0⟩ ∧
        elements.Hides ⟨Eval.goal⟩ family ⟨0, 1⟩ ⟨0, 0⟩ "_age" (some ⟨0, 2⟩) ∧
          member.Hides ⟨Eval.goal⟩ family ⟨0, 1⟩ ⟨0, 0⟩ "_age" (some ⟨0, 2⟩) := by
  have hidden : isPrivateName "_age" = true := by decide
  have stranger : ∀ v ∈ some ⟨0, 2⟩, family.store.related v ⟨0, 1⟩ = false := by
    rintro _ ⟨⟩
    rfl
  have has : family.store.holder? ⟨0, 1⟩ "_age" = some ⟨0, 0⟩ := rfl
  refine ⟨hidden, stranger, has, hides_of_private _ hidden stranger has elements ?_,
    hides_of_private _ hidden stranger has member id⟩
  show ¬ (⟨0, 0⟩ : EntityRef) = ⟨0, 1⟩
  decide

/-- Whoever reads by position, takes apart or goes round an entity gets its private members. -/
theorem shows_private_family :
    isPrivateName "_age" = true ∧ family.store.holder? ⟨0, 0⟩ "_age" = some ⟨0, 0⟩ ∧
      ((position 0).read ⟨Eval.goal⟩ ⟨0, 0⟩ "_age" none 0 family).answer? =
          some (.ok (some [.number 48])) ∧
        ((pattern (.tuple [.bind "age"])).read ⟨Eval.goal⟩ ⟨0, 0⟩ "_age" none 0 family).answer? =
            some (.ok (some [.number 48])) ∧
          (elements.read ⟨Eval.goal⟩ ⟨0, 0⟩ "_age" none 0 family).answer? =
              some (.ok (some [.tuple [.string "_age", .number 48]])) ∧
            ¬ ∀ form : ReadForm, form.Hides ⟨Eval.goal⟩ family ⟨0, 0⟩ ⟨0, 0⟩ "_age" none := by
  refine ⟨by decide, rfl, rfl, rfl, rfl, fun hides => ?_⟩
  have changed : (family.withMember ⟨0, 0⟩ "_age" .null).store.members ⟨0, 0⟩ = [("_age", .null)] := by
    simp [family, World.withMember, Store.define, Store.modifyArena, Store.members, Store.arena,
      Arena.define, Arena.modify, Arena.members, Arena.record?, OrderedMap.insert,
      Rows.insert, Rows.position?, Rows.entries]
  have same := hides (position 0) 0 .null
  rw [read, Eval.answer?_result, Eval.answer?_result, answer?_positional, changed] at same
  cases same

end ReadForm

end ScriptEngine
