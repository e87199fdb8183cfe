import ScriptEngine.Value

/-!
# Entities

The entities of an environment stand in an arena in the order of their making. An entity may have a
base; what it lacks is looked up there, and so on along the chain of bases.
-/

namespace ScriptEngine

/-- An entity: its own members in the order of their definition, its base and its host object. -/
structure EntityRecord where
  members : OrderedMap Value
  base : Option Nat
  host : Option HostRef
deriving Repr, Inhabited

/-- The entities of an environment. -/
structure Arena where
  records : Array EntityRecord
deriving Repr, Inhabited

namespace Arena

/-- No entities. -/
def empty : Arena := ⟨#[]⟩

/-- The number of entities. -/
def size (a : Arena) : Nat := a.records.size

/-- The entity with this number. -/
def record? (a : Arena) (id : Nat) : Option EntityRecord := a.records[id]?

/-- An arena with a new entity without members, and the number of that entity. -/
def alloc (a : Arena) (base : Option Nat) : Nat × Arena :=
  (a.size, ⟨a.records.push ⟨.empty, base, none⟩⟩)

/-- The arena with one entity changed. -/
def modify (a : Arena) (id : Nat) (f : EntityRecord → EntityRecord) : Arena :=
  ⟨a.records.modify id f⟩

/-- The numbers of an entity and the bases behind it; the fuel bounds how many. -/
def chainFrom (a : Arena) : Nat → Option Nat → List Nat
  | 0, _ => []
  | _ + 1, none => []
  | fuel + 1, some id =>
    match a.record? id with
    | some record => id :: a.chainFrom fuel record.base
    | none => []

/-- The chain of bases of an entity, itself first. -/
def chain (a : Arena) (id : Nat) : List Nat :=
  a.chainFrom a.size (some id)

/-- The own member of an entity. -/
def own? (a : Arena) (id : Nat) (name : String) : Option Value :=
  (a.record? id).bind fun record => record.members.get? name

/-- A member looked up along the chain of bases, with the entity that has it. -/
def find? (a : Arena) (id : Nat) (name : String) : Option (Nat × Value) :=
  (a.chain id).findSome? fun holder => (a.own? holder name).map fun value => (holder, value)

/-- The value of a member looked up along the chain of bases. -/
def get? (a : Arena) (id : Nat) (name : String) : Option Value :=
  (a.find? id name).map (·.2)

/-- Whether an entity has a member, itself or by its bases. -/
def contains (a : Arena) (id : Nat) (name : String) : Bool :=
  (a.find? id name).isSome

/-- Gives an entity a member of its own. -/
def define (a : Arena) (id : Nat) (name : String) (value : Value) : Arena :=
  a.modify id fun record => { record with members := record.members.insert name value }

/-- Assigns a member: that of the nearest entity in the chain which has it, or else a new one of
the entity itself. -/
def set (a : Arena) (id : Nat) (name : String) (value : Value) : Arena :=
  let holder := match a.find? id name with
    | some (holder, _) => holder
    | none => id
  a.define holder name value

/-- Gives an entity a host object. -/
def attachHost (a : Arena) (id : Nat) (host : HostRef) : Arena :=
  a.modify id fun record => { record with host := some host }

/-- The base of an entity. -/
def base? (a : Arena) (id : Nat) : Option Nat :=
  (a.record? id).bind (·.base)

/-- The nearest host object in the chain of bases. -/
def host? (a : Arena) (id : Nat) : Option HostRef :=
  (a.chain id).findSome? fun holder => (a.record? holder).bind (·.host)

/-- The own members of an entity in order. -/
def members (a : Arena) (id : Nat) : List (String × Value) :=
  match a.record? id with
  | some record => record.members.entries
  | none => []

/-- The members that are no functions, along the chain of bases from its end: a member keeps the
place of its first holder there and has the value of the nearest one. An entity counts once, also in
a chain that leads back to itself. -/
def dataMembers (a : Arena) (id : Nat) : List (String × Value) :=
  let all := (a.chain id).eraseDups.reverse.flatMap a.members
  (OrderedMap.ofList (all.filter fun member => !member.2.isFunction)).entries

/-- Whether one entity is in the chain of bases of another. -/
def inChainOf (a : Arena) (id other : Nat) : Bool :=
  id == other || (a.chain other).contains id

/-- Whether two entities are one, or one of them is a base behind the other. -/
def related (a : Arena) (id other : Nat) : Bool :=
  a.inChainOf id other || a.inChainOf other id

end Arena

end ScriptEngine
