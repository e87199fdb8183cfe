import ScriptEngine.Typing

/-!
# Scopes

The declarations of a module form a tree of scopes. A name means the entry of the nearest scope
outwards that holds it.
-/

namespace ScriptEngine

/-- The number of a scope in its table. -/
abbrev ScopeId := Nat

/-- What a scope belongs to. -/
inductive ScopeKind
  | root | module | block | function | entity | space
deriving Repr, DecidableEq, Inhabited

/-- What a name stands for. -/
inductive SymbolKind
  | variable | function | parameter | member | imported | space
  /-- Bound by the host. -/
  | external
  | builtin
  /-- Declared by nothing; a run has to supply it. -/
  | unknown
  /-- Declared with a value whose type is in error. -/
  | error
deriving Repr, DecidableEq, Inhabited

/-- A declaration. -/
structure SymbolEntry where
  name : String
  kind : SymbolKind
  assignable : Bool
  type : TypeExpr
  declaredAt : Position
deriving Repr, Inhabited

/-- What a name in the source was found to mean. -/
structure SymbolRef where
  scope : ScopeId
  kind : SymbolKind
deriving Repr, DecidableEq, Inhabited

/-- A scope and its declarations. -/
structure Scope where
  parent : Option ScopeId
  kind : ScopeKind
  entries : List SymbolEntry
deriving Repr, Inhabited

namespace Scope

/-- The declaration of a name. -/
def get? (s : Scope) (name : String) : Option SymbolEntry :=
  s.entries.find? fun entry => entry.name == name

/-- The scope with a declaration added, in the place of one of the same name. -/
def insert (s : Scope) (entry : SymbolEntry) : Scope :=
  if (s.get? entry.name).isSome then
    { s with entries := s.entries.map fun old => if old.name == entry.name then entry else old }
  else { s with entries := s.entries ++ [entry] }

end Scope

/-- A declaration that a new one collides with. -/
structure Redeclared where
  name : String
  previous : Position
deriving Repr, DecidableEq, Inhabited

/-- The scopes of a module; the first one is the root. -/
structure ScopeTable where
  scopes : Array Scope
deriving Repr, Inhabited

namespace ScopeTable

/-- The number of the root. -/
def root : ScopeId := 0

/-- The root alone. -/
def empty : ScopeTable := ⟨#[⟨none, .root, []⟩]⟩

/-- The number of scopes. -/
def size (t : ScopeTable) : Nat := t.scopes.size

/-- The scope with this number. -/
def scope? (t : ScopeTable) (id : ScopeId) : Option Scope := t.scopes[id]?

/-- The scope around a scope. -/
def parent? (t : ScopeTable) (id : ScopeId) : Option ScopeId :=
  (t.scope? id).bind (·.parent)

/-- A table with a new scope, and the number of that scope. -/
def push (t : ScopeTable) (parent : ScopeId) (kind : ScopeKind) : ScopeId × ScopeTable :=
  (t.size, ⟨t.scopes.push ⟨some parent, kind, []⟩⟩)

/-- The table with one scope changed. -/
def modify (t : ScopeTable) (id : ScopeId) (f : Scope → Scope) : ScopeTable :=
  ⟨t.scopes.modify id f⟩

/-- Adds a declaration, or tells which one of that scope has its name already. -/
def declare (t : ScopeTable) (id : ScopeId) (entry : SymbolEntry) :
    Except Redeclared ScopeTable :=
  match (t.scope? id).bind (·.get? entry.name) with
  | some old => .error ⟨entry.name, old.declaredAt⟩
  | none => .ok (t.modify id (·.insert entry))

/-- Adds a declaration in the place of one of that scope with its name. -/
def define (t : ScopeTable) (id : ScopeId) (entry : SymbolEntry) : ScopeTable :=
  t.modify id (·.insert entry)

/-- The first scope outwards for which `f` gives something, with what it gives; at most `fuel`
scopes are asked. -/
def search (t : ScopeTable) {α : Type} (f : Scope → Option α) : Nat → ScopeId → Option (ScopeId × α)
  | 0, _ => none
  | fuel + 1, id => do
    let scope ← t.scope? id
    match f scope with
    | some found => some (id, found)
    | none => t.search f fuel (← scope.parent)

/-- What a name means in a scope, and the scope that declares it. -/
def lookup (t : ScopeTable) (id : ScopeId) (name : String) : Option (ScopeId × SymbolEntry) :=
  t.search (·.get? name) t.size id

/-- The nearest scope outwards of this kind. -/
def enclosing (t : ScopeTable) (id : ScopeId) (kind : ScopeKind) : Option ScopeId :=
  (t.search (fun scope => if scope.kind = kind then some () else none) t.size id).map (·.1)

/-- Changes the type of what a name means in a scope. -/
def retype (t : ScopeTable) (id : ScopeId) (name : String) (f : TypeExpr → TypeExpr) : ScopeTable :=
  match t.lookup id name with
  | some (found, entry) => t.define found { entry with type := f entry.type }
  | none => t

end ScopeTable

end ScriptEngine
