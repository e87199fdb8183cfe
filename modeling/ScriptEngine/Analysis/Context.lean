import ScriptEngine.Analysis.Basic

/-!
# The state of an analysis

While a tree is walked, an analysis knows the current scope, how many entities and loops it is in,
and for every open body the types of the values that may complete it.
-/

namespace ScriptEngine.Analyzing

/-- What an analysis is told: the name of the module, and whether a name that nothing declares is a
fault. -/
structure Setting where
  module : String
  strict : Bool
deriving Repr, Inhabited

/-- The number of the scope of the module itself. -/
def moduleScope : ScopeId := 1

/-- What an analysis knows at one moment. -/
structure State where
  table : ScopeTable
  current : ScopeId
  types : Std.HashMap Nat TypeExpr
  meanings : Std.HashMap Nat SymbolRef
  warnings : Array Diagnostic
  /-- The scopes of the namespaces met so far, the last one first. -/
  spaces : List (String × ScopeId)
  entityDepth : Nat
  loopDepth : Nat
  /-- For every open body, the innermost first, the types that may complete it. -/
  boundaries : List (List TypeExpr)
  /-- What was come across, the latest first. No other finding depends on it. -/
  trace : List Encounter

/-- A step of an analysis. -/
abbrev Analyzer := ReaderT Setting (StateT State (Except SemanticError))

/-- The state before the first statement: the builtins and the names bound by the host in the root,
the arguments in the scope of the module, and the body of the module open. -/
def State.start (bindings : List String) : State :=
  let entry (kind : SymbolKind) (name : String) : SymbolEntry :=
    ⟨name, kind, true, .unknown, .nowhere⟩
  let inRoot (kind : SymbolKind) (table : ScopeTable) (name : String) : ScopeTable :=
    table.define ScopeTable.root (entry kind name)
  let root := bindings.foldl (inRoot .external) (builtinNames.foldl (inRoot .builtin) .empty)
  let table := (root.push ScopeTable.root .module).2
  { table :=
      table.define moduleScope ⟨argsName, .variable, true, .array .unknown, .nowhere⟩
    current := moduleScope
    types := ∅
    meanings := ∅
    warnings := #[]
    spaces := []
    entityDepth := 0
    loopDepth := 0
    boundaries := [[]]
    trace := .declared moduleScope argsName ::
      (builtinNames ++ bindings).map (.declared ScopeTable.root) }

/-- Rejects the module. -/
def fail {α : Type} (fault : SemanticFault) (position : Position) : Analyzer α := do
  throw ⟨fault, (← read).module, position⟩

/-- Records a warning. -/
def warn (warning : Warning) (position : Position) : Analyzer Unit :=
  modify fun s => { s with warnings := s.warnings.push ⟨warning, position⟩ }

/-- Declares a name in the current scope. -/
def declare (name : String) (kind : SymbolKind) (assignable : Bool) (type : TypeExpr)
    (position : Position) : Analyzer Unit := do
  let s ← get
  match s.table.declare s.current ⟨name, kind, assignable, type, position⟩ with
  | .ok table => set { s with table, trace := .declared s.current name :: s.trace }
  | .error old => fail (.redeclared old.name old.previous) position

/-- Leaves a name that nothing declares to a run. -/
def supply (name : String) (position : Position) : Analyzer Unit :=
  modify fun s =>
    { s with
      table := s.table.define ScopeTable.root ⟨name, .unknown, true, .unknown, position⟩
      trace := .declared ScopeTable.root name :: s.trace }

/-- Changes the type of what a name means in the current scope. -/
def retype (name : String) (f : TypeExpr → TypeExpr) : Analyzer Unit :=
  modify fun s => { s with table := s.table.retype s.current name f }

/-- Keeps the type of an expression. -/
def recordType (id : Nat) (type : TypeExpr) : Analyzer Unit :=
  modify fun s => { s with types := s.types.insert id type }

/-- Keeps what a name means. -/
def recordMeaning (id : Nat) (ref : SymbolRef) : Analyzer Unit :=
  modify fun s => { s with meanings := s.meanings.insert id ref }

/-- Comes across a name whose meaning is asked for. -/
def meet (id : Nat) (name : String) : Analyzer Unit :=
  modify fun s => { s with trace := .met id name s.current :: s.trace }

/-- Comes across a name that is written and means something in this scope. -/
def meetWrite (name : String) (scope : ScopeId) (inside : Bool) : Analyzer Unit :=
  modify fun s => { s with trace := .written name scope inside :: s.trace }

/-- The current scope becomes that of a namespace. -/
def nameSpace (name : String) : Analyzer Unit :=
  modify fun s => { s with spaces := (name, s.current) :: s.spaces }

/-- Works in a new scope inside the current one. -/
def inScope {α : Type} (kind : ScopeKind) (work : Analyzer α) : Analyzer α := do
  let outer := (← get).current
  modify fun s =>
    let (current, table) := s.table.push s.current kind
    { s with table, current }
  let result ← work
  modify ({ · with current := outer })
  return result

/-- Works in the members of an entity. -/
def inEntity {α : Type} (work : Analyzer α) : Analyzer α := do
  modify fun s => { s with entityDepth := s.entityDepth + 1 }
  let result ← inScope .entity work
  modify fun s => { s with entityDepth := s.entityDepth - 1 }
  return result

/-- Works in the body of a loop. -/
def inLoop {α : Type} (work : Analyzer α) : Analyzer α := do
  modify fun s => { s with loopDepth := s.loopDepth + 1 }
  let result ← work
  modify fun s => { s with loopDepth := s.loopDepth - 1 }
  return result

/-- Works where no loop outside may be left or continued. -/
def outsideLoops {α : Type} (work : Analyzer α) : Analyzer α := do
  let outer := (← get).loopDepth
  modify ({ · with loopDepth := 0 })
  let result ← work
  modify ({ · with loopDepth := outer })
  return result

/-- Works in a body of its own, and gives the types that may complete it besides its last value. -/
def inBoundary {α : Type} (work : Analyzer α) : Analyzer (α × List TypeExpr) := do
  modify fun s => { s with boundaries := [] :: s.boundaries }
  let result ← work
  let completions := (← get).boundaries.headD []
  modify fun s => { s with boundaries := s.boundaries.tail }
  return (result, completions)

/-- A value of this type may complete the innermost body. -/
def complete (type : TypeExpr) : Analyzer Unit :=
  modify fun s =>
    match s.boundaries with
    | [] => s
    | inner :: outer => { s with boundaries := (inner ++ [type]) :: outer }

end ScriptEngine.Analyzing
