import ScriptEngine.Forest.Basic

/-!
# Linking and building forests

Modules fit together if every exported name is declared, every import names a module that exports
what is imported, and no module imports itself through others. A builder collects modules one after
another; a module that cannot be added leaves it as it was.
-/

namespace ScriptEngine.Forest

/-- The first export of a module that it does not declare. -/
def undeclaredExport? (m : AnalysedModule) : Option LinkError :=
  m.tree.exports.findSome? fun (name, position) =>
    if m.analysis.declares name then none else some (.undeclaredExport m.name name position)

/-- The first import of a module that names no module, or nothing which that one exports. -/
def unmetImport? (f : Forest) (m : AnalysedModule) : Option LinkError :=
  m.tree.imports.findSome? fun (items, source, position) =>
    match f.module? source with
    | none => some (.unknownModule m.name source position)
    | some exporter =>
      items.findSome? fun item =>
        if exporter.exports.contains item.name then none
        else some (.notExported m.name source item.name position)

/-- Follows the imports from a module on. `path` names the modules on the way there and `finished`
those from which no circle is left to find; the fuel bounds the length of the way. The answer is the
finished modules after it, or else a circle. -/
def follow (f : Forest) : Nat → List String → List String → String →
    Except (List String) (List String)
  | fuel, path, finished, name =>
    if finished.contains name then .ok finished
    else if path.contains name then .error (path.dropWhile (· != name) ++ [name])
    else
      match fuel, f.module? name with
      | fuel + 1, some m => do
        let finished ← m.sources.foldlM (f.follow fuel (path ++ [name])) finished
        return name :: finished
      | _, _ => .ok finished

/-- A circle of imports, if there is one. No way without a circle passes more modules than there
are. -/
def cycle? (f : Forest) : Option (List String) :=
  match f.modules.foldlM (fun finished m => f.follow f.modules.length [] finished m.name) [] with
  | .ok _ => none
  | .error path => some path

/-- Why the modules of a forest do not fit together: undeclared exports come before imports, and
imports before circles. -/
def fault? (f : Forest) : Option LinkError :=
  (f.modules.findSome? undeclaredExport?).orElse fun _ =>
    (f.modules.findSome? f.unmetImport?).orElse fun _ =>
      f.cycle?.map .importCycle

/-- The forest itself if its modules fit together. -/
def link (f : Forest) : Except LinkError Forest :=
  match f.fault? with
  | some error => .error error
  | none => .ok f

end ScriptEngine.Forest

/-! ## Builders -/

namespace ScriptEngine

/-- The modules of a forest to be, the names that the host binds for them, and whether undeclared
names are rejected. -/
structure ForestBuilder where
  modules : List AnalysedModule
  /-- The places of the modules among the others, by their names. -/
  index : OrderedMap Nat
  bindings : Bindings
  strict : Bool

/-- Something that is done to a builder. If it fails on the way, what was done until then remains. -/
abbrev Building := ExceptT LoadError (StateM ForestBuilder)

/-- What it comes to, and the builder that it leaves. -/
def Building.run {α : Type} (x : Building α) (b : ForestBuilder) :
    Except LoadError α × ForestBuilder :=
  (StateT.run (ExceptT.run x) b).run

namespace ForestBuilder

/-- A builder without modules. -/
def start (bindings : Bindings) (strict : Bool) : ForestBuilder := ⟨[], .empty, bindings, strict⟩

/-- The builder with other names that the host binds. The modules that are there already keep their
analyses. -/
def withBindings (b : ForestBuilder) (bindings : Bindings) : ForestBuilder := { b with bindings }

/-- The builder that rejects undeclared names in the modules to come, or does not. -/
def withStrict (b : ForestBuilder) (strict : Bool) : ForestBuilder := { b with strict }

/-- Fails if there is a module of this name. -/
def requireNew (name : String) : Building Unit := do
  if (← get).index.contains name then throw (.link (.duplicateModule name))

/-- Registers a module. -/
def register (m : Module) : Building Unit := do
  requireNew m.name
  let b ← get
  match m.analyze b.bindings.names b.strict with
  | .error error => throw (.semantic error)
  | .ok analysis =>
    modify fun b => { b with index := b.index.insert m.name b.modules.length }
    modify fun b => { b with modules := b.modules ++ [⟨m, analysis⟩] }

/-- Registers the module of a source text. -/
def registerSource (name source : String) : Building Unit := do
  requireNew name
  match Module.ofSource name source with
  | .error error => throw (.source error)
  | .ok m => register m

/-- The builder after something that succeeds. -/
def after (b : ForestBuilder) (x : Building Unit) : Except LoadError ForestBuilder :=
  match x.run b with
  | (.ok (), b) => .ok b
  | (.error error, _) => .error error

/-- Adds a module. -/
def add (b : ForestBuilder) (m : Module) : Except LoadError ForestBuilder := b.after (register m)

/-- Adds the module of a source text. -/
def addSource (b : ForestBuilder) (name source : String) : Except LoadError ForestBuilder :=
  b.after (registerSource name source)

/-- The forest of the modules, if they fit together. -/
def finish (b : ForestBuilder) : Except LinkError Forest :=
  Forest.link ⟨b.modules, b.bindings⟩

end ForestBuilder

end ScriptEngine
