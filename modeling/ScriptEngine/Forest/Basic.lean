import ScriptEngine.Analysis.Infer
import ScriptEngine.Host.Binding
import ScriptEngine.Parse.Module

/-!
# Forests

A forest is a list of analysed modules that import from one another, with the names that the host
binds for all of them.
-/

namespace ScriptEngine

/-- A module and the findings about it. -/
structure AnalysedModule where
  tree : Module
  analysis : Analysis

namespace AnalysedModule

/-- The name of a module. -/
def name (m : AnalysedModule) : String := m.tree.name

/-- The exported names in the order they are written. -/
def exports (m : AnalysedModule) : List String := m.tree.exports.map (·.1)

/-- The modules that a module imports from, in the order they are written. -/
def sources (m : AnalysedModule) : List String := m.tree.imports.map fun (_, source, _) => source

end AnalysedModule

/-- Why modules do not fit together. -/
inductive LinkError
  | duplicateModule (name : String)
  | unknownModule (importer module : String) (position : Position)
  | notExported (importer module name : String) (position : Position)
  | undeclaredExport (module name : String) (position : Position)
  /-- Modules that import in a circle; the first one is named again at the end. -/
  | importCycle (path : List String)
deriving Repr, DecidableEq, Inhabited

namespace LinkError

/-- The wording of an error. -/
def message : LinkError → String
  | .duplicateModule name => "module '" ++ name ++ "' is registered twice"
  | .unknownModule importer module position =>
    importer ++ ":" ++ position.text ++ ": no module named '" ++ module ++ "'"
  | .notExported importer module name position =>
    importer ++ ":" ++ position.text ++ ": '" ++ name ++ "' is not exported by '" ++ module ++ "'"
  | .undeclaredExport module name position =>
    module ++ ":" ++ position.text ++ ": export of undeclared '" ++ name ++ "'"
  | .importCycle path => "import cycle: " ++ " -> ".intercalate path

/-- Where the fault is, if it has one place. -/
def position? : LinkError → Option Position
  | .duplicateModule _ | .importCycle _ => none
  | .unknownModule _ _ position | .notExported _ _ _ position | .undeclaredExport _ _ position =>
    some position

end LinkError

/-- Why a module or a forest cannot be loaded. -/
inductive LoadError
  | source (error : SourceError)
  | semantic (error : SemanticError)
  | link (error : LinkError)
deriving Repr, Inhabited

/-- The wording of an error. -/
def LoadError.message : LoadError → String
  | .source error => error.message
  | .semantic error => error.message
  | .link error => error.message

/-- Analysed modules in the order of loading, and the names bound for all of them. -/
structure Forest where
  modules : List AnalysedModule
  bindings : Bindings

namespace Forest

/-- A forest without modules. -/
def empty : Forest := ⟨[], .empty⟩

instance : Inhabited Forest := ⟨empty⟩

/-- The module of this name. -/
def module? (f : Forest) (name : String) : Option AnalysedModule :=
  f.modules.find? fun m => m.name == name

/-- The scope of the names that the host binds. -/
def rootScope (f : Forest) : ScopeTable :=
  f.bindings.names.foldl
    (fun table name =>
      table.define ScopeTable.root ⟨name, .external, true, .unknown, .nowhere⟩) .empty

/-- The warnings about all modules, with the names of the modules. -/
def warnings (f : Forest) : List (String × Diagnostic) :=
  f.modules.flatMap fun m => m.analysis.warnings.map fun warning => (m.name, warning)

end Forest

end ScriptEngine
