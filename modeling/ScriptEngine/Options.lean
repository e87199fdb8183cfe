/-!
# Options of an engine

The limits that an engine keeps, and how strict its analysis is.
-/

namespace ScriptEngine

/-- What can be set for an engine and for every environment that it makes. -/
structure Options where
  /-- How many calls may be in progress at once in one interpreter. -/
  maxCallDepth : Nat
  workerThreads : Nat
  /-- In bytes. -/
  workerStackSize : Nat
  /-- Whether a module that reads an undeclared name is rejected. -/
  strictIdentifiers : Bool
  /-- In milliseconds. -/
  httpTimeout : Nat
deriving Repr, DecidableEq

namespace Options

/-- The options of an engine that sets none. -/
def standard : Options := ⟨256, 64, 64 * 1024 * 1024, false, 30000⟩

instance : Inhabited Options := ⟨standard⟩

end Options

end ScriptEngine
