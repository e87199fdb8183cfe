import ScriptEngine.Forest.Builder
import ScriptEngine.Tree.Bytes

/-!
# Images of forests

What is kept of a forest outside of an engine, as bytes: the trees of its modules and its remote
calls.
-/

namespace ScriptEngine

/-- What is kept of a forest outside of an engine: the trees of its modules and its remote calls. -/
structure ForestImage where
  modules : List Module
  remotes : List (String × RemoteSpec)

namespace ForestImage

open Codec

/-- The verbs in the order of their numbers. -/
def httpMethods : List HttpMethod := [.get, .post, .put, .delete]

/-- Remote calls as bytes. -/
def remote : Codec RemoteSpec where
  write
    | .brokered target arity => tag.write 0 ++ text.write target ++ count.write arity
    | .http url method => tag.write 1 ++ text.write url ++ (choice httpMethods).write method
  read := do
    match ← tag.read with
    | 0 => return .brokered (← text.read) (← count.read)
    | 1 => return .http (← text.read) (← (choice httpMethods).read)
    | _ => failure

/-- Images as bytes. -/
def codec : Codec ForestImage where
  write image := (list TreeBytes.module).write image.modules ++
    (list (pair text remote)).write image.remotes
  read := do return ⟨← (list TreeBytes.module).read, ← (list (pair text remote)).read⟩

/-- The bytes of an image. -/
def toBytes (image : ForestImage) : List UInt8 := codec.write image

/-- The image that bytes begin with. -/
def ofBytes? (bytes : List UInt8) : Option ForestImage := (codec.read bytes).map (·.1)

/-- Builds a forest from an image; its modules are analysed and linked again. -/
def restore (image : ForestImage) (strict : Bool) : Except LoadError Forest := do
  let start := ForestBuilder.start (.ofRemotes image.remotes) strict
  let builder ← image.modules.foldlM ForestBuilder.add start
  match builder.finish with
  | .ok forest => .ok forest
  | .error error => .error (.link error)

end ForestImage

/-- The image of a forest. Objects and classes of the host are left out. -/
def Forest.image (f : Forest) : ForestImage :=
  ⟨f.modules.map (·.tree), f.bindings.remotes⟩

end ScriptEngine
