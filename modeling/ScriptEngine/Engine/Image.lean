import ScriptEngine.Engine.Basic
import ScriptEngine.Forest.Image

/-!
# Forests as bytes

A linked forest is kept as the bytes of its image and restored from them.
-/

namespace ScriptEngine

namespace Forest

/-- The bytes that keep a forest. -/
def toBytes (f : Forest) : List UInt8 := f.image.toBytes

/-- The forest that bytes keep; its modules are analysed and linked again. -/
def ofBytes (bytes : List UInt8) (strict : Bool) : Except ScriptError Forest :=
  match ForestImage.ofBytes? bytes with
  | none => .error .noImage
  | some image =>
    match image.restore strict with
    | .ok forest => .ok forest
    | .error error => .error (.load error)

end Forest

end ScriptEngine
