import ScriptEngine.Decimal.Text
import ScriptEngine.Text.Quoted

/-!
# Values of the host

The data that crosses the border between a script and its host, and the errors of host calls. An
object of the host is known by its number in a table of objects.
-/

namespace ScriptEngine

/-- The number of a host object. -/
abbrev HostRef := Nat

/-- A value of the host. The entries of a map stand in the order of their insertion. -/
inductive HostValue
  | null
  | bool (value : Bool)
  | number (value : Float)
  | string (value : String)
  | list (items : List HostValue)
  | map (entries : List (String × HostValue))
  | object (ref : HostRef)
deriving Repr, Inhabited

namespace HostValue

/-- The name of the kind of a value; `typeName` names the objects. -/
def kindName (typeName : HostRef → String) : HostValue → String
  | .null => "null"
  | .bool _ => "bool"
  | .number _ => "number"
  | .string _ => "string"
  | .list _ => "list"
  | .map _ => "map"
  | .object ref => typeName ref

mutual

/-- The text of a value with the names of all kinds; `typeName` names the objects. -/
def text (typeName : HostRef → String) : HostValue → String
  | .null => "Null"
  | .bool true => "Bool(true)"
  | .bool false => "Bool(false)"
  | .number value => "Number(" ++ Decimal.plain value ++ ")"
  | .string value => "String(" ++ Text.quoted value ++ ")"
  | .list items => "List([" ++ ", ".intercalate (texts typeName items) ++ "])"
  | .map entries => "Map([" ++ ", ".intercalate (entryTexts typeName entries) ++ "])"
  | .object ref => "Object(<" ++ typeName ref ++ ">)"

/-- The texts of values. -/
def texts (typeName : HostRef → String) : List HostValue → List String
  | [] => []
  | item :: items => item.text typeName :: texts typeName items

/-- The texts of the entries of a map. -/
def entryTexts (typeName : HostRef → String) : List (String × HostValue) → List String
  | [] => []
  | (key, value) :: entries =>
    ("(" ++ Text.quoted key ++ ", " ++ value.text typeName ++ ")") :: entryTexts typeName entries

end

mutual

/-- Whether two values are the same: lists and maps by their contents in order, objects by their
identity, and numbers as numbers. -/
def same : HostValue → HostValue → Bool
  | .null, .null => true
  | .bool a, .bool b => a == b
  | .number a, .number b => a == b
  | .string a, .string b => a == b
  | .list a, .list b => sameItems a b
  | .map a, .map b => sameEntries a b
  | .object a, .object b => a == b
  | _, _ => false

/-- Whether two lists hold the same values. -/
def sameItems : List HostValue → List HostValue → Bool
  | [], [] => true
  | a :: as, b :: bs => same a b && sameItems as bs
  | _, _ => false

/-- Whether two maps hold the same entries. -/
def sameEntries : List (String × HostValue) → List (String × HostValue) → Bool
  | [], [] => true
  | (k, a) :: as, (l, b) :: bs => k == l && same a b && sameEntries as bs
  | _, _ => false

end

end HostValue

/-- Why a call of the host fails. -/
inductive HostError
  | noSuchMethod (typeName method : String)
  | noSuchProperty (typeName property : String)
  | argumentMismatch (method : String) (expected found : Nat)
  | notImplemented (what : String)
  | failed (message : String)
deriving Repr, DecidableEq, Inhabited

namespace HostError

/-- The wording of an error. -/
def message : HostError → String
  | .noSuchMethod typeName method => typeName ++ " has no method '" ++ method ++ "'"
  | .noSuchProperty typeName property => typeName ++ " has no property '" ++ property ++ "'"
  | .argumentMismatch method expected found =>
    "'" ++ method ++ "' expects " ++ Decimal.natText expected ++ " arguments, got " ++
      Decimal.natText found
  | .notImplemented what => "'" ++ what ++ "' is not implemented"
  | .failed message => message

/-- Fails unless a call has as many arguments as expected. -/
def checkArity (method : String) (expected : Nat) (args : List HostValue) :
    Except HostError Unit :=
  if args.length = expected then .ok () else .error (.argumentMismatch method expected args.length)

end HostError

end ScriptEngine
