import ScriptEngine.Decimal.Plain

/-!
# JSON documents

The values of JSON. An object keeps its members in the order of their keys, one for each key.
-/

namespace ScriptEngine

/-- A JSON value. -/
inductive Json
  | null
  | bool (value : Bool)
  | number (value : Float)
  | string (value : String)
  | array (items : List Json)
  | object (members : List (String × Json))
deriving Repr, Inhabited

namespace Json

/-- Members with one added, in the place of one with its key. -/
def insertMember {α : Type} (key : String) (value : α) : List (String × α) → List (String × α)
  | [] => [(key, value)]
  | (other, old) :: rest =>
    if key == other then (key, value) :: rest
    else if key < other then (key, value) :: (other, old) :: rest
    else (other, old) :: insertMember key value rest

/-- The members of an object in the order of their keys; of two with one key the last counts. -/
def sortMembers {α : Type} (members : List (String × α)) : List (String × α) :=
  members.foldl (fun sorted (key, value) => insertMember key value sorted) []

end Json

/-- Why a text is no JSON document. -/
inductive JsonFault
  | eofInValue | eofInString | eofInList | eofInObject
  | expectedValue | expectedIdent | expectedColon | expectedListEnd | expectedObjectEnd
  | keyMustBeString | trailingComma | trailingCharacters
  | invalidNumber | numberOutOfRange
  | controlCharacter | invalidEscape | loneSurrogate | unfinishedEscape
  | tooDeep
deriving Repr, DecidableEq, Inhabited

/-- The wording of a fault. -/
def JsonFault.message : JsonFault → String
  | .eofInValue => "EOF while parsing a value"
  | .eofInString => "EOF while parsing a string"
  | .eofInList => "EOF while parsing a list"
  | .eofInObject => "EOF while parsing an object"
  | .expectedValue => "expected value"
  | .expectedIdent => "expected ident"
  | .expectedColon => "expected `:`"
  | .expectedListEnd => "expected `,` or `]`"
  | .expectedObjectEnd => "expected `,` or `\x7d`"
  | .keyMustBeString => "key must be a string"
  | .trailingComma => "trailing comma"
  | .trailingCharacters => "trailing characters"
  | .invalidNumber => "invalid number"
  | .numberOutOfRange => "number out of range"
  | .controlCharacter => "control character (\\u0000-\\u001F) found while parsing a string"
  | .invalidEscape => "invalid escape"
  | .loneSurrogate => "lone leading surrogate in hex escape"
  | .unfinishedEscape => "unexpected end of hex escape"
  | .tooDeep => "recursion limit exceeded"

/-- A fault and its place: the line, and the bytes of that line before it. -/
structure JsonError where
  fault : JsonFault
  line : Nat
  column : Nat
deriving Repr, DecidableEq, Inhabited

/-- The wording of an error. -/
def JsonError.message (e : JsonError) : String :=
  e.fault.message ++ " at line " ++ Decimal.natText e.line ++ " column " ++ Decimal.natText e.column

end ScriptEngine
