import ScriptEngine.Store.Basic

/-!
# Values as text

How values show. Data shows as its own source form, except that a text alone shows as its
characters; what is nested too deep shows as three points.
-/

namespace ScriptEngine.Store

/-- How many levels of a value are shown. -/
def shownLevels : Nat := 9

/-- The text of a value by the number of levels that may still be shown. Texts are quoted if the
value is nested in another one. -/
def textOf (s : Store) : Nat → Bool → Value → String
  | 0, _, _ => "..."
  | _ + 1, _, .null => "null"
  | _ + 1, _, .unit => "()"
  | _ + 1, _, .bool true => "true"
  | _ + 1, _, .bool false => "false"
  | _ + 1, _, .number value => Decimal.scriptText value
  | _ + 1, true, .string value => Text.quoted value
  | _ + 1, false, .string value => value
  | levels + 1, _, .array id =>
    "[" ++ ", ".intercalate ((s.array id).toList.map (s.textOf levels true)) ++ "]"
  | levels + 1, _, .tuple items =>
    "(" ++ ", ".intercalate (items.map (s.textOf levels true)) ++ ")"
  | levels + 1, _, .map id =>
    match (s.map id).entries with
    | [] => "[:]"
    | entries =>
      "[" ++ ", ".intercalate (entries.map fun (key, value) =>
        Text.quoted key ++ ": " ++ s.textOf levels true value) ++ "]"
  | levels + 1, _, .entity entity =>
    "\x7b" ++ ", ".intercalate ((s.members entity).map fun (name, value) =>
      name ++ ": " ++ s.textOf levels true value) ++ "\x7d"
  | _ + 1, _, .function id => (s.function id).text
  | _ + 1, _, .external ref => "<" ++ s.hostTypeName ref ++ ">"
  | _ + 1, _, .hostClass ref =>
    match s.classes[ref]? with
    | some hostClass => "<class " ++ hostClass.name ++ ">"
    | none => "<class>"
  | _ + 1, _, .promise _ => "<promise>"
  | levels + 1, _, .safe id =>
    match s.captured id with
    | .ok value => "safe(" ++ s.textOf levels true value ++ ")"
    | .error panic => "safe(" ++ panic.code.text ++ ")"
  | _ + 1, _, .space _ => "<namespace>"

/-- Whether a map is among what a value shows, by the number of levels that may still be shown. -/
def shows (s : Store) (map : MapId) : Nat → Value → Bool
  | levels + 1, .array id => (s.array id).toList.any (s.shows map levels)
  | levels + 1, .tuple items => items.any (s.shows map levels)
  | levels + 1, .map id =>
    id == map || (s.map id).entries.any fun (_, value) => s.shows map levels value
  | levels + 1, .entity entity =>
    (s.members entity).any fun (_, value) => s.shows map levels value
  | levels + 1, .safe id =>
    match s.captured id with
    | .ok value => s.shows map levels value
    | .error _ => false
  | _, _ => false

/-- How a value shows. -/
def display (s : Store) (value : Value) : String :=
  s.textOf shownLevels false value

/-- How a value shows in the report of a mismatch: its kind, and the value as a nested one. -/
def report (s : Store) (value : Value) : String :=
  value.typeName ++ "(" ++ s.textOf shownLevels true value ++ ")"

/-- The key that a value stands for in a map: a text itself, and the text of any other value. -/
def keyOf (s : Store) (value : Value) : String :=
  s.display value

/-- How several values show, with a blank between them. -/
def displayAll (s : Store) (values : List Value) : String :=
  " ".intercalate (values.map s.display)

end ScriptEngine.Store
