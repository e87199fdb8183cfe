/-!
# TOML documents

The values of a TOML document, and how its lines build up the tables of it. A table comes into being
in one place only: by a header, by dotted keys, or inline. A header may name a table that so far
only lies on the way to others.
-/

namespace ScriptEngine

mutual

/-- What a key stands for. -/
inductive TomlItem
  | string (value : String)
  | integer (value : Int)
  | float (value : Float)
  | boolean (value : Bool)
  /-- A date, a time of day, or both. -/
  | time (text : String)
  | array (items : List TomlItem)
  /-- A table written as a value. -/
  | inline (table : TomlTable)
  | table (table : TomlTable)
  /-- The tables of headers in double brackets. -/
  | tables (elements : List TomlTable)

/-- A table: whether it only lies on the way to others, whether dotted keys made it, and its
entries. -/
inductive TomlTable
  | mk (implicit dotted : Bool) (entries : List (String × TomlItem))

end

instance : Inhabited TomlTable := ⟨.mk false false []⟩
instance : Inhabited TomlItem := ⟨.boolean false⟩

namespace TomlTable

/-- Whether a table only lies on the way to others. -/
def implicit : TomlTable → Bool
  | mk implicit _ _ => implicit

/-- Whether dotted keys made a table. -/
def dotted : TomlTable → Bool
  | mk _ dotted _ => dotted

/-- The keys of a table and their items. -/
def entries : TomlTable → List (String × TomlItem)
  | mk _ _ entries => entries

/-- A table that a header or braces make. -/
def empty : TomlTable := mk false false []

/-- A table on the way to others. -/
def onTheWay (dotted : Bool) : TomlTable := mk true dotted []

/-- The table, named by a header. -/
def named (t : TomlTable) : TomlTable := mk false t.dotted t.entries

/-- The item of a key. -/
def get? (t : TomlTable) (key : String) : Option TomlItem := t.entries.lookup key

/-- The entries with an item in the place of that of a key. -/
def replace (key : String) (item : TomlItem) : List (String × TomlItem) → List (String × TomlItem)
  | [] => [(key, item)]
  | (other, old) :: rest =>
    if other == key then (key, item) :: rest else (other, old) :: replace key item rest

/-- The table with an item for a key. -/
def set (t : TomlTable) (key : String) (item : TomlItem) : TomlTable :=
  mk t.implicit t.dotted (replace key item t.entries)

/-- Changes the table at the end of a path of keys. Tables that are not there are made on the way;
dotted keys do not lead into a table that has a place of its own. -/
def enter (dotted : Bool) (f : TomlTable → Option TomlTable) :
    List String → TomlTable → Option TomlTable
  | [], t => f t
  | key :: path, t =>
    match t.get? key with
    | none => do
      let child ← enter dotted f path (onTheWay dotted)
      return t.set key (.table child)
    | some (.table child) =>
      if dotted && !child.implicit then none
      else do
        let child ← enter dotted f path child
        return t.set key (.table child)
    | some (.tables elements) => do
      let last ← elements.getLast?
      let last ← enter dotted f path last
      return t.set key (.tables (elements.dropLast ++ [last]))
    | some _ => none

/-- Changes the inline table at the end of a path of keys inside an inline table. -/
def enterInline (f : TomlTable → Option TomlTable) : List String → TomlTable → Option TomlTable
  | [], t => f t
  | key :: path, t =>
    match t.get? key with
    | none => do
      let child ← enterInline f path (onTheWay true)
      return t.set key (.inline child)
    | some (.inline child) =>
      if !child.implicit then none
      else do
        let child ← enterInline f path child
        return t.set key (.inline child)
    | some _ => none

/-- Adds a key at the end of a path to the table there: it must be new, and a table has either
dotted keys or plain ones. -/
def addKey (path : List String) (key : String) (item : TomlItem) (t : TomlTable) :
    Option TomlTable :=
  if t.dotted == path.isEmpty || (t.get? key).isSome then none else some (t.set key item)

/-- Adds a dotted key to a table. -/
def add (keys : List String) (item : TomlItem) (t : TomlTable) : Option TomlTable := do
  let key ← keys.getLast?
  t.enter true (addKey keys.dropLast key item) keys.dropLast

/-- Adds a dotted key to an inline table. -/
def addInline (keys : List String) (item : TomlItem) (t : TomlTable) : Option TomlTable := do
  let key ← keys.getLast?
  t.enterInline (addKey keys.dropLast key item) keys.dropLast

/-- The item at the end of a path of keys, if it is there. -/
def find? (t : TomlTable) : List String → Option TomlItem
  | [] => some (.table t)
  | [key] => t.get? key
  | key :: path =>
    match t.get? key with
    | some (.table child) => child.find? path
    | some (.tables elements) => elements.getLast?.bind fun last => last.find? path
    | _ => none
termination_by path => path.length

end TomlTable

/-- The lines below a header: the path of the header, whether it stood in double brackets, and the
table so far. -/
structure TomlSection where
  path : List String
  repeated : Bool
  table : TomlTable

namespace TomlSection

/-- The lines before the first header. -/
def first : TomlSection := ⟨[], false, .empty⟩

/-- Puts the table of a section under its key. -/
def place (s : TomlSection) (key : String) (parent : TomlTable) : Option TomlTable :=
  if s.repeated then
    match parent.get? key with
    | none => some (parent.set key (.tables [s.table]))
    | some (.tables elements) => some (parent.set key (.tables (elements ++ [s.table])))
    | some _ => none
  else some (parent.set key (.table s.table))

/-- The document with a section that ends. -/
def close (s : TomlSection) (root : TomlTable) : Option TomlTable :=
  match s.path.getLast? with
  | none => some s.table
  | some key => root.enter false (s.place key) s.path.dropLast

/-- The section that a header begins in a document. -/
def start (path : List String) (repeated : Bool) (root : TomlTable) : Option TomlSection := do
  let _ ← root.enter false some path.dropLast
  match root.find? path, repeated with
  | none, _ => return ⟨path, repeated, .empty⟩
  | some (.tables _), true => return ⟨path, true, .empty⟩
  | some (.table t), false =>
    if t.implicit && !t.dotted then return ⟨path, false, t.named⟩ else none
  | some _, _ => none

end TomlSection

end ScriptEngine
