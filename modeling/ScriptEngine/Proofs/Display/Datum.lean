import ScriptEngine.Decimal.Text
import ScriptEngine.Store.Display
import ScriptEngine.Token.Lexer

/-!
# Data and how it is written

Data is what a script can write down: null, unit, truth values, numbers, texts, arrays, tuples and
maps. A store holds a datum in a value, and the value shows as the text of the datum.

* `Datum`, `Datum.height`: data, and how deep it is nested.
* `Datum.Regular`: the data that a script can come to.
* `Store.Holds`: a value is a datum, its cells looked up in a store.
* `Datum.text`, `Store.toList_textOf`: how data is written, and that values show so.
-/

namespace ScriptEngine

/-- What a script can write down. -/
inductive Datum
  | null
  | unit
  | bool (value : Bool)
  | number (value : Float)
  | string (value : String)
  | array (items : List Datum)
  | tuple (items : List Datum)
  | map (entries : List (String × Datum))

namespace Datum

mutual

/-- How many arrays, tuples and maps stand around the innermost part. -/
def height : Datum → Nat
  | .null | .unit | .bool _ | .number _ | .string _ => 0
  | .array items | .tuple items => heightOfAll items + 1
  | .map entries => heightOfEntries entries + 1

/-- The greatest height of some data. -/
def heightOfAll : List Datum → Nat
  | [] => 0
  | d :: ds => max d.height (heightOfAll ds)

/-- The greatest height of the values of entries. -/
def heightOfEntries : List (String × Datum) → Nat
  | [] => 0
  | (_, d) :: entries => max d.height (heightOfEntries entries)

end

mutual

/-- Every number in a datum has a property. -/
def Numbers (P : Float → Prop) : Datum → Prop
  | .null | .unit | .bool _ | .string _ => True
  | .number x => P x
  | .array items | .tuple items => NumbersOfAll P items
  | .map entries => NumbersOfEntries P entries

def NumbersOfAll (P : Float → Prop) : List Datum → Prop
  | [] => True
  | d :: ds => d.Numbers P ∧ NumbersOfAll P ds

def NumbersOfEntries (P : Float → Prop) : List (String × Datum) → Prop
  | [] => True
  | (_, d) :: entries => d.Numbers P ∧ NumbersOfEntries P entries

end

mutual

/-- Tuples have two items at least, and no map has a key twice. -/
def Regular : Datum → Prop
  | .null | .unit | .bool _ | .number _ | .string _ => True
  | .array items => RegularAll items
  | .tuple items => 2 ≤ items.length ∧ RegularAll items
  | .map entries => (entries.map (·.1)).Nodup ∧ RegularEntries entries

def RegularAll : List Datum → Prop
  | [] => True
  | d :: ds => d.Regular ∧ RegularAll ds

def RegularEntries : List (String × Datum) → Prop
  | [] => True
  | (_, d) :: entries => d.Regular ∧ RegularEntries entries

end

/-- A text that is not inside of anything. -/
def isText : Datum → Bool
  | .string _ => true
  | _ => false

end Datum

/-! ## Values -/

namespace Store

mutual

/-- A value is a datum, its cells looked up in a store. -/
def Holds (s : Store) : Datum → Value → Prop
  | .null, v => v = .null
  | .unit, v => v = .unit
  | .bool b, v => v = .bool b
  | .number x, v => v = .number x
  | .string t, v => v = .string t
  | .array items, v => ∃ id, v = .array id ∧ id < s.arrays.size ∧
      s.HoldsAll items (s.array id).toList
  | .tuple items, v => ∃ values, v = .tuple values ∧ s.HoldsAll items values
  | .map entries, v => ∃ id, v = .map id ∧ id < s.maps.size ∧
      s.HoldsEntries entries (s.map id).entries

def HoldsAll (s : Store) : List Datum → List Value → Prop
  | [], values => values = []
  | d :: ds, values => ∃ v rest, values = v :: rest ∧ s.Holds d v ∧ s.HoldsAll ds rest

def HoldsEntries (s : Store) : List (String × Datum) → List (String × Value) → Prop
  | [], rows => rows = []
  | (key, d) :: entries, rows => ∃ v rest, rows = (key, v) :: rest ∧ s.Holds d v ∧
      s.HoldsEntries entries rest

end

end Store

/-! ## Texts -/

namespace Datum

mutual

/-- How a datum is written. -/
def text : Datum → List Char
  | .null => ['n', 'u', 'l', 'l']
  | .unit => ['(', ')']
  | .bool true => ['t', 'r', 'u', 'e']
  | .bool false => ['f', 'a', 'l', 's', 'e']
  | .number x => (Decimal.scriptText x).toList
  | .string t => Text.quotedChars t.toList
  | .array items => '[' :: (itemsText items ++ [']'])
  | .tuple items => '(' :: (itemsText items ++ [')'])
  | .map entries => '[' :: (entriesText entries ++ [']'])

/-- Items with commas between them. -/
def itemsText : List Datum → List Char
  | [] => []
  | d :: ds => d.text ++ moreText ds

/-- Items behind others. -/
def moreText : List Datum → List Char
  | [] => []
  | d :: ds => ',' :: ' ' :: (d.text ++ moreText ds)

/-- Entries with commas between them, or a colon if there are none. -/
def entriesText : List (String × Datum) → List Char
  | [] => [':']
  | (key, d) :: entries =>
    Text.quotedChars key.toList ++ ':' :: ' ' :: (d.text ++ moreEntriesText entries)

/-- Entries behind others. -/
def moreEntriesText : List (String × Datum) → List Char
  | [] => []
  | (key, d) :: entries =>
    ',' :: ' ' :: (Text.quotedChars key.toList ++ ':' :: ' ' :: (d.text ++ moreEntriesText entries))

end

end Datum

/-- Texts with commas between them. -/
theorem toList_intercalate_cons (t : String) (ts : List String) :
    (", ".intercalate (t :: ts)).toList =
      t.toList ++ ts.flatMap fun u => ',' :: ' ' :: u.toList := by
  induction ts generalizing t with
  | nil => simp
  | cons u ts ih =>
    rw [String.intercalate_cons_cons, String.toList_append, String.toList_append, ih]
    simp

namespace Store

variable {s : Store}

mutual

/-- A value that is a datum shows as the datum is written, if so many levels are shown. -/
theorem toList_textOf {d : Datum} {v : Value} {levels : Nat} {nested : Bool} (holds : s.Holds d v)
    (shown : d.height < levels) (inside : nested = true ∨ d.isText = false) :
    (s.textOf levels nested v).toList = d.text := by
  obtain ⟨levels, rfl⟩ : ∃ n, levels = n + 1 := ⟨levels - 1, by omega⟩
  match d with
  | .null | .unit | .bool true | .bool false | .number x =>
    obtain rfl := holds
    simp [textOf, Datum.text]
  | .string t =>
    obtain rfl := holds
    obtain rfl | no := inside
    · exact String.toList_ofList
    · cases no
  | .array items =>
    obtain ⟨id, rfl, -, holds⟩ := holds
    rw [Datum.height] at shown
    rw [textOf, String.toList_append, String.toList_append, toList_textOf_items holds (by omega)]
    simp [Datum.text]
  | .tuple items =>
    obtain ⟨values, rfl, holds⟩ := holds
    rw [Datum.height] at shown
    rw [textOf, String.toList_append, String.toList_append, toList_textOf_items holds (by omega)]
    simp [Datum.text]
  | .map [] =>
    obtain ⟨id, rfl, -, holds⟩ := holds
    have none : (s.map id).entries = [] := holds
    simp [textOf, none, Datum.text, Datum.entriesText]
  | .map ((key, d) :: entries) =>
    obtain ⟨id, rfl, -, v, rest, found, first, holds⟩ := holds
    rw [Datum.height, Datum.heightOfEntries] at shown
    have head := toList_textOf first (by omega : d.height < levels) (.inl (rfl : true = true))
    have tail := toList_textOf_moreEntries holds (by omega : _ < levels)
    rw [textOf, found]
    dsimp only
    rw [List.map_cons, String.toList_append, String.toList_append, toList_intercalate_cons,
      List.flatMap_map]
    simp [head, tail, Datum.text, Datum.entriesText, Text.quoted]

theorem toList_textOf_items {ds : List Datum} {values : List Value} {levels : Nat}
    (holds : s.HoldsAll ds values) (shown : Datum.heightOfAll ds < levels) :
    (", ".intercalate (values.map (s.textOf levels true))).toList = Datum.itemsText ds := by
  match ds with
  | [] =>
    obtain rfl : values = [] := holds
    simp [Datum.itemsText]
  | d :: ds =>
    obtain ⟨v, rest, rfl, first, holds⟩ := holds
    rw [Datum.heightOfAll] at shown
    rw [List.map_cons, toList_intercalate_cons, List.flatMap_map, Datum.itemsText,
      toList_textOf first (by omega) (.inl rfl), toList_textOf_more holds (by omega)]

theorem toList_textOf_more {ds : List Datum} {values : List Value} {levels : Nat}
    (holds : s.HoldsAll ds values) (shown : Datum.heightOfAll ds < levels) :
    (values.flatMap fun v => ',' :: ' ' :: (s.textOf levels true v).toList) =
      Datum.moreText ds := by
  match ds with
  | [] =>
    obtain rfl : values = [] := holds
    rfl
  | d :: ds =>
    obtain ⟨v, rest, rfl, first, holds⟩ := holds
    rw [Datum.heightOfAll] at shown
    rw [List.flatMap_cons, Datum.moreText, toList_textOf first (by omega) (.inl rfl),
      toList_textOf_more holds (by omega)]
    rfl

theorem toList_textOf_moreEntries {entries : List (String × Datum)} {rows : List (String × Value)}
    {levels : Nat} (holds : s.HoldsEntries entries rows)
    (shown : Datum.heightOfEntries entries < levels) :
    (rows.flatMap fun row => ',' :: ' ' :: (Text.quotedChars row.1.toList ++
        ':' :: ' ' :: (s.textOf levels true row.2).toList)) =
      Datum.moreEntriesText entries := by
  match entries with
  | [] =>
    obtain rfl : rows = [] := holds
    rfl
  | (key, d) :: entries =>
    obtain ⟨v, rest, rfl, first, holds⟩ := holds
    rw [Datum.heightOfEntries] at shown
    have head := toList_textOf first (by omega : d.height < levels) (.inl rfl)
    rw [List.flatMap_cons, Datum.moreEntriesText, toList_textOf_moreEntries holds (by omega)]
    simp [head]

end

/-- A value that is a datum nested at most eight levels deep, but no text, shows as the datum is
written. -/
theorem toList_display {d : Datum} {v : Value} (holds : s.Holds d v) (height : d.height ≤ 8)
    (notText : d.isText = false) : (s.display v).toList = d.text :=
  toList_textOf holds (Nat.lt_succ_of_le height) (.inr notText)

end Store

end ScriptEngine
