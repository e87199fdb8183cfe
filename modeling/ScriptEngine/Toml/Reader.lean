import ScriptEngine.Decimal.Text
import ScriptEngine.Toml.Basic

/-!
# Reading TOML

A document is read line by line: comments, headers, and keys with their values.
-/

namespace ScriptEngine

/-- Reads from the front of a text, or fails. -/
abbrev TomlReader := StateT (List Char) Option

namespace TomlReader

/-! ## Characters -/

/-- The next character, if there is one. -/
def peek? : TomlReader (Option Char) := fun text => some (text.head?, text)

/-- Passes a text if it comes next: whether it did. -/
def accept (word : List Char) : TomlReader Bool := fun text =>
  if word.isPrefixOf text then some (true, text.drop word.length) else some (false, text)

/-- Passes a text, which must come next. -/
def expect (word : List Char) : TomlReader Unit := do
  if ← accept word then return () else failure

/-- The characters at the front that have a property. -/
def takeWhile (p : Char → Bool) : TomlReader (List Char) := fun text =>
  some (text.takeWhile p, text.dropWhile p)

/-- The next character, which must have a property. -/
def next (p : Char → Bool) : TomlReader Char
  | c :: rest => if p c then some (c, rest) else none
  | [] => none

/-- Blanks and tabs. -/
def isSpace (c : Char) : Bool := c = ' ' || c = '\t'

/-- Characters that may stand in texts and comments: all but the control characters other than the
tab. -/
def isShown (c : Char) : Bool := c = '\t' || (' ' ≤ c && c != '\x7f')

/-- Passes blanks and tabs. -/
def spaces : TomlReader Unit := do let _ ← takeWhile isSpace

/-- A line break: whether one comes next, which is passed. -/
def lineBreak : TomlReader Bool := do
  if ← accept ['\n'] then return true else accept ['\r', '\n']

/-- A comment up to the end of its line, if one comes next. -/
def comment : TomlReader Unit := do
  if ← accept ['#'] then
    let _ ← takeWhile isShown

/-- The rest of a line, on which nothing but a comment may stand. -/
def endOfLine : TomlReader Unit := do
  spaces
  comment
  if (← get).isEmpty || (← lineBreak) then return () else failure

/-- Blanks, comments and line breaks, as they may stand in an array; at most so many lines. -/
def gap : Nat → TomlReader Unit
  | 0 => failure
  | fuel + 1 => do
    spaces
    comment
    if ← lineBreak then gap fuel else return ()

/-- Runs a reader with the number of characters left as its fuel. -/
def fueled {α : Type} (read : Nat → TomlReader α) : TomlReader α := do
  read ((← get).length + 1)

/-! ## Texts -/

/-- The value of a hexadecimal digit. -/
def hexValue (c : Char) : Nat :=
  if c.isDigit then c.toNat - '0'.toNat
  else c.toLower.toNat - 'a'.toNat + 10

/-- A hexadecimal digit. -/
def isHexDigit (c : Char) : Bool :=
  c.isDigit || ('a' ≤ c && c ≤ 'f') || ('A' ≤ c && c ≤ 'F')

/-- The character with the code in the next so many hexadecimal digits. -/
def codePoint : Nat → Nat → TomlReader Char
  | 0, code => if code.isValidChar then return Char.ofNat code else failure
  | digits + 1, code => do codePoint digits (16 * code + hexValue (← next isHexDigit))

/-- The character that is written behind a backslash. -/
def escaped : TomlReader Char := do
  match ← next fun _ => true with
  | 'b' => return '\x08'
  | 't' => return '\t'
  | 'n' => return '\n'
  | 'f' => return '\x0c'
  | 'r' => return '\r'
  | '\x22' => return '\x22'
  | '\\' => return '\\'
  | 'u' => codePoint 4 0
  | 'U' => codePoint 8 0
  | _ => failure

/-- The characters of a text in double quotes, the first quote passed. -/
def basic : Nat → List Char → TomlReader (List Char)
  | 0, _ => failure
  | fuel + 1, read => do
    match ← next isShown with
    | '\x22' => return read.reverse
    | '\\' => basic fuel ((← escaped) :: read)
    | c => basic fuel (c :: read)

/-- The characters of a text in single quotes, the first quote passed. -/
def literal : TomlReader (List Char) := do
  let chars ← takeWhile fun c => isShown c && c != '\''
  expect ['\'']
  return chars

/-- What closes a text of several lines: three quotes, before which two more belong to the text. -/
def closing (quote : Char) : TomlReader (Option (List Char)) := do
  let three := [quote, quote, quote]
  if ← accept (quote :: quote :: three) then return some [quote, quote]
  else if ← accept (quote :: three) then return some [quote]
  else if ← accept three then return some []
  else return none

/-- Whether a line ends behind the blanks that come next. -/
def lineEnds (text : List Char) : Bool :=
  match text.dropWhile isSpace with
  | '\n' :: _ | '\r' :: '\n' :: _ => true
  | _ => false

/-- Blanks and line breaks, at most so many. -/
def blankLines : Nat → TomlReader Unit
  | 0 => failure
  | fuel + 1 => do
    spaces
    if ← lineBreak then blankLines fuel else return ()

/-- The characters of a text of several lines between quotes of one kind; a backslash means
something between double quotes only. At the end of a line it takes away the blanks up to the next
character. -/
def lines (quote : Char) : Nat → List Char → TomlReader (List Char)
  | 0, _ => failure
  | fuel + 1, read => do
    match ← closing quote with
    | some last => return read.reverse ++ last
    | none =>
      if ← lineBreak then lines quote fuel ('\n' :: read)
      else
        let c ← next isShown
        if c = '\\' && quote = '\x22' then
          if lineEnds (← get) then
            blankLines fuel
            lines quote fuel read
          else lines quote fuel ((← escaped) :: read)
        else lines quote fuel (c :: read)

/-- A text of several lines, whose first line break does not count, the quotes passed. -/
def multiline (quote : Char) : TomlReader (List Char) := do
  let _ ← lineBreak
  fueled fun fuel => lines quote fuel []

/-- A text in quotes, the next character being one. -/
def string : TomlReader String := do
  let chars ←
    if ← accept ['\x22', '\x22', '\x22'] then multiline '\x22'
    else if ← accept ['\'', '\'', '\''] then multiline '\''
    else if ← accept ['\x22'] then fueled fun fuel => basic fuel []
    else
      expect ['\'']
      literal
  return String.ofList chars

/-! ## Keys -/

/-- A character of a key without quotes. -/
def isKeyChar (c : Char) : Bool :=
  c.isAlphanum || c = '_' || c = '-'

/-- One part of a key: a bare word, or a text of one line in quotes. -/
def simpleKey : TomlReader String := do
  if ← accept ['\x22'] then return String.ofList (← fueled fun fuel => basic fuel [])
  else if ← accept ['\''] then return String.ofList (← literal)
  else
    let chars ← takeWhile isKeyChar
    if chars.isEmpty then failure else return String.ofList chars

/-- The parts of a key; at most so many. -/
def keyParts : Nat → TomlReader (List String)
  | 0 => failure
  | fuel + 1 => do
    spaces
    let first ← simpleKey
    spaces
    if ← accept ['.'] then return first :: (← keyParts fuel) else return [first]

/-- How deep values may be nested, and how many parts a key may have. -/
def nesting : Nat := 79

/-- A dotted key. -/
def key : TomlReader (List String) := keyParts nesting

/-! ## Numbers and times -/

/-- Digits, between two of which an underscore may stand; at most so many more. -/
def moreDigits (isDigit : Char → Bool) : Nat → TomlReader (List Char)
  | 0 => failure
  | fuel + 1 => do
    let digits ← takeWhile isDigit
    match ← get with
    | '_' :: c :: rest =>
      if isDigit c && !digits.isEmpty then
        set (c :: rest)
        return digits ++ (← moreDigits isDigit fuel)
      else failure
    | ['_'] => failure
    | _ => return digits

/-- At least one digit. -/
def digits (isDigit : Char → Bool) : TomlReader (List Char) := do
  let read ← fueled fun fuel => moreDigits isDigit fuel
  if read.isEmpty then failure else return read

/-- The value of digits to a base. -/
def valueOf (base : Nat) (digits : List Char) : Nat :=
  digits.foldl (fun value c => base * value + hexValue c) 0

/-- A sign. -/
def sign : TomlReader Bool := do
  if ← accept ['-'] then return true
  else
    let _ ← accept ['+']
    return false

/-- The digits of a decimal integer, which begin with a zero only if that is all. -/
def wholeDigits : TomlReader (List Char) := do
  if ← accept ['0'] then return ['0'] else digits Char.isDigit

/-- An integer of 64 bits. -/
def bounded (value : Int) : TomlReader TomlItem :=
  let bound : Int := Nat.pow 2 63
  if -bound ≤ value && value < bound then return .integer value else failure

/-- The part of a number behind its point, if it has one. -/
def fraction : TomlReader (Option (List Char)) := do
  if ← accept ['.'] then return some (← digits Char.isDigit) else return none

/-- The exponent of a number, if it has one. -/
def exponent : TomlReader (Option (Bool × List Char)) := do
  if (← accept ['e']) || (← accept ['E']) then
    let negative ← sign
    return some (negative, ← digits Char.isDigit)
  else return none

/-- A decimal number. -/
def decimal : TomlReader TomlItem := do
  let negative ← sign
  if ← accept "inf".toList then return .float (if negative then -1.0 / 0.0 else 1.0 / 0.0)
  else if ← accept "nan".toList then return .float (0.0 / 0.0)
  else
    let whole ← wholeDigits
    match ← fraction, ← exponent with
    | none, none =>
      let value : Int := valueOf 10 whole
      bounded (if negative then -value else value)
    | part, power =>
      let (down, power) := power.getD (false, [])
      let size := (Decimal.Numeral.mk whole (part.getD []) down power).toFloat
      if size.isInf && !negative then failure
      else return .float (if negative then -size else size)

/-- A number of so many digits within bounds. -/
def fixed (size low high : Nat) : TomlReader Nat := do
  let digits := (← get).take size
  if digits.length = size && digits.all Char.isDigit && low ≤ valueOf 10 digits &&
      valueOf 10 digits ≤ high then
    modify (·.drop size)
    return valueOf 10 digits
  else failure

/-- The number of days of a month. -/
def daysOf (year month : Nat) : Nat :=
  if month = 2 then
    if year % 4 = 0 && (year % 100 != 0 || year % 400 = 0) then 29 else 28
  else if [4, 6, 9, 11].contains month then 30
  else 31

/-- A time of day. -/
def timeOfDay : TomlReader Unit := do
  let _ ← fixed 2 0 23
  expect [':']
  let _ ← fixed 2 0 59
  expect [':']
  let _ ← fixed 2 0 60
  if ← accept ['.'] then
    if (← takeWhile Char.isDigit).isEmpty then failure

/-- How far a time is from universal time, if that is said. -/
def offset : TomlReader Unit := do
  if (← accept ['Z']) || (← accept ['z']) then return ()
  else if (← accept ['+']) || (← accept ['-']) then
    let _ ← fixed 2 0 23
    expect [':']
    let _ ← fixed 2 0 59
  else return ()

/-- A date. -/
def date : TomlReader Unit := do
  let year ← fixed 4 0 9999
  expect ['-']
  let month ← fixed 2 1 12
  expect ['-']
  let _ ← fixed 2 1 (daysOf year month)

/-- Whether a time of day comes next behind a mark. -/
def timeFollows (text : List Char) : Bool :=
  match text with
  | mark :: a :: b :: ':' :: _ =>
    (mark = 'T' || mark = 't' || mark = ' ') && a.isDigit && b.isDigit
  | _ => false

/-- A date, maybe with a time of day. -/
def dateAndTime : TomlReader Unit := do
  date
  if timeFollows (← get) then
    let _ ← next fun _ => true
    timeOfDay
    offset

/-- Whether a text begins with so many digits and then a mark. -/
def digitsThen (count : Nat) (mark : Char) (text : List Char) : Bool :=
  let (front, rest) := text.splitAt count
  front.length = count && front.all Char.isDigit && rest.head? = some mark

/-- What a value that begins with a digit or a sign is. -/
def numeric : TomlReader TomlItem := do
  let text ← get
  let written : TomlReader String := do
    return String.ofList (text.take (text.length - (← get).length))
  if digitsThen 4 '-' text then
    dateAndTime
    return .time (← written)
  else if digitsThen 2 ':' text then
    timeOfDay
    return .time (← written)
  else if ← accept ['0', 'x'] then bounded (valueOf 16 (← digits isHexDigit))
  else if ← accept ['0', 'o'] then bounded (valueOf 8 (← digits fun c => '0' ≤ c && c ≤ '7'))
  else if ← accept ['0', 'b'] then bounded (valueOf 2 (← digits fun c => c = '0' || c = '1'))
  else decimal

/-! ## Values -/

/-- The items of an array up to its end, at most so many. -/
def arrayItems (value : TomlReader TomlItem) : Nat → TomlReader (List TomlItem)
  | 0 => failure
  | fuel + 1 => do
    fueled gap
    if ← accept [']'] then return []
    else
      let first ← value
      fueled gap
      if ← accept [','] then return first :: (← arrayItems value fuel)
      else
        expect [']']
        return [first]

/-- A key and its value. -/
def keyValue (value : TomlReader TomlItem) : TomlReader (List String × TomlItem) := do
  let keys ← key
  expect ['=']
  spaces
  return (keys, ← value)

/-- The entries of an inline table up to its end, at most so many. -/
def inlineEntries (value : TomlReader TomlItem) : Nat → TomlTable → TomlReader TomlTable
  | 0, _ => failure
  | fuel + 1, t => do
    let (keys, item) ← keyValue value
    spaces
    match t.addInline keys item with
    | none => failure
    | some t =>
      if ← accept [','] then inlineEntries value fuel t
      else
        expect ['\x7d']
        return t

/-- A value that holds no others. -/
def scalar : TomlReader TomlItem := do
  match ← peek? with
  | some '\x22' | some '\'' => return .string (← string)
  | some 't' =>
    expect "true".toList
    return .boolean true
  | some 'f' =>
    expect "false".toList
    return .boolean false
  | _ => numeric

/-- A value; arrays and inline tables may be nested so deep. -/
def value : Nat → TomlReader TomlItem
  | 0 => scalar
  | depth + 1 => do
    if ← accept ['['] then return .array (← fueled (arrayItems (value depth)))
    else if ← accept ['\x7b'] then
      spaces
      if ← accept ['\x7d'] then return .inline .empty
      else return .inline (← fueled fun fuel => inlineEntries (value depth) fuel .empty)
    else scalar

/-! ## Documents -/

/-- The path of a header, and whether it stands in double brackets. -/
def header : TomlReader (List String × Bool) := do
  if ← accept ['[', '['] then
    let path ← key
    expect [']', ']']
    return (path, true)
  else
    expect ['[']
    let path ← key
    expect [']']
    return (path, false)

/-- Something that must be there. -/
def ofOption {α : Type} : Option α → TomlReader α
  | some found => return found
  | none => failure

/-- The lines of a document, at most so many, with the section that they belong to. -/
def document : Nat → TomlTable → TomlSection → TomlReader TomlTable
  | 0, _, _ => failure
  | fuel + 1, root, part => do
    spaces
    match ← peek? with
    | none => ofOption (part.close root)
    | some '#' | some '\n' | some '\r' =>
      endOfLine
      document fuel root part
    | some '[' =>
      let (path, repeated) ← header
      endOfLine
      let root ← ofOption (part.close root)
      document fuel root (← ofOption (TomlSection.start path repeated root))
    | some _ =>
      let (keys, item) ← keyValue (value nesting)
      endOfLine
      document fuel root { part with table := ← ofOption (part.table.add keys item) }

end TomlReader

/-- The table that a text denotes, if it is a TOML document. -/
def TomlTable.ofText? (text : String) : Option TomlTable :=
  let chars := match text.toList with
    | '\ufeff' :: chars => chars
    | chars => chars
  (TomlReader.document (chars.length + 2) .empty .first chars).map (·.1)

end ScriptEngine
