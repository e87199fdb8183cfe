import ScriptEngine.Decimal.Numeral
import ScriptEngine.Json.Basic

/-!
# Reading JSON

A strict reader. Columns count bytes. A number keeps its first digits as a 64-bit integer, which is
then scaled by powers of ten in floating point.
-/

namespace ScriptEngine.Json

/-- A place in a text. -/
structure Cursor where
  rest : List Char
  line : Nat
  column : Nat
deriving Repr, Inhabited

/-- The place behind one more byte of the character `c`, or behind `width` of them. -/
def Cursor.past (p : Cursor) (c : Char) (width : Nat) (rest : List Char) : Cursor :=
  if c = '\n' then ⟨rest, p.line + 1, 0⟩ else ⟨rest, p.line, p.column + width⟩

/-- Reads from a text. -/
abbrev Reader := StateT Cursor (Except JsonError)

/-- Fails at the place reached. -/
def failHere {α : Type} (fault : JsonFault) : Reader α := do
  let p ← get
  throw ⟨fault, p.line, p.column⟩

/-- Fails behind the next byte. -/
def failNext {α : Type} (fault : JsonFault) : Reader α := do
  let p ← get
  match p.rest with
  | [] => throw ⟨fault, p.line, p.column⟩
  | c :: _ =>
    let next := p.past c 1 []
    throw ⟨fault, next.line, next.column⟩

/-- The next character. -/
def peek? : Reader (Option Char) := return (← get).rest.head?

/-- Takes the next character. -/
def next? : Reader (Option Char) := do
  let p ← get
  match p.rest with
  | [] => return none
  | c :: rest =>
    set (p.past c c.utf8Size rest)
    return some c

/-- Passes the next character. -/
def skip : Reader Unit := do
  let _ ← next?

/-- Repeats a step until it ends with a result, at most as often as there are characters left. -/
def loop {σ α : Type} (step : σ → Reader (σ ⊕ α)) : Nat → σ → Reader α
  | 0, _ => failHere .tooDeep
  | fuel + 1, state => do
    match ← step state with
    | .inl state => loop step fuel state
    | .inr value => return value

/-- Repeats a step that takes a character in each round but the last. -/
def repeating {σ α : Type} (step : σ → Reader (σ ⊕ α)) (state : σ) : Reader α := do
  loop step ((← get).rest.length + 2) state

/-- Passes blanks and gives the character behind them. -/
def blanks : Reader (Option Char) :=
  repeating (fun (_ : Unit) => do
      match ← peek? with
      | some ' ' | some '\n' | some '\t' | some '\r' =>
        skip
        return .inl ()
      | c => return .inr c)
    ()

/-- Takes the letters of a word. -/
def letters (word : List Char) : Reader Unit :=
  word.forM fun expected => do
    match ← peek? with
    | none => failHere .eofInValue
    | some c => if c = expected then skip else failNext .expectedIdent

/-! ## Numbers -/

/-- The largest 64-bit integer. -/
def maxWord : Nat := Nat.pow 2 64 - 1

/-- The value of a decimal digit. -/
def digit? (c : Option Char) : Option Nat :=
  match c with
  | some c => if c.isDigit then some (c.toNat - '0'.toNat) else none
  | none => none

/-- The float nearest to a power of ten. -/
def tenTo (exponent : Nat) : Float := OfScientific.ofScientific 1 false exponent

/-- Scales down by steps of the largest power of ten that is a float. -/
def scaleDown : Nat → Float → Nat → Float
  | 0, x, _ => x
  | fuel + 1, x, exponent =>
    if exponent ≤ 308 then x / tenTo exponent
    else if x == 0.0 then x
    else scaleDown fuel (x / tenTo 308) (exponent - 308)

/-- The float `significand * 10 ^ exponent`, computed in floating point. -/
def scaled (positive : Bool) (significand : Nat) (exponent : Int) : Reader Float := do
  let x := Float.ofNat significand
  let size ←
    if exponent < 0 then pure (scaleDown 4 x (-exponent).toNat)
    else if exponent ≤ 308 then
      let y := x * tenTo exponent.toNat
      if y.isInf then failHere .numberOutOfRange else pure y
    else if x == 0.0 then pure x
    else failHere .numberOutOfRange
  return if positive then size else -size

/-- Passes digits. -/
def skipDigits : Reader Unit :=
  repeating (fun (_ : Unit) => do
      match digit? (← peek?) with
      | some _ =>
        skip
        return .inl ()
      | none => return .inr ())
    ()

/-- The largest power of ten that is read. -/
def maxPower : Nat := Nat.pow 2 31 - 1

/-- Reads a power of ten behind its mark. -/
def exponentPart (positive : Bool) (significand : Nat) (start : Int) : Reader Float := do
  skip
  let positivePower ← do
    match ← peek? with
    | some '+' =>
      skip
      pure true
    | some '-' =>
      skip
      pure false
    | _ => pure true
  match ← peek? with
  | none => failHere .eofInValue
  | some c =>
    match digit? (some c) with
    | none => failNext .invalidNumber
    | some first =>
      skip
      let power? ← repeating (fun power => do
          match digit? (← peek?) with
          | some d =>
            skip
            if maxPower < 10 * power + d then return .inr none else return .inl (10 * power + d)
          | none => return .inr (some power))
        first
      match power? with
      | some power =>
        scaled positive significand (if positivePower then start + power else start - power)
      | none =>
        if significand != 0 && positivePower then failHere .numberOutOfRange
        skipDigits
        return if positive then 0.0 else -0.0

/-- Ends a number with its power of ten, if it has one. -/
def numberEnd (positive : Bool) (significand : Nat) (exponent : Int) : Reader Float := do
  match ← peek? with
  | some 'e' | some 'E' => exponentPart positive significand exponent
  | _ => scaled positive significand exponent

/-- Reads the fraction of a number behind its point. Digits beyond those of a 64-bit integer are
passed. -/
def fractionPart (positive : Bool) (significand : Nat) (start : Int) : Reader Float := do
  skip
  let (significand, places, full) ← repeating (fun (significand, places) => do
      match digit? (← peek?) with
      | some d =>
        if maxWord < 10 * significand + d then return .inr (significand, places, true)
        skip
        return .inl (10 * significand + d, places + 1)
      | none => return .inr (significand, places, false))
    (significand, 0)
  if full then
    skipDigits
    numberEnd positive significand (start - places)
  else if places = 0 then
    match ← peek? with
    | some _ => failNext .invalidNumber
    | none => failNext .eofInValue
  else numberEnd positive significand (start - places)

/-- Reads the rest of an integer that no 64-bit integer holds. -/
def longInteger (positive : Bool) (significand : Nat) : Reader Float := do
  let dropped ← repeating (fun dropped => do
      match digit? (← peek?) with
      | some _ =>
        skip
        return .inl (dropped + 1)
      | none => return .inr dropped)
    0
  match ← peek? with
  | some '.' => fractionPart positive significand dropped
  | _ => numberEnd positive significand dropped

/-- Reads a number behind its sign. -/
def readNumber (positive : Bool) : Reader Float := do
  match ← peek? with
  | none => failHere .eofInValue
  | some '0' =>
    skip
    match digit? (← peek?) with
    | some _ => failNext .invalidNumber
    | none => wholeEnd 0
  | some c =>
    match digit? (some c) with
    | none => failNext .invalidNumber
    | some first =>
      skip
      let (significand, long) ← repeating (fun significand => do
          match digit? (← peek?) with
          | some d =>
            if maxWord < 10 * significand + d then return .inr (significand, true)
            skip
            return .inl (10 * significand + d)
          | none => return .inr (significand, false))
        first
      if long then longInteger positive significand else wholeEnd significand
where
  /-- Ends a number behind its whole digits. -/
  wholeEnd (significand : Nat) : Reader Float := do
    match ← peek? with
    | some '.' => fractionPart positive significand 0
    | some 'e' | some 'E' => exponentPart positive significand 0
    | _ =>
      let x := Float.ofNat significand
      return if positive then x else -x

/-! ## Strings -/

/-- The value of a hexadecimal digit. -/
def hexDigit? (c : Char) : Option Nat :=
  if c.isDigit then some (c.toNat - '0'.toNat)
  else if 'a' ≤ c ∧ c ≤ 'f' then some (c.toNat - 'a'.toNat + 10)
  else if 'A' ≤ c ∧ c ≤ 'F' then some (c.toNat - 'A'.toNat + 10)
  else none

/-- Reads four hexadecimal digits. -/
def hexCode : Reader Nat := do
  let p ← get
  match p.rest with
  | a :: b :: c :: d :: rest =>
    match hexDigit? a, hexDigit? b, hexDigit? c, hexDigit? d with
    | some a, some b, some c, some d =>
      set { p with rest, column := p.column + 4 }
      return ((a * 16 + b) * 16 + c) * 16 + d
    | _, _, _, _ => bad p
  | _ => bad p
where
  /-- Fails behind four bytes, or at the end if there are fewer. -/
  bad (p : Cursor) : Reader Nat := do
    let bytes := p.rest.foldl (fun size c => size + c.utf8Size) 0
    if bytes < 4 then
      let stop := p.rest.foldl (fun p c => p.past c c.utf8Size []) p
      throw ⟨.eofInString, stop.line, stop.column⟩
    else
      let stop := afterBytes 4 p p.rest
      throw ⟨.invalidEscape, stop.line, stop.column⟩
  /-- The place behind some bytes. -/
  afterBytes : Nat → Cursor → List Char → Cursor
    | 0, p, _ => p
    | _ + 1, p, [] => p
    | n + 1, p, c :: rest =>
      if c.utf8Size ≤ n + 1 then afterBytes (n + 1 - c.utf8Size) (p.past c c.utf8Size []) rest
      else p.past c (n + 1) []
    termination_by _ _ rest => rest.length

/-- Reads an escape by code behind its letter: one code, or two that make a pair of surrogates. -/
def codeEscape : Reader Char := do
  let first ← hexCode
  if 0xDC00 ≤ first && first ≤ 0xDFFF then failHere .loneSurrogate
  else if first < 0xD800 || 0xDBFF < first then return Char.ofNat first
  else
    pairMark '\\'
    pairMark 'u'
    let second ← hexCode
    if second < 0xDC00 || 0xDFFF < second then failHere .loneSurrogate
    else return Char.ofNat ((first - 0xD800) * 0x400 + (second - 0xDC00) + 0x10000)
where
  /-- Takes a mark that must stand between the two codes. -/
  pairMark (mark : Char) : Reader Unit := do
    match ← peek? with
    | none => failHere .eofInString
    | some c =>
      if c = mark then skip
      else
        modify fun p => p.past c 1 p.rest.tail
        failHere .unfinishedEscape

/-- Reads an escape behind its backslash. -/
def escape : Reader Char := do
  match ← next? with
  | none => failHere .eofInString
  | some '\x22' => return '\x22'
  | some '\\' => return '\\'
  | some '/' => return '/'
  | some 'b' => return '\x08'
  | some 'f' => return '\x0c'
  | some 'n' => return '\n'
  | some 'r' => return '\r'
  | some 't' => return '\t'
  | some 'u' => codeEscape
  | some c =>
    if 1 < c.utf8Size then
      modify fun p => { p with column := p.column - (c.utf8Size - 1) }
    failHere .invalidEscape

/-- Reads a string behind its opening quote. -/
def readString : Reader String :=
  repeating (fun chars => do
      match ← next? with
      | none => failHere .eofInString
      | some '\x22' => return .inr (String.ofList chars.reverse)
      | some '\\' => return .inl ((← escape) :: chars)
      | some c => if c.toNat < 0x20 then failHere .controlCharacter else return .inl (c :: chars))
    []

/-! ## Values -/

/-- Whether another item follows in a list. -/
def moreItems (first : Bool) : Reader Bool := do
  match ← blanks with
  | none => failNext .eofInList
  | some ']' => return false
  | some ',' =>
    if first then return true
    else
      skip
      match ← blanks with
      | none => failNext .eofInValue
      | some ']' => failNext .trailingComma
      | some _ => return true
  | some _ => if first then return true else failNext .expectedListEnd

/-- Whether another member follows in an object. -/
def moreMembers (first : Bool) : Reader Bool := do
  match ← blanks with
  | none => failNext .eofInObject
  | some '\x7d' => return false
  | some c =>
    if first then
      if c = '\x22' then return true else failNext .keyMustBeString
    else if c = ',' then
      skip
      match ← blanks with
      | none => failNext .eofInValue
      | some '\x22' => return true
      | some '\x7d' => failNext .trailingComma
      | some _ => failNext .keyMustBeString
    else failNext .expectedObjectEnd

/-- Reads the items of a list through its closing bracket. -/
def readItems (value : Reader Json) : Reader (List Json) :=
  repeating (fun items => do
      if ← moreItems items.isEmpty then return .inl ((← value) :: items)
      else
        skip
        return .inr items.reverse)
    []

/-- Reads the members of an object through its closing brace. -/
def readMembers (value : Reader Json) : Reader (List (String × Json)) :=
  repeating (fun members => do
      if ← moreMembers members.isEmpty then
        skip
        let key ← readString
        match ← blanks with
        | some ':' => skip
        | some _ => failNext .expectedColon
        | none => failNext .eofInObject
        return .inl ((key, ← value) :: members)
      else
        skip
        return .inr (sortMembers members.reverse))
    []

/-- Reads a value; `depth` bounds how many lists and objects it may be in. -/
def readValue : Nat → Reader Json
  | 0 => failNext .tooDeep
  | depth + 1 => do
    match ← blanks with
    | none => failNext .eofInValue
    | some 'n' =>
      skip
      letters ['u', 'l', 'l']
      return .null
    | some 't' =>
      skip
      letters ['r', 'u', 'e']
      return .bool true
    | some 'f' =>
      skip
      letters ['a', 'l', 's', 'e']
      return .bool false
    | some '-' =>
      skip
      return .number (← readNumber false)
    | some '\x22' =>
      skip
      return .string (← readString)
    | some '[' =>
      if depth = 0 then failNext .tooDeep
      skip
      return .array (← readItems (readValue depth))
    | some '\x7b' =>
      if depth = 0 then failNext .tooDeep
      skip
      return .object (← readMembers (readValue depth))
    | some c => if c.isDigit then return .number (← readNumber true) else failNext .expectedValue

/-- How many lists and objects a value may be in. -/
def maxDepth : Nat := 128

/-- Reads a document. -/
def document : Reader Json := do
  let json ← readValue maxDepth
  match ← blanks with
  | some _ => failNext .trailingCharacters
  | none => return json

/-- The value that a text denotes. -/
def ofText (text : String) : Except JsonError Json :=
  document.run' ⟨text.toList, 1, 0⟩

end ScriptEngine.Json
