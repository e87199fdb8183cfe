import ScriptEngine.Json.Basic

/-!
# Writing JSON

The compact form: no blanks, control characters escaped, whole numbers as integers.
-/

namespace ScriptEngine.Json

/-- How a character is written inside quotes. -/
def quotedChar (c : Char) : List Char :=
  match c with
  | '\x22' => ['\\', '\x22']
  | '\\' => ['\\', '\\']
  | '\x08' => ['\\', 'b']
  | '\x0c' => ['\\', 'f']
  | '\n' => ['\\', 'n']
  | '\r' => ['\\', 'r']
  | '\t' => ['\\', 't']
  | _ =>
    if c.toNat < 0x20 then
      let digits := Nat.toDigits 16 c.toNat
      ['\\', 'u'] ++ List.replicate (4 - digits.length) '0' ++ digits
    else [c]

/-- A string between quotes. -/
def quoted (text : String) : String :=
  String.ofList ('\x22' :: (text.toList.flatMap quotedChar ++ ['\x22']))

/-- A decimal in the form `d.ddde+d`, the sign of the power always written. -/
def scientific (s : Decimal.Scaled) : String :=
  let digits := Nat.toDigits 10 s.digits
  let power := s.exponent + (digits.length - 1 : Nat)
  let powerDigits := Nat.toDigits 10 power.natAbs
  let fraction := if digits.length ≤ 1 then [] else '.' :: digits.drop 1
  String.ofList (digits.take 1 ++ fraction ++ ['e', if power < 0 then '-' else '+'] ++ powerDigits)

/-- The text of a number: a whole one below `2 ^ 63` as an integer, any other with the fewest digits
that read back, the last one even if two decimals are equally near, and by its power of ten if that
is below `-5` or above `15`. A number that JSON does not know is null. -/
def numberText (x : Float) : String :=
  if x.isNaN || x.isInf then "null"
  else if x.floor == x && x.abs < 9223372036854775808.0 then
    let size := Decimal.natText x.abs.toUInt64.toNat
    if x < 0.0 then "-" ++ size else size
  else
    let mark := if x < 0.0 then "-" else ""
    let s := (Decimal.Binary.ofBits (Decimal.magnitudeBits x)).shortest .even
    let power := s.exponent + (Decimal.digitCount s.digits - 1 : Nat)
    mark ++ (if power < -5 || 15 < power then scientific s else s.plain)

mutual

/-- The compact text of a value. -/
def text : Json → String
  | .null => "null"
  | .bool true => "true"
  | .bool false => "false"
  | .number value => numberText value
  | .string value => quoted value
  | .array items => "[" ++ ",".intercalate (texts items) ++ "]"
  | .object members => "\x7b" ++ ",".intercalate (memberTexts members) ++ "\x7d"

/-- The texts of values. -/
def texts : List Json → List String
  | [] => []
  | item :: items => item.text :: texts items

/-- The texts of members. -/
def memberTexts : List (String × Json) → List String
  | [] => []
  | (key, value) :: members => (quoted key ++ ":" ++ value.text) :: memberTexts members

end

end ScriptEngine.Json
