import ScriptEngine.Decimal.Numeral
import ScriptEngine.Decimal.Plain

/-!
# Numbers of scripts

How a script shows a number, which texts it reads as one, and how it calculates with numbers.
-/

namespace ScriptEngine.Decimal

/-- The magnitude of a finite float as `mantissa * 2 ^ exponent`. -/
def magnitude (x : Float) : Nat × Int :=
  let b := Binary.ofBits (magnitudeBits x)
  (b.mantissa, b.exponent)

/-- A finite number without a fraction. -/
def isWhole (x : Float) : Bool :=
  let (mantissa, exponent) := magnitude x
  x.isFinite && mantissa % Nat.pow 2 (-exponent).toNat == 0

/-- The whole number that is left of a finite number when its fraction is cut off. -/
def wholePart (x : Float) : Int :=
  let (mantissa, exponent) := magnitude x
  let size := mantissa * Nat.pow 2 exponent.toNat / Nat.pow 2 (-exponent).toNat
  if isSigned x then -size else size

/-- An integer in decimal. -/
def intText (n : Int) : String :=
  if n < 0 then "-" ++ natText n.natAbs else natText n.natAbs

/-- The text of the 64-bit integer nearest to zero from a number: fractions are cut off and numbers
beyond the range become its end. -/
def wholeText (x : Float) : String :=
  intText (Int64.ofIntClamp (wholePart x)).toInt

/-- How a script shows a number: whole ones below `10 ^ 15` as integers, so that a negative zero has
no sign. -/
def scriptText (x : Float) : String :=
  if isWhole x && x.abs < 1e15 then wholeText x else plain x

/-- The digits at the front of a text and what follows them. -/
def takeDigits (text : List Char) : List Char × List Char :=
  (text.takeWhile Char.isDigit, text.dropWhile Char.isDigit)

/-- The power of ten at the end of a numeral: nothing, or its mark, maybe a sign, and digits. -/
def powerOf? (text : List Char) : Option (Bool × List Char) :=
  match text with
  | [] => some (false, [])
  | mark :: rest =>
    if mark = 'e' || mark = 'E' then
      let (negative, digits) := match rest with
        | '-' :: digits => (true, digits)
        | '+' :: digits => (false, digits)
        | digits => (false, digits)
      if digits.isEmpty || !digits.all Char.isDigit then none else some (negative, digits)
    else none

/-- The value of an unsigned numeral, which has a digit before or behind its point. -/
def readUnsigned? (text : List Char) : Option Float := do
  let (whole, rest) := takeDigits text
  let (fraction, rest) := match rest with
    | '.' :: rest => takeDigits rest
    | rest => ([], rest)
  if whole.isEmpty && fraction.isEmpty then none
  else
    let (exponentNegative, exponent) ← powerOf? rest
    return (Numeral.mk whole fraction exponentNegative exponent).toFloat

/-- The names of the values that no numeral denotes, in small letters. -/
def specialValue? (text : List Char) : Option Float :=
  match String.ofList (text.map Char.toLower) with
  | "inf" | "infinity" => some (1.0 / 0.0)
  | "nan" => some (0.0 / 0.0)
  | _ => none

/-- The number that a whole text denotes. -/
def read? (text : List Char) : Option Float :=
  let unsigned? (text : List Char) : Option Float :=
    (readUnsigned? text).orElse fun _ => specialValue? text
  match text with
  | '-' :: rest => (unsigned? rest).map (- ·)
  | '+' :: rest => unsigned? rest
  | _ => unsigned? text

/-!
## Arithmetic

Remainders and bit operations, and the positions in a list that numbers stand for.
-/

/-- The remainder of a division that is cut off towards zero. It is exact and has the sign of the
dividend. -/
def remainder (x y : Float) : Float :=
  if x.isNaN || y.isNaN || x.isInf || y == 0.0 then 0.0 / 0.0
  else if y.isInf then x
  else
    let (mx, ex) := magnitude x
    let (my, ey) := magnitude y
    let low := min ex ey
    let rest := (mx * Nat.pow 2 (ex - low).toNat) % (my * Nat.pow 2 (ey - low).toNat)
    let size := (Float.ofNat rest).scaleB low
    if isSigned x then -size else size

/-- The 64-bit integer of a number for bit operations. Its fraction is cut off; there is a nearest one
for every number, and zero for what is no number. -/
def bits (x : Float) : Int64 :=
  if x < 0.0 then .ofIntClamp (-(-x).toUInt64.toNat) else .ofIntClamp x.toUInt64.toNat

/-- The position in a list of this length that a number stands for: a whole number from zero up to
below the length. -/
def position? (x : Float) (length : Nat) : Option Nat :=
  if 0.0 ≤ x && isWhole x && x.toUInt64.toNat < length then some x.toUInt64.toNat else none

/-- The place between the items of a list of this length that a number stands for: a whole number that
is neither below zero nor beyond the length. -/
def gap? (x : Float) (length : Nat) : Option Nat :=
  if x < 0.0 || !isWhole x || length < x.toUInt64.toNat then none else some x.toUInt64.toNat

/-- The number of whole steps in a number, none below zero. -/
def steps (x : Float) : Nat := x.toUInt64.toNat

end ScriptEngine.Decimal
