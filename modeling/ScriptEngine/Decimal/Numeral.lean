/-!
# Reading decimal numerals

A numeral is whole digits, maybe a point and more digits, maybe a power of ten. It denotes the float
nearest to its exact value.
-/

namespace ScriptEngine.Decimal

/-- The value of decimal digits. -/
def digitsValue (digits : List Char) : Nat :=
  digits.foldl (fun n c => 10 * n + (c.toNat - '0'.toNat)) 0

/-- The parts of a numeral. -/
structure Numeral where
  whole : List Char
  fraction : List Char
  exponentNegative : Bool
  exponent : List Char
deriving Repr, Inhabited

/-- The float nearest to `mantissa * 10 ^ exponent`. An exponent beyond the range of floats is
settled first, so that no huge power is computed. -/
def scaledFloat (mantissa : Nat) (exponent : Int) : Float :=
  if mantissa = 0 then 0.0
  else
    let top := exponent + (Nat.log2 mantissa / 3 + 1 : Nat)
    if 400 < exponent then 1.0 / 0.0
    else if top < -400 then 0.0
    else if exponent < 0 then OfScientific.ofScientific mantissa true (-exponent).toNat
    else OfScientific.ofScientific mantissa false exponent.toNat

/-- The float that a numeral denotes. -/
def Numeral.toFloat (n : Numeral) : Float :=
  let power : Int := digitsValue n.exponent
  let power := if n.exponentNegative then -power else power
  scaledFloat (digitsValue (n.whole ++ n.fraction)) (power - n.fraction.length)

end ScriptEngine.Decimal
