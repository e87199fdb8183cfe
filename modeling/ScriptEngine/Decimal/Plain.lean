/-!
# The fewest decimal digits of a float, and floats in positional notation

A finite float is `mantissa * 2 ^ exponent`. The reals that round to it form an interval, closed at
both ends when the mantissa is even and open otherwise. Its shortest decimal is the one with the
fewest digits in that interval, and of those the one nearest to the float.
-/

namespace ScriptEngine.Decimal

/-- Which of two equally near decimals is taken. -/
inductive Tie
  /-- The greater one. -/
  | up
  /-- The one whose last digit is even. -/
  | even
deriving Repr, DecidableEq, Inhabited

/-- The value `digits * 10 ^ exponent`. -/
structure Scaled where
  digits : Nat
  exponent : Int
deriving Repr, DecidableEq, Inhabited

/-- A positive binary value `mantissa * 2 ^ exponent`; `narrow` says that the next value below is
only half as far away as the next one above. -/
structure Binary where
  mantissa : Nat
  exponent : Int
  narrow : Bool
deriving Repr, DecidableEq

/-- Significant bits of a float, the hidden one left out. -/
def fractionBits : Nat := 52

/-- The exponent of the least float. -/
def leastExponent : Int := -1074

/-- The binary value of the bits of a positive finite float. -/
def Binary.ofBits (bits : Nat) : Binary :=
  let fraction := bits % Nat.pow 2 fractionBits
  let biased := bits / Nat.pow 2 fractionBits % 2048
  if biased = 0 then ⟨fraction, leastExponent, false⟩
  else
    ⟨Nat.pow 2 fractionBits + fraction, leastExponent + (biased - 1 : Nat),
      fraction = 0 && 1 < biased⟩

/-- The reals that round to a binary value, as fractions over one `unit`: from `value - below` to
`value + above`, the ends included if `closed`. -/
structure Interval where
  value : Nat
  below : Nat
  above : Nat
  unit : Nat
  closed : Bool
deriving Repr

/-- The interval of the reals nearer to `b` than to any other float. All four numbers are scaled by
four so that a quarter of the step below is whole. -/
def Binary.interval (b : Binary) : Interval :=
  let up := Nat.pow 2 b.exponent.toNat
  { value := 4 * b.mantissa * up
    below := if b.narrow then up else 2 * up
    above := 2 * up
    unit := 4 * Nat.pow 2 (-b.exponent).toNat
    closed := b.mantissa % 2 = 0 }

/-- Whether `numerator / denominator`, on the scale of the interval, lies inside it. -/
def Interval.contains (i : Interval) (numerator denominator : Nat) : Bool :=
  let low := (i.value - i.below) * denominator
  let high := (i.value + i.above) * denominator
  let here := numerator * i.unit
  if i.closed then low ≤ here && here ≤ high else low < here && here < high

/-- Whether the lower of two neighbours on a grid is taken for a value that is `gap` above it, where
the grid has this `step`. -/
def Tie.takesUnder (tie : Tie) (under gap step : Nat) : Bool :=
  match tie with
  | .up => 2 * gap < step
  | .even => 2 * gap < step || (2 * gap == step && under % 2 == 0)

/-- The point of the grid of step `10 ^ exponent` that is in the interval and nearest to its value,
if any. -/
def Interval.gridPoint? (i : Interval) (tie : Tie) (exponent : Int) : Option Nat :=
  let up := Nat.pow 10 exponent.toNat
  let down := Nat.pow 10 (-exponent).toNat
  let step := up * i.unit
  let scaled := i.value * down
  let under := scaled / step
  let gap := scaled % step
  let underFits := 0 < under && i.contains (under * up) down
  let overFits := i.contains ((under + 1) * up) down
  match underFits, overFits with
  | true, true => some (if tie.takesUnder under gap step then under else under + 1)
  | true, false => some under
  | false, true => some (under + 1)
  | false, false => none

/-- The number of decimal digits of `n`, one for zero. -/
def digitCount (n : Nat) : Nat :=
  (Nat.toDigits 10 n).length

/-- The exponent `e` with `10 ^ e ≤ value < 10 ^ (e + 1)` for the value of the interval. -/
def Interval.magnitude (i : Interval) : Int :=
  if i.unit ≤ i.value then digitCount (i.value / i.unit) - 1
  else
    let ratio := (i.unit + i.value - 1) / i.value
    Int.negOfNat (digitCount (ratio - 1))

/-- The first grid, from coarse to fine, with a point in the interval. -/
def Interval.search (i : Interval) (tie : Tie) (exponent : Int) : Nat → Scaled
  | 0 => ⟨i.value / i.unit, 0⟩
  | tries + 1 =>
    match i.gridPoint? tie exponent with
    | some digits => ⟨digits, exponent⟩
    | none => i.search tie (exponent - 1) tries

/-- The decimal with the fewest digits that reads back as `b`, which is not zero. Seventeen digits
always suffice, and one grid more is tried above the value's own magnitude. -/
def Binary.shortest (b : Binary) (tie : Tie) : Scaled :=
  let i := b.interval
  i.search tie (i.magnitude + 1) 19

/-!
## Positional notation

A float is written with the fewest digits that read back to it and never with an exponent. A whole
number has no decimal point, and of two equally near decimals the greater is taken.
-/

/-- The decimal digits of `n`. -/
def natText (n : Nat) : String :=
  String.ofList (Nat.toDigits 10 n)

/-- The digits of a scaled decimal, with as many zeros as its exponent asks for. -/
def Scaled.plain (s : Scaled) : String :=
  let digits := Nat.toDigits 10 s.digits
  if 0 ≤ s.exponent then String.ofList (digits ++ List.replicate s.exponent.toNat '0')
  else
    let places := (-s.exponent).toNat
    let padded := List.replicate (places + 1 - digits.length) '0' ++ digits
    let whole := padded.take (padded.length - places)
    let fraction := padded.drop (padded.length - places)
    String.ofList (whole ++ '.' :: fraction)

/-- The bits of a float without its sign. -/
def magnitudeBits (x : Float) : Nat :=
  x.toBits.toNat % Nat.pow 2 63

/-- Whether the sign bit of a float is set. -/
def isSigned (x : Float) : Bool :=
  Nat.pow 2 63 ≤ x.toBits.toNat

/-- The text of a float: the sign of a negative zero is kept. -/
def plain (x : Float) : String :=
  let mark := if isSigned x then "-" else ""
  if x.isNaN then "NaN"
  else if x.isInf then mark ++ "inf"
  else if magnitudeBits x = 0 then mark ++ "0"
  else mark ++ ((Binary.ofBits (magnitudeBits x)).shortest .up).plain

end ScriptEngine.Decimal
