import Mathlib
import ScriptEngine.Decimal.Text
import ScriptEngine.Proofs.Decimal.Whole

/-!
# The value of a number

A finite float is a fraction with a power of two as its denominator. What the conversions of a float do is
said of that fraction: which floats are whole, what is cut off, which positions in a list they stand for.

* `value?`: the value of a finite number.
* `Unpacked`, `unpacked`: a finite number is a zero, or its magnitude with its sign.
* `isWhole_iff`, `wholePart_of_value?`: which numbers are whole, and what is left of the others.
* `toNat_toUInt64`: conversion to 64 bits, which goes no further than their range.
* `position?_eq_some_iff`, `gap?_eq_some_iff`: which positions and places in a list a number stands for.
* `lt_iff_of_value?`: numbers are ordered as their values are.
* `steps_of_value?`, `steps_of_isNaN`: how many steps of one there are in a number.
* `steps_le_steps`: there are no fewer of them in a number that is not less.
-/

namespace ScriptEngine.Decimal

open Float.Model Float.Model.UnpackedFloat

/-! ## Values -/

/-- The value of a binary value. -/
def Binary.value (b : Binary) : ℚ := b.mantissa * 2 ^ b.exponent

/-- The value of a finite number; the two zeros have the same one. -/
def value? (x : Float) : Option ℚ :=
  if x.isFinite then
    let size := (Binary.ofBits (magnitudeBits x)).value
    some (if isSigned x then -size else size)
  else none

/-! ## What a float is made of -/

section

variable (bits : BitVec Format.binary64.numBits)

theorem toNat_unpackMantissa : (unpackMantissa bits).toNat = bits.toNat % 2 ^ 52 := by
  rw [unpackMantissa_def, BitVec.extractLsb'_toNat, Nat.shiftRight_zero]

theorem toNat_unpackExponent : (unpackExponent bits).toNat = bits.toNat / 2 ^ 52 % 2 ^ 11 := by
  rw [unpackExponent_def, BitVec.extractLsb'_toNat, Nat.shiftRight_eq_div_pow]

theorem toNat_unpackSign : (unpackSign bits).toNat = bits.toNat / 2 ^ 63 % 2 := by
  rw [unpackSign_def, BitVec.extractLsb'_toNat, Nat.shiftRight_eq_div_pow]
  rfl

theorem ofBitVec_unpackSign :
    Sign.ofBitVec (unpackSign bits) = if 2 ^ 63 ≤ bits.toNat then .negative else .positive := by
  have small : bits.toNat < 2 ^ 64 := bits.isLt
  have top := toNat_unpackSign bits
  rw [Sign.ofBitVec]
  split
  · next zero =>
    have none : (unpackSign bits).toNat = 0 := congrArg BitVec.toNat zero
    rw [if_neg (by omega)]
  · next one =>
    have some : (unpackSign bits).toNat ≠ 0 := fun none => one (BitVec.eq_of_toNat_eq none)
    rw [if_pos (by omega)]

end

/-- The parts of a binary value of so many bits. -/
theorem mantissa_ofBits (n : Nat) : (Binary.ofBits (n % 2 ^ 63)).mantissa =
    if n / 2 ^ 52 % 2 ^ 11 = 0 then n % 2 ^ 52 else 2 ^ 52 + n % 2 ^ 52 := by
  have fraction : n % 2 ^ 63 % 2 ^ 52 = n % 2 ^ 52 := by omega
  have biased : n % 2 ^ 63 / 2 ^ 52 % 2 ^ 11 = n / 2 ^ 52 % 2 ^ 11 := by omega
  show (if n % 2 ^ 63 / 2 ^ 52 % 2 ^ 11 = 0 then _ else _ : Binary).mantissa = _
  rw [biased, ← fraction]
  split <;> rfl

theorem exponent_ofBits (n : Nat) : (Binary.ofBits (n % 2 ^ 63)).exponent =
    if n / 2 ^ 52 % 2 ^ 11 = 0 then (-1074 : Int) else -1074 + (n / 2 ^ 52 % 2 ^ 11 - 1 : Nat) := by
  have biased : n % 2 ^ 63 / 2 ^ 52 % 2 ^ 11 = n / 2 ^ 52 % 2 ^ 11 := by omega
  rw [← biased]
  show (if n % 2 ^ 63 / 2 ^ 52 % 2 ^ 11 = 0 then _ else _ : Binary).exponent = _
  split <;> rfl

/-- The two shapes of what is unpacked from finite bits: a zero, or the magnitude with its sign. -/
inductive Unpacked (s : Sign) (b : Binary) : UnpackedFloat → Prop
  | zero : b.mantissa = 0 → Unpacked s b (.zero s)
  | finite {mantissa : Nat} {exponent : Int} (positive : 0 < mantissa) :
    b.mantissa = mantissa → b.exponent = exponent →
    Unpacked s b (.finite s mantissa exponent positive)

theorem toNat_one_append (fraction : BitVec 52) : (1#1 ++ fraction).toNat = 2 ^ 52 + fraction.toNat := by
  rw [BitVec.toNat_append, Nat.shiftLeft_eq, Nat.mul_comm, ← Nat.two_pow_add_eq_or_of_lt fraction.isLt]
  rfl

theorem unpacked_of_isFinite (bits : BitVec Format.binary64.numBits)
    (finite : (UnpackedFloat.unpack .binary64 bits).isFinite = true) :
    Unpacked (if 2 ^ 63 ≤ bits.toNat then .negative else .positive)
      (Binary.ofBits (bits.toNat % 2 ^ 63)) (UnpackedFloat.unpack .binary64 bits) := by
  have fraction := toNat_unpackMantissa bits
  have biased := toNat_unpackExponent bits
  have bias : Format.binary64.exponentBias = 1023 := rfl
  have width : Format.binary64.mantissaBitsWithoutImplicit = 52 := rfl
  rw [← ofBitVec_unpackSign]
  revert finite
  fun_cases UnpackedFloat.unpack .binary64 bits with
  | case1 => exact fun finite => nomatch finite
  | case2 => exact fun finite => nomatch finite
  | case3 mantissaVec exponentVec signVec sign _ least none =>
    have none : (unpackMantissa bits).toNat = 0 := congrArg BitVec.toNat none
    have least : (unpackExponent bits).toNat = 0 := congrArg BitVec.toNat least
    refine fun _ => .zero ?_
    rw [mantissa_ofBits, if_pos (by omega)]
    omega
  | case4 mantissaVec exponentVec exponent signVec sign notAll least some =>
    have least : exponentVec.toNat = 0 := congrArg BitVec.toNat least
    have same : exponentVec.toNat = (unpackExponent bits).toNat := rfl
    refine fun _ => .finite _ ?_ ?_
    · rw [mantissa_ofBits, if_pos (by omega)]
      exact fraction.symm
    · rw [exponent_ofBits, if_pos (by omega)]
      omega
  | case5 mantissaVec exponentVec exponent signVec sign notAll normal =>
    have normal : exponentVec.toNat ≠ 0 := fun least => normal (BitVec.eq_of_toNat_eq least)
    have same : exponentVec.toNat = (unpackExponent bits).toNat := rfl
    refine fun _ => .finite _ ?_ ?_
    · rw [mantissa_ofBits, if_neg (by omega)]
      exact ((toNat_one_append mantissaVec).trans (congrArg (2 ^ 52 + ·) fraction)).symm
    · rw [exponent_ofBits, if_neg (by omega)]
      omega

/-- The exponent of what is infinite or no number is the greatest one. -/
theorem biased_lt_of_isFinite (bits : BitVec Format.binary64.numBits)
    (finite : (UnpackedFloat.unpack .binary64 bits).isFinite = true) :
    bits.toNat / 2 ^ 52 % 2 ^ 11 < 2047 := by
  have biased := toNat_unpackExponent bits
  by_contra all
  have all : unpackExponent bits = -1#11 := by
    refine BitVec.eq_of_toNat_eq ?_
    show (unpackExponent bits).toNat = 2047
    omega
  rw [UnpackedFloat.unpack, if_pos all] at finite
  split at finite <;> cases finite

/-! ## Whole numbers -/

section

variable {x : Float} {q : ℚ} {n : Int}

theorem unpacked (finite : x.isFinite = true) :
    Unpacked (if isSigned x then .negative else .positive) (Binary.ofBits (magnitudeBits x))
      x.toModel.unpack := by
  have signed : isSigned x = decide (2 ^ 63 ≤ x.toModel.toBits.toBitVec.toNat) := rfl
  have shape := unpacked_of_isFinite x.toModel.toBits.toBitVec finite
  simp only [signed, decide_eq_true_eq]
  exact shape

/-- A power with its sign taken apart, as a fraction. -/
theorem zpow_eq_div (base : Nat) (exponent : Int) : (base : ℚ) ^ exponent =
    (base ^ exponent.toNat : Nat) / (base ^ (-exponent).toNat : Nat) := by
  rcases Int.le_total 0 exponent with up | down
  · obtain ⟨n, rfl⟩ := Int.eq_ofNat_of_zero_le up
    rw [Int.toNat_natCast, Int.toNat_eq_zero.mpr (by omega)]
    simp
  · obtain ⟨n, same⟩ := Int.eq_ofNat_of_zero_le (Int.neg_nonneg_of_nonpos down)
    rw [same, Int.toNat_natCast, Int.toNat_eq_zero.mpr down, ← neg_neg exponent, same]
    simp

/-- The value of a binary value as a fraction. -/
theorem Binary.value_eq (b : Binary) : b.value =
    (b.mantissa * 2 ^ b.exponent.toNat : Nat) / (2 ^ (-b.exponent).toNat : Nat) := by
  rw [Nat.cast_mul, mul_div_assoc, ← zpow_eq_div]
  rfl

theorem value?_of_isFinite (finite : x.isFinite = true) : value? x = some
    (if isSigned x then -(Binary.ofBits (magnitudeBits x)).value
      else (Binary.ofBits (magnitudeBits x)).value) :=
  if_pos finite

theorem isFinite_of_value? (h : value? x = some q) : x.isFinite = true := by
  by_contra infinite
  rw [value?, if_neg infinite] at h
  cases h

/-- The digits in front of the binary point. -/
def Binary.whole (b : Binary) : Nat :=
  b.mantissa * 2 ^ b.exponent.toNat / 2 ^ (-b.exponent).toNat

theorem Binary.floor_value (b : Binary) : ⌊b.value⌋₊ = b.whole := by
  rw [value_eq, Nat.floor_div_eq_div, whole]

/-- A binary value without a fraction. -/
theorem Binary.value_eq_whole_iff (b : Binary) :
    b.value = b.whole ↔ b.mantissa % 2 ^ (-b.exponent).toNat = 0 := by
  have positive : (2 ^ (-b.exponent).toNat : ℚ) ≠ 0 := by positivity
  rw [value_eq, Nat.cast_pow, Nat.cast_ofNat, div_eq_iff positive, whole]
  norm_cast
  rw [eq_comm, ← Nat.dvd_iff_div_mul_eq, ← Nat.dvd_iff_mod_eq_zero]
  rcases Int.le_total 0 b.exponent with up | down
  · rw [Int.toNat_eq_zero.mpr (Int.neg_nonpos_of_nonneg up), pow_zero]
    simp
  · rw [Int.toNat_eq_zero.mpr down, pow_zero, Nat.mul_one]

theorem wholePart_eq (x : Float) : wholePart x =
    if isSigned x then -((Binary.ofBits (magnitudeBits x)).whole : Int)
    else (Binary.ofBits (magnitudeBits x)).whole := rfl

/-- What is without a fraction is its whole part. -/
theorem isWhole_iff : isWhole x = true ↔ value? x = some (wholePart x : ℚ) := by
  have shape : isWhole x = (x.isFinite &&
      (Binary.ofBits (magnitudeBits x)).mantissa %
        2 ^ (-(Binary.ofBits (magnitudeBits x)).exponent).toNat == 0) := rfl
  rw [shape, Bool.and_eq_true, beq_iff_eq, ← Binary.value_eq_whole_iff, value?, wholePart_eq]
  by_cases finite : x.isFinite = true
  · rw [if_pos finite]
    by_cases signed : isSigned x = true <;> simp [finite, signed]
  · simp [finite]

theorem Binary.value_nonneg (b : Binary) : 0 ≤ b.value :=
  mul_nonneg (Nat.cast_nonneg _) (by positivity)

theorem Binary.whole_of_value {b : Binary} (h : b.value = (n : ℚ)) : (b.whole : Int) = n := by
  have positive : 0 ≤ n := by exact_mod_cast h ▸ b.value_nonneg
  obtain ⟨k, rfl⟩ := Int.eq_ofNat_of_zero_le positive
  rw [← floor_value, h, Int.cast_natCast, Nat.floor_natCast]

theorem wholePart_of_value? (h : value? x = some (n : ℚ)) : wholePart x = n := by
  rw [value?_of_isFinite (isFinite_of_value? h), Option.some.injEq] at h
  rw [wholePart_eq]
  split at h
  · next signed =>
    have size : (Binary.ofBits (magnitudeBits x)).value = ((-n : Int) : ℚ) := by
      rw [Int.cast_neg, ← h, neg_neg]
    rw [if_pos signed, Binary.whole_of_value size, neg_neg]
  · next unsigned => rw [if_neg unsigned, Binary.whole_of_value h]

theorem isWhole_of_value? (h : value? x = some (n : ℚ)) : isWhole x = true := by
  rw [isWhole_iff, h, wholePart_of_value? h]

/-! ## Conversions -/

theorem roundToInt_eq (s : Sign) (mantissa : Nat) (exponent : Int) :
    roundToInt s mantissa exponent =
      s.apply (mantissa * 2 ^ exponent.toNat / 2 ^ (-exponent).toNat : Nat) := by
  have shifts : (0 - (exponent - ((exponent - 0).toNat : Int))).toNat = (-exponent).toNat := by omega
  rw [roundToInt, decreaseExponent]
  dsimp only
  rw [shiftToExponent]
  dsimp only
  rw [shifts, mantissa_shiftRight, mantissa_ofMantissaAndAccuracy, Nat.shiftLeft_eq, Int.sub_zero]

theorem toInt_unpack (finite : x.isFinite = true) (low high : Int) :
    x.toModel.unpack.toInt low high = wholePart x := by
  have shape := unpacked finite
  rw [wholePart_eq]
  revert shape
  generalize x.toModel.unpack = u
  generalize Binary.ofBits (magnitudeBits x) = b
  rintro (none | ⟨positive, rfl, rfl⟩)
  · rw [Binary.whole, none]
    simp [UnpackedFloat.toInt]
  · rw [UnpackedFloat.toInt, roundToInt_eq]
    split <;> rfl

theorem toNat_ofNatClamp (n : Nat) : (UInt64.ofNatClamp n).toNat = min n (2 ^ 64 - 1) := by
  rw [UInt64.ofNatClamp]
  split
  · next small =>
    have small : n < 2 ^ 64 := small
    rw [UInt64.toNat_ofNatLT]
    omega
  · next large =>
    have large : ¬ n < 2 ^ 64 := large
    rw [UInt64.toNat_ofNatLT]
    show 2 ^ 64 - 1 = _
    omega

theorem toNat_toUInt64 (finite : x.isFinite = true) :
    x.toUInt64.toNat = min (wholePart x).toNat (2 ^ 64 - 1) := by
  show (UInt64.ofNatClamp (x.toModel.unpack.toInt 0 _).toNat).toNat = _
  rw [toInt_unpack finite, toNat_ofNatClamp]

/-! ## Order -/

theorem Binary.value_pos {b : Binary} (positive : 0 < b.mantissa) : 0 < b.value :=
  mul_pos (Nat.cast_pos.mpr positive) (by positivity)

section

variable {signed : Bool} {b : Binary} {u : UnpackedFloat}
  (shape : Unpacked (if signed then .negative else .positive) b u)

include shape

/-- A float is compared with zero as its value is. -/
theorem zero_le_unpacked : UnpackedFloat.le (.zero .positive) u = true ↔
    0 ≤ if signed then -b.value else b.value := by
  rcases shape with none | ⟨positive, rfl, rfl⟩
  · have zero : b.value = 0 := by rw [Binary.value, none, Nat.cast_zero, zero_mul]
    cases signed <;> simp [zero, UnpackedFloat.le, UnpackedFloat.compare]
  · have some := Binary.value_pos positive
    cases signed <;> simp [UnpackedFloat.le, UnpackedFloat.compare, some, some.le]

theorem unpacked_lt_zero : UnpackedFloat.lt u (.zero .positive) = true ↔
    (if signed then -b.value else b.value) < 0 := by
  rcases shape with none | ⟨positive, rfl, rfl⟩
  · have zero : b.value = 0 := by rw [Binary.value, none, Nat.cast_zero, zero_mul]
    cases signed <;> simp [zero, UnpackedFloat.lt, UnpackedFloat.compare]
  · have some := Binary.value_pos positive
    cases signed <;> simp [UnpackedFloat.lt, UnpackedFloat.compare, some, some.le]

end

theorem zero_le_iff (h : value? x = some q) : 0.0 ≤ x ↔ 0 ≤ q := by
  have finite := isFinite_of_value? h
  rw [value?_of_isFinite finite, Option.some.injEq] at h
  rw [← h]
  show decide ((Float.toModel 0.0).unpack.le x.toModel.unpack = true) = true ↔ _
  rw [decide_eq_true_eq]
  exact zero_le_unpacked (unpacked finite)

theorem lt_zero_iff (h : value? x = some q) : x < 0.0 ↔ q < 0 := by
  have finite := isFinite_of_value? h
  rw [value?_of_isFinite finite, Option.some.injEq] at h
  rw [← h]
  show decide (x.toModel.unpack.lt (Float.toModel 0.0).unpack = true) = true ↔ _
  rw [decide_eq_true_eq]
  exact unpacked_lt_zero (unpacked finite)

/-! ## Positions -/

/-- A position in a list of this length, which is not too long for a memory. -/
theorem position?_eq_some_iff {length position : Nat} (short : length < 2 ^ 64) :
    position? x length = some position ↔ position < length ∧ value? x = some (position : ℚ) := by
  rw [position?]
  constructor
  · intro found
    split at found
    · next inside =>
      rw [Bool.and_eq_true, Bool.and_eq_true, decide_eq_true_eq, decide_eq_true_eq] at inside
      obtain ⟨⟨above, whole⟩, below⟩ := inside
      have same := isWhole_iff.mp whole
      have positive : (0 : ℚ) ≤ wholePart x := (zero_le_iff same).mp above
      have positive : 0 ≤ wholePart x := by exact_mod_cast positive
      obtain ⟨n, eq⟩ := Int.eq_ofNat_of_zero_le positive
      rw [eq, Int.cast_natCast] at same
      rw [toNat_toUInt64 (isFinite_of_value? same), eq, Int.toNat_natCast] at found below
      cases found
      have exactly : min n (2 ^ 64 - 1) = n := by omega
      rw [exactly] at below ⊢
      exact ⟨below, same⟩
    · cases found
  · rintro ⟨inside, same⟩
    have same' : value? x = some ((position : Int) : ℚ) := by rw [same, Int.cast_natCast]
    have index : x.toUInt64.toNat = position := by
      rw [toNat_toUInt64 (isFinite_of_value? same), wholePart_of_value? same', Int.toNat_natCast]
      omega
    rw [index, if_pos]
    rw [Bool.and_eq_true, Bool.and_eq_true, decide_eq_true_eq, decide_eq_true_eq]
    exact ⟨⟨(zero_le_iff same).mpr (Nat.cast_nonneg _), isWhole_of_value? same'⟩, inside⟩

/-- A place between the items is a position in a list with one item more. -/
theorem gap?_eq (x : Float) (length : Nat) : gap? x length = position? x (length + 1) := by
  rw [gap?, position?]
  by_cases whole : isWhole x = true
  · have same := isWhole_iff.mp whole
    have ordered : x < 0.0 ↔ ¬ 0.0 ≤ x := by
      rw [lt_zero_iff same, zero_le_iff same, not_le]
    by_cases above : 0.0 ≤ x <;> by_cases inside : x.toUInt64.toNat < length + 1 <;>
      simp [whole, ordered, above, inside] <;> omega
  · simp [whole]

theorem gap?_eq_some_iff {length position : Nat} (short : length + 1 < 2 ^ 64) :
    gap? x length = some position ↔ position ≤ length ∧ value? x = some (position : ℚ) := by
  rw [gap?_eq, position?_eq_some_iff short, Nat.lt_succ_iff]

end

/-! ## Order -/

/-- A binary value as a float holds it: the digits are as many as there is room for, unless the exponent is
the least one. -/
structure Binary.Canonical (b : Binary) : Prop where
  short : b.mantissa < 2 ^ 53
  least : -1074 ≤ b.exponent
  full : b.exponent = -1074 ∨ 2 ^ 52 ≤ b.mantissa

theorem canonical_ofBits (n : Nat) : (Binary.ofBits (n % 2 ^ 63)).Canonical := by
  have mantissa := mantissa_ofBits n
  have exponent := exponent_ofBits n
  split at mantissa <;> split at exponent <;> constructor <;> omega

theorem canonical_magnitude (x : Float) : (Binary.ofBits (magnitudeBits x)).Canonical :=
  canonical_ofBits x.toBits.toNat

/-- A greater exponent makes a greater value, since no digit is wasted, -/
theorem Binary.value_lt_of_exponent_lt {b c : Binary} (hb : b.Canonical) (hc : c.Canonical)
    (less : b.exponent < c.exponent) : b.value < c.value := by
  have full : 2 ^ 52 ≤ c.mantissa := hc.full.resolve_left (by have := hb.least; omega)
  have raised : (2 : ℚ) ^ (b.exponent + 1) ≤ 2 ^ c.exponent :=
    zpow_le_zpow_right₀ (by norm_num) less
  calc b.value < 2 ^ 53 * 2 ^ b.exponent := by
        rw [value]
        gcongr
        exact_mod_cast hb.short
    _ = 2 ^ 52 * 2 ^ (b.exponent + 1) := by
        rw [zpow_add₀ (by norm_num)]
        ring
    _ ≤ c.value := by
        rw [value]
        gcongr
        exact_mod_cast full

/-- and with the same exponent the digits decide. -/
theorem Binary.value_lt_iff_of_exponent_eq {b c : Binary} (same : b.exponent = c.exponent) :
    b.value < c.value ↔ b.mantissa < c.mantissa := by
  rw [value, value, same, mul_lt_mul_iff_left₀ (by positivity), Nat.cast_lt]

/-- So values are compared by their exponents, and then by their digits. -/
theorem Binary.value_lt_iff {b c : Binary} (hb : b.Canonical) (hc : c.Canonical) :
    b.value < c.value ↔
      ((compare b.exponent c.exponent).then (compare b.mantissa c.mantissa)) = .lt := by
  rcases lt_trichotomy b.exponent c.exponent with less | same | greater
  · simp [compare_lt_iff_lt.mpr less, value_lt_of_exponent_lt hb hc less]
  · rw [value_lt_iff_of_exponent_eq same, compare_eq_iff_eq.mpr same, Ordering.eq_then,
      compare_lt_iff_lt]
  · simp [compare_gt_iff_gt.mpr greater, (value_lt_of_exponent_lt hc hb greater).le]

section

variable {signed signed' : Bool} {b c : Binary} {u v : UnpackedFloat}

/-- Floats are compared as their values are. -/
theorem lt_unpacked_iff (hb : b.Canonical) (hc : c.Canonical)
    (shape : Unpacked (if signed then .negative else .positive) b u)
    (shape' : Unpacked (if signed' then .negative else .positive) c v) :
    UnpackedFloat.lt u v = true ↔
      (if signed then -b.value else b.value) < if signed' then -c.value else c.value := by
  rcases shape with none | ⟨positive, hm, he⟩ <;> rcases shape' with none' | ⟨positive', hm', he'⟩
  · have zero : b.value = 0 := by rw [Binary.value, none, Nat.cast_zero, zero_mul]
    have zero' : c.value = 0 := by rw [Binary.value, none', Nat.cast_zero, zero_mul]
    cases signed <;> cases signed' <;> simp [zero, zero', UnpackedFloat.lt, UnpackedFloat.compare]
  · have zero : b.value = 0 := by rw [Binary.value, none, Nat.cast_zero, zero_mul]
    have some' := Binary.value_pos (hm'.symm ▸ positive' : 0 < c.mantissa)
    cases signed <;> cases signed' <;>
      simp [zero, UnpackedFloat.lt, UnpackedFloat.compare, some', some'.le]
  · have zero' : c.value = 0 := by rw [Binary.value, none', Nat.cast_zero, zero_mul]
    have some := Binary.value_pos (hm.symm ▸ positive : 0 < b.mantissa)
    cases signed <;> cases signed' <;>
      simp [zero', UnpackedFloat.lt, UnpackedFloat.compare, some, some.le]
  · have some := Binary.value_pos (hm.symm ▸ positive : 0 < b.mantissa)
    have some' := Binary.value_pos (hm'.symm ▸ positive' : 0 < c.mantissa)
    have below := Binary.value_lt_iff hb hc
    have above := Binary.value_lt_iff hc hb
    rw [hm, he, hm', he'] at below above
    cases signed <;> cases signed'
    · simp [UnpackedFloat.lt, UnpackedFloat.compare, below]
    · simp [UnpackedFloat.lt, UnpackedFloat.compare, (neg_lt_zero.mpr some').le.trans some.le]
    · simp [UnpackedFloat.lt, UnpackedFloat.compare, (neg_lt_zero.mpr some).trans some']
    · rw [← Ordering.swap_eq_gt, Ordering.swap_then, ← Std.OrientedOrd.eq_swap,
        ← Std.OrientedOrd.eq_swap] at above
      simp [UnpackedFloat.lt, UnpackedFloat.compare, above]

end

variable {x y : Float} {p q : ℚ}

/-- Numbers are ordered as their values are. -/
theorem lt_iff_of_value? (hx : value? x = some p) (hy : value? y = some q) : x < y ↔ p < q := by
  have finite := isFinite_of_value? hx
  have finite' := isFinite_of_value? hy
  rw [value?_of_isFinite finite, Option.some.injEq] at hx
  rw [value?_of_isFinite finite', Option.some.injEq] at hy
  rw [← hx, ← hy]
  show decide (x.toModel.unpack.lt y.toModel.unpack = true) = true ↔ _
  rw [decide_eq_true_eq]
  exact lt_unpacked_iff (canonical_magnitude x) (canonical_magnitude y) (unpacked finite)
    (unpacked finite')

/-! ## What is cut off -/

theorem steps_eq (x : Float) :
    steps x = min (x.toModel.unpack.toInt 0 (2 ^ 64 - 1)).toNat (2 ^ 64 - 1) :=
  toNat_ofNatClamp _

/-- The steps of a finite number are those of its value. -/
theorem steps_of_value? (h : value? x = some q) : steps x = min ⌊q⌋₊ (2 ^ 64 - 1) := by
  have finite := isFinite_of_value? h
  rw [value?_of_isFinite finite, Option.some.injEq] at h
  rw [steps, toNat_toUInt64 finite, wholePart_eq, ← h]
  congr 1
  split
  · rw [Nat.floor_of_nonpos (neg_nonpos.mpr (Binary.value_nonneg _))]
    omega
  · rw [Binary.floor_value, Int.toNat_natCast]

/-- There are no steps in what is no number. -/
theorem steps_of_isNaN (none : x.isNaN = true) : steps x = 0 := by
  have none : x.toModel.unpack.isNaN = true := none
  rw [steps_eq]
  cases unpacked : x.toModel.unpack <;> rw [unpacked] at none <;> first | rfl | cases none

/-- What has a value is a number. -/
theorem isNaN_of_value? (h : value? x = some q) : x.isNaN = false := by
  have finite : x.toModel.unpack.isFinite = true := isFinite_of_value? h
  show x.toModel.unpack.isNaN = false
  cases unpacked : x.toModel.unpack <;> rw [unpacked] at finite <;> first | rfl | cases finite

/-- Of two numbers that are not both finite one stands at the end of its side. -/
theorem infinity_of_not_lt {u v : UnpackedFloat} (hu : u.isNaN = false) (hv : v.isNaN = false)
    (infinite : ¬ (u.isFinite = true ∧ v.isFinite = true)) (le : ¬ v.lt u = true) :
    u = .infinity .negative ∨ v = .infinity .positive := by
  have ordered : compare Sign.negative Sign.positive = .lt := rfl
  rcases u with ⟨_ | _⟩ | _ | _ | _ <;> rcases v with ⟨_ | _⟩ | _ | _ | ⟨_ | _⟩ <;>
    simp_all [UnpackedFloat.isNaN, UnpackedFloat.isFinite, UnpackedFloat.lt,
      UnpackedFloat.compare]

/-- What is cut off keeps the order: there are no fewer steps in a number that is not less. -/
theorem steps_le_steps (hx : x.isNaN = false) (hy : y.isNaN = false) (le : ¬ y < x) :
    steps x ≤ steps y := by
  by_cases finite : x.isFinite = true ∧ y.isFinite = true
  · have hp := value?_of_isFinite finite.1
    have hq := value?_of_isFinite finite.2
    rw [lt_iff_of_value? hq hp, not_lt] at le
    rw [steps_of_value? hp, steps_of_value? hq]
    exact min_le_min_right _ (Nat.floor_mono le)
  · have le : ¬ decide (y.toModel.unpack.lt x.toModel.unpack = true) = true := le
    rw [decide_eq_true_eq] at le
    rw [steps_eq, steps_eq]
    rcases infinity_of_not_lt hx hy finite le with low | high
    · rw [low]
      exact Nat.zero_le _
    · rw [high]
      exact min_le_right _ _

end ScriptEngine.Decimal
