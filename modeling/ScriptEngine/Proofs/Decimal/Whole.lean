import Mathlib

/-!
# Whole numbers as floats

A whole number other than zero is never rounded to zero: a float has room for its first digits, and
what is cut off behind them does not matter.

* `Perceptible`: what is packed into something other than a zero.
* `Perceptible.unpack_pack`: packing, which leaves it so.
* `perceptible_roundWithAccuracy`: rounding, of what is no smaller than the least float.
* `beq_ofInt_zero_iff`: a whole number compares as equal to zero only if it is zero.
-/

namespace ScriptEngine.Decimal

open Float.Model Float.Model.UnpackedFloat

/-- What is not zero, nor smaller than the least float. -/
inductive Perceptible : UnpackedFloat → Prop
  | finite {s : Sign} {mantissa : Nat} {exponent : Int} {positive : 0 < mantissa} :
    mantissa < 2 ^ 53 → -1074 ≤ exponent → Perceptible (.finite s mantissa exponent positive)
  | infinity (s : Sign) : Perceptible (.infinity s)
  | notANumber : Perceptible .notANumber

/-! ## Packing -/

/-- No bit is set behind the sign. -/
def Blank (bits : BitVec Format.binary64.numBits) : Prop :=
  unpackExponent bits = 0#11 ∧ unpackMantissa bits = 0#52

theorem blank_packComponents {s : Sign} {e : BitVec 11} {m : BitVec 52} :
    Blank (packComponents .binary64 s e m) ↔ e = 0#11 ∧ m = 0#52 := by
  rw [Blank, unpackExponent_packComponents, unpackMantissa_packComponents]

theorem perceptible_unpack {bits : BitVec Format.binary64.numBits} (written : ¬ Blank bits) :
    Perceptible (unpack .binary64 bits) := by
  have mantissa : (unpackMantissa bits).toNat < 2 ^ 52 := (unpackMantissa bits).isLt
  have bias : Format.binary64.exponentBias = 1023 := rfl
  have width : Format.binary64.mantissaBitsWithoutImplicit = 52 := rfl
  fun_cases unpack .binary64 bits with
  | case1 => exact .infinity _
  | case2 => exact .notANumber
  | case3 _ _ _ _ _ exponent none => exact absurd ⟨exponent, none⟩ written
  | case4 => exact .finite (Nat.lt_trans mantissa (by decide)) (by omega)
  | case5 mantissaVec exponentVec exponent _ _ _ normal =>
    have positive : 0 < exponentVec.toNat := Nat.pos_of_ne_zero fun none =>
      normal (BitVec.eq_of_toNat_eq none)
    exact .finite (1#1 ++ mantissaVec).isLt (by omega)

/-- Nothing that can be perceived is lost. -/
theorem Perceptible.not_blank_pack {u : UnpackedFloat} (h : Perceptible u) :
    ¬ Blank (pack .binary64 u) := by
  have bias : Format.binary64.exponentBias = 1023 := rfl
  have width : Format.binary64.mantissaBitsWithoutImplicit = 52 := rfl
  have infinite : ¬ (-1#11 = 0#11) := by decide
  fun_cases pack .binary64 u with
  | case1 => exact fun blank => infinite (blank_packComponents.mp blank).1
  | case2 s => exact fun blank => infinite (blank_packComponents.mp blank).1
  | case3 s => cases h
  | case4 s => exact fun blank => infinite (blank_packComponents.mp blank).1
  | case5 s m e _ _ exponent small =>
    intro blank
    have none := congrArg BitVec.toNat (blank_packComponents.mp blank).1
    rw [BitVec.toNat_ofNat, Nat.mod_eq_of_lt (Nat.lt_of_succ_lt (Nat.lt_of_not_le small))] at none
    obtain ⟨-, least⟩ := h
    have zero : exponent = 0 := none
    omega
  | case6 s m e positive _ _ _ subnormal =>
    intro blank
    obtain ⟨short, -⟩ := h
    have some := Nat.ne_of_gt positive
    have none := congrArg BitVec.toNat (blank_packComponents.mp blank).2
    have few : m.log2 < 52 := Nat.lt_of_le_of_ne
      (Nat.le_of_lt_succ ((Nat.log2_lt some).mpr short)) fun all => subnormal (congrArg Nat.succ all)
    rw [BitVec.toNat_ofNat, Nat.mod_eq_of_lt ((Nat.log2_lt some).mp few)] at none
    exact some none

theorem Perceptible.unpack_pack {u : UnpackedFloat} (h : Perceptible u) :
    Perceptible (unpack .binary64 (pack .binary64 u)) :=
  perceptible_unpack h.not_blank_pack

/-! ## Rounding -/

theorem mantissa_shiftRight (extended : ExtendedMantissa) (n : Nat) :
    (extended >>> n).mantissa = extended.mantissa / 2 ^ n := by
  induction n with
  | zero => exact (Nat.div_one _).symm
  | succ n ih =>
    show (extended >>> n).mantissa / 2 = _
    rw [ih, Nat.div_div_eq_div_mul, Nat.pow_succ]

theorem mantissa_ofMantissaAndAccuracy (mantissa : Nat) (accuracy : Accuracy) :
    (ExtendedMantissa.ofMantissaAndAccuracy mantissa accuracy).mantissa = mantissa := by
  rcases accuracy with _ | _ | _ | _ <;> rfl

theorem le_roundToNearestEven (mantissa : Nat) (accuracy : Accuracy) :
    mantissa ≤ accuracy.roundToNearestEven mantissa := by
  rcases accuracy with _ | _ | _ | _ <;> simp [Accuracy.roundToNearestEven]

/-- What is cut off from digits that are not smaller than the least float leaves some of them, for which
there is room. -/
theorem shiftToTargetExponent_bounds {mantissa : Nat} {exponent : Int} (accuracy : Accuracy)
    (positive : 0 < mantissa) (least : -1074 ≤ mantissa.log2 + exponent) :
    let shifted := shiftToTargetExponent .binary64 mantissa exponent accuracy
    0 < shifted.1.mantissa ∧ shifted.1.mantissa < 2 ^ 53 ∧ -1074 ≤ shifted.2 := by
  have target : Format.binary64.targetExponent (totalExponent mantissa exponent) =
      max (mantissa.log2 + 1 + exponent - 53) (-1074) := rfl
  have above := Nat.log2_self_le (Nat.ne_of_gt positive)
  have below := mantissa.lt_log2_self
  rw [shiftToTargetExponent, shiftToExponent, target]
  dsimp only
  rw [mantissa_shiftRight, mantissa_ofMantissaAndAccuracy]
  generalize cut : (max ((mantissa.log2 : Int) + 1 + exponent - 53) (-1074) - exponent).toNat = n
  refine ⟨Nat.div_pos ?_ (Nat.two_pow_pos n), ?_, by omega⟩
  · exact Nat.le_trans (Nat.pow_le_pow_right (by decide) (by omega)) above
  · rw [Nat.div_lt_iff_lt_mul (Nat.two_pow_pos n), ← Nat.pow_add]
    exact Nat.lt_of_lt_of_le below (Nat.pow_le_pow_right (by decide) (by omega))

/-- What is not smaller than the least float is not rounded to zero. -/
theorem perceptible_roundWithAccuracy (s : Sign) {mantissa : Nat} {exponent : Int}
    (accuracy : Accuracy) (positive : 0 < mantissa) (least : -1074 ≤ mantissa.log2 + exponent) :
    Perceptible (roundWithAccuracy .binary64 s mantissa exponent accuracy) := by
  have first := shiftToTargetExponent_bounds accuracy positive least
  rw [roundWithAccuracy]
  generalize shiftToTargetExponent .binary64 mantissa exponent accuracy = shifted at *
  obtain ⟨extended, exponent⟩ := shifted
  dsimp only at first ⊢
  obtain ⟨some, -, bounded⟩ := first
  have rounded : 0 < extended.roundedMantissa :=
    Nat.lt_of_lt_of_le some (le_roundToNearestEven _ _)
  -- Digits that are rounded up may be one too many, so that they are shifted once more.
  have least' : -1074 ≤ extended.roundedMantissa.log2 + exponent := by omega
  have second := shiftToTargetExponent_bounds .exact rounded least'
  rw [dif_neg (Nat.ne_of_gt second.1)]
  exact .finite second.2.1 second.2.2

/-- What is multiplied by at least one does not become too small. -/
theorem perceptible_mul {s t : Sign} {mantissa factor : Nat} {exponent power : Int}
    (positive : 0 < mantissa) (positive' : 0 < factor) (least : -1074 ≤ exponent)
    (large : 0 ≤ factor.log2 + power) : Perceptible (UnpackedFloat.mul .binary64
      (.finite s mantissa exponent positive) (.finite t factor power positive')) := by
  refine perceptible_roundWithAccuracy _ .exact (Nat.mul_pos positive positive') ?_
  have longer : factor.log2 ≤ (mantissa * factor).log2 :=
    (Nat.le_log2 (Nat.ne_of_gt (Nat.mul_pos positive positive'))).mpr <|
      Nat.le_trans (Nat.log2_self_le (Nat.ne_of_gt positive')) (Nat.le_mul_of_pos_left _ positive)
  omega

/-! ## Whole numbers -/

theorem perceptible_ofUInt64 {n : UInt64} (positive : 0 < n.toNat) :
    Perceptible n.toFloat.toModel.unpack := by
  have ordered : compare (n.toNat : Int) 0 = .gt :=
    Int.compare_eq_gt.mpr (Int.natCast_pos.mpr positive)
  refine Perceptible.unpack_pack ?_
  rw [UnpackedFloat.ofUInt64, UnpackedFloat.ofNat, UnpackedFloat.ofInt, UnpackedFloat.normalize, ordered]
  dsimp only
  rw [UnpackedFloat.round, decreaseExponent]
  dsimp only
  rw [Int.toNat_natCast]
  generalize (0 - Format.binary64.targetExponent (totalExponent n.toNat 0)).toNat = k
  have scaled : 2 ^ k ≤ n.toNat <<< k := by
    rw [Nat.shiftLeft_eq]
    exact Nat.le_mul_of_pos_left _ positive
  have some : 0 < n.toNat <<< k := Nat.lt_of_lt_of_le (Nat.two_pow_pos k) scaled
  have longer : k ≤ (n.toNat <<< k).log2 := (Nat.le_log2 (Nat.ne_of_gt some)).mpr scaled
  exact perceptible_roundWithAccuracy _ .exact some (by omega)

theorem perceptible_ofScientific {n : Nat} (positive : 0 < n) :
    Perceptible (UnpackedFloat.ofScientific .binary64 n 0) := by
  have some : n ≠ 0 := Nat.ne_of_gt positive
  have range : (0 : Int) < 2 ^ Format.binary64.exponentBits := by decide
  have below : ¬ (0 : Int) > 2 ^ Format.binary64.exponentBits := Int.not_lt.mpr (Int.le_of_lt range)
  have above : ¬ (0 : Int) < -(2 ^ Format.binary64.exponentBits + n.log2) := by omega
  simp only [UnpackedFloat.ofScientific, some, below, above, ↓reduceDIte, ↓reduceIte, Int.le_refl]
  exact perceptible_mul _ _ (by decide) (Int.add_nonneg (Int.natCast_nonneg _) (Int.le_refl 0))

theorem perceptible_mul_one {x : Float} (h : Perceptible x.toModel.unpack) :
    Perceptible (x * Float.ofBits 4607182418800017408).toModel.unpack := by
  have one : (Float.ofBits 4607182418800017408).toModel.unpack =
      .finite .positive (2 ^ 52) (-52) (by decide) := rfl
  refine Perceptible.unpack_pack ?_
  rw [one]
  generalize x.toModel.unpack = u at *
  cases h with
  | finite _ least => exact perceptible_mul _ _ least (by decide)
  | infinity s => exact .infinity _
  | notANumber => exact .notANumber

theorem perceptible_ofNat {n : Nat} (positive : 0 < n) :
    Perceptible (Float.ofNat n).toModel.unpack := by
  show Perceptible (Float.ofScientific n false 0).toModel.unpack
  rw [Float.ofScientific]
  split
  · next small =>
    refine perceptible_mul_one (perceptible_ofUInt64 ?_)
    rwa [Nat.toUInt64_eq, UInt64.toNat_ofNat_of_lt' (Nat.lt_trans small.1 (by decide))]
  · exact (perceptible_ofScientific positive).unpack_pack

theorem Perceptible.neg {x : Float} (h : Perceptible x.toModel.unpack) :
    Perceptible (-x).toModel.unpack := by
  refine Perceptible.unpack_pack ?_
  generalize x.toModel.unpack = u at *
  cases h with
  | finite short least => exact .finite short least
  | infinity s => exact .infinity _
  | notANumber => exact .notANumber

theorem perceptible_ofInt {n : Int} (some : n ≠ 0) : Perceptible (Float.ofInt n).toModel.unpack := by
  cases n with
  | ofNat n => exact perceptible_ofNat (Nat.pos_of_ne_zero fun none => some (congrArg _ none))
  | negSucc n => exact (perceptible_ofNat n.succ_pos).neg

/-- A whole number compares as equal to zero only if it is zero. -/
theorem beq_ofInt_zero_iff {n : Int} : (Float.ofInt n == 0.0) = true ↔ n = 0 := by
  constructor
  · intro equal
    refine Decidable.by_contra fun some => ?_
    have seen := perceptible_ofInt some
    have zero : (Float.toModel 0.0).unpack = .zero .positive := rfl
    obtain ⟨-, -, same⟩ := (beq_iff_ne_notANumber_and_eq _ _).mp equal
    rw [zero] at same
    rcases same with same | ⟨same, -⟩ | ⟨same, -⟩ <;> rw [same] at seen <;> cases seen
  · rintro rfl
    decide

end ScriptEngine.Decimal
