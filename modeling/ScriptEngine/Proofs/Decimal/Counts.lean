import ScriptEngine.Proofs.Decimal.Value

/-!
# Counts as numbers

A natural number below 2⁵³ has no more digits than there is room for in a float. It is held as it is, and
the sum and the difference of two such numbers are calculated without rounding.

* `roundWithAccuracy_exact`, `unpack_pack_of_full`: digits for which there is room are kept.
* `counted`, `unpack_ofNat`: what a count is as a float.
* `ofNat_add_ofNat`, `ofNat_sub_ofNat`: sums and differences of counts.
* `value?_ofNat`, `steps_ofNat`, `ofNat_lt_ofNat_iff`: the value of a count, its steps and its order.
-/

namespace ScriptEngine.Decimal

open Float.Model Float.Model.UnpackedFloat

/-! ## Rounding of what needs none -/

theorem shiftRight_exact (m k : Nat) :
    (⟨m * 2 ^ k, false, false⟩ : ExtendedMantissa) >>> k = ⟨m, false, false⟩ := by
  induction k generalizing m with
  | zero => simp [HShiftRight.hShiftRight, Nat.repeat]
  | succ k ih =>
    have half : m * 2 ^ (k + 1) = m * 2 * 2 ^ k := by rw [Nat.pow_succ]; ac_rfl
    show ((⟨m * 2 ^ (k + 1), false, false⟩ : ExtendedMantissa) >>> k).shiftRightOne = _
    rw [half, ih, ExtendedMantissa.shiftRightOne]
    simp

theorem log2_mul_two_pow {n : Nat} (some : 0 < n) (k : Nat) : (n * 2 ^ k).log2 = n.log2 + k := by
  refine (Nat.log2_eq_iff (by positivity)).mpr ⟨?_, ?_⟩
  · rw [Nat.pow_add]
    exact Nat.mul_le_mul_right _ (Nat.log2_self_le (Nat.ne_of_gt some))
  · rw [Nat.add_right_comm, Nat.pow_add]
    exact Nat.mul_lt_mul_of_pos_right n.lt_log2_self (Nat.two_pow_pos k)

/-- The exponent that a float has for digits with zeros behind them, whichever their number. -/
theorem targetExponent_zeros {n : Nat} (some : 0 < n) (k : Nat) (e : Int) :
    Format.binary64.targetExponent (totalExponent (n * 2 ^ k) (e - k)) =
      max (n.log2 + e - 52) (-1074) := by
  have log := log2_mul_two_pow some k
  show max (((n * 2 ^ k).log2 : Int) + 1 + (e - k) - 53) (-1074) = _
  omega

/-- Digits for which there is just the room, with zeros behind them. -/
theorem shiftToTargetExponent_exact {m k : Nat} {e : Int} (full : 2 ^ 52 ≤ m) (short : m < 2 ^ 53)
    (least : -1074 ≤ e) :
    shiftToTargetExponent .binary64 (m * 2 ^ k) (e - k) .exact = (⟨m, false, false⟩, e) := by
  have log : m.log2 = 52 := (Nat.log2_eq_iff (by omega)).mpr ⟨full, short⟩
  have target : max (m.log2 + e - 52) (-1074) = e := by omega
  have amount : (e - (e - k)).toNat = k := by omega
  rw [shiftToTargetExponent, targetExponent_zeros (by omega), target, shiftToExponent, amount]
  exact congrArg₂ Prod.mk (shiftRight_exact m k) (by omega)

/-- Zeros behind the digits are cut off without a trace. -/
theorem roundWithAccuracy_exact {m k : Nat} {e : Int} (s : Sign) (full : 2 ^ 52 ≤ m)
    (short : m < 2 ^ 53) (least : -1074 ≤ e) :
    roundWithAccuracy .binary64 s (m * 2 ^ k) (e - k) .exact =
      .finite s m e (Nat.lt_of_lt_of_le (by decide) full) := by
  have again : shiftToTargetExponent .binary64 m e .exact = (⟨m, false, false⟩, e) := by
    have unshifted := shiftToTargetExponent_exact (k := 0) full short least
    rwa [Nat.pow_zero, Nat.mul_one, Nat.cast_zero, Int.sub_zero] at unshifted
  have rounded : (⟨m, false, false⟩ : ExtendedMantissa).roundedMantissa = m := rfl
  rw [roundWithAccuracy, shiftToTargetExponent_exact full short least]
  dsimp only
  rw [rounded, again]
  exact dif_neg (show ¬ m = 0 by omega)

/-- Digits, as many as there is room for, and an exponent for which there is room are packed as they
are. -/
theorem unpack_pack_of_full (s : Sign) {m : Nat} {e : Int} (full : 2 ^ 52 ≤ m) (short : m < 2 ^ 53)
    (least : -1074 ≤ e) (most : e ≤ 971) (positive : 0 < m) :
    UnpackedFloat.unpack .binary64 (UnpackedFloat.pack .binary64 (.finite s m e positive)) =
      .finite s m e positive := by
  have log : m.log2 = 52 := (Nat.log2_eq_iff (by omega)).mpr ⟨full, short⟩
  obtain ⟨biased, rfl⟩ : ∃ biased : Nat, e = biased - 1075 := ⟨(e + 1075).toNat, by omega⟩
  have packed : UnpackedFloat.pack .binary64 (.finite s m (biased - 1075) positive) =
      packComponents .binary64 s (BitVec.ofNat 11 biased) (BitVec.ofNat 52 m) := by
    have exponent : ((biased - 1075 : Int) + 1023 + 52).toNat = biased := by omega
    show (if 2048 ≤ ((biased - 1075 : Int) + 1023 + 52).toNat + 1 then _
      else if m.log2 + 1 = 53 then packComponents .binary64 s
        (BitVec.ofNat 11 ((biased - 1075 : Int) + 1023 + 52).toNat) (BitVec.ofNat 52 m) else _) = _
    rw [exponent, if_neg (by omega), if_pos (by omega)]
  have exponent : (BitVec.ofNat 11 biased).toNat = biased := by
    rw [BitVec.toNat_ofNat]
    omega
  have digits : (1#1 ++ BitVec.ofNat 52 m).toNat = m := by
    rw [toNat_one_append, BitVec.toNat_ofNat]
    omega
  have notAll : BitVec.ofNat 11 biased ≠ -1#11 := by
    intro all
    have all : biased = 2047 := exponent.symm.trans (congrArg BitVec.toNat all)
    omega
  have notNone : BitVec.ofNat 11 biased ≠ 0#11 := by
    intro none
    have none : biased = 0 := exponent.symm.trans (congrArg BitVec.toNat none)
    omega
  rw [packed, UnpackedFloat.unpack]
  simp only [unpackMantissa_packComponents, unpackExponent_packComponents,
    unpackSign_packComponents, Sign.ofBitVec_toBitVec, if_neg notAll, if_neg notNone, digits,
    exponent]
  rfl

/-! ## Counts -/

/-- The digits of a count in a float, and their exponent. -/
def counted (n : Nat) : UnpackedFloat :=
  if some : 0 < n then
    .finite .positive (n * 2 ^ (52 - n.log2)) (n.log2 - 52) (Nat.mul_pos some (Nat.two_pow_pos _))
  else .zero .positive

section

variable {n : Nat} (some : 0 < n) (small : n < 2 ^ 53)

include some small

theorem log2_le : n.log2 ≤ 52 := Nat.le_of_lt_succ ((Nat.log2_lt (by omega)).mpr small)

theorem digits_bounds : 2 ^ 52 ≤ n * 2 ^ (52 - n.log2) ∧ n * 2 ^ (52 - n.log2) < 2 ^ 53 := by
  have le := log2_le some small
  have below := Nat.log2_self_le (Nat.ne_of_gt some)
  have above := n.lt_log2_self
  constructor
  · calc 2 ^ 52 = 2 ^ n.log2 * 2 ^ (52 - n.log2) := by rw [← Nat.pow_add]; congr 1; omega
      _ ≤ n * 2 ^ (52 - n.log2) := Nat.mul_le_mul_right _ below
  · calc n * 2 ^ (52 - n.log2) < 2 ^ (n.log2 + 1) * 2 ^ (52 - n.log2) :=
        Nat.mul_lt_mul_of_pos_right above (Nat.two_pow_pos _)
      _ = 2 ^ 53 := by rw [← Nat.pow_add]; congr 1; omega

/-- A count is rounded to itself, whichever zeros stand behind it. -/
theorem round_count (k : Nat) :
    UnpackedFloat.round .binary64 .positive (n * 2 ^ k) (-k) = counted n := by
  have le := log2_le some small
  obtain ⟨full, short⟩ := digits_bounds some small
  have target : Format.binary64.targetExponent (totalExponent (n * 2 ^ k) (-k)) = n.log2 - 52 := by
    have zeros := targetExponent_zeros some k 0
    rw [Int.zero_sub] at zeros
    omega
  rw [UnpackedFloat.round, target, decreaseExponent, counted, dif_pos some]
  dsimp only
  rcases Nat.le_total (52 - n.log2) k with more | fewer
  · obtain ⟨j, rfl⟩ := Nat.exists_eq_add_of_le more
    have amount : (-((52 - n.log2 + j : Nat) : Int) - (n.log2 - 52)).toNat = 0 := by omega
    have exponent : -((52 - n.log2 + j : Nat) : Int) - (0 : Nat) = (n.log2 - 52 : Int) - j := by omega
    rw [amount, Nat.shiftLeft_zero, exponent, Nat.pow_add, ← Nat.mul_assoc]
    exact roundWithAccuracy_exact .positive full short (by omega)
  · have amount : (-(k : Int) - (n.log2 - 52)).toNat = 52 - n.log2 - k := by omega
    have digits : (n * 2 ^ k) <<< (52 - n.log2 - k) = n * 2 ^ (52 - n.log2) * 2 ^ 0 := by
      rw [Nat.shiftLeft_eq, Nat.mul_assoc, ← Nat.pow_add, Nat.add_sub_cancel' fewer, Nat.pow_zero,
        Nat.mul_one]
    have exponent :
        -(k : Int) - ((52 - n.log2 - k : Nat) : Int) = (n.log2 - 52 : Int) - (0 : Nat) := by
      omega
    rw [amount, digits, exponent]
    exact roundWithAccuracy_exact .positive full short (by omega)

theorem unpack_pack_counted :
    UnpackedFloat.unpack .binary64 (UnpackedFloat.pack .binary64 (counted n)) = counted n := by
  obtain ⟨full, short⟩ := digits_bounds some small
  have le := log2_le some small
  rw [counted, dif_pos some]
  exact unpack_pack_of_full .positive full short (by omega) (by omega) _

theorem normalize_count (k : Nat) (z : Sign) :
    UnpackedFloat.normalize .binary64 (n * 2 ^ k : Nat) (-k) z = counted n := by
  have positive : compare ((n * 2 ^ k : Nat) : Int) 0 = .gt :=
    Int.compare_eq_gt.mpr (by positivity)
  rw [UnpackedFloat.normalize, positive]
  exact round_count some small k

end

theorem counted_zero : counted 0 = .zero .positive := rfl

theorem unpack_pack_count {n : Nat} (small : n < 2 ^ 53) :
    UnpackedFloat.unpack .binary64 (UnpackedFloat.pack .binary64 (counted n)) = counted n := by
  rcases Nat.eq_zero_or_pos n with rfl | some
  · exact unpack_packedZero
  · exact unpack_pack_counted some small

theorem ofUInt64_eq {n : Nat} (small : n < 2 ^ 53) :
    UnpackedFloat.ofUInt64 .binary64 n.toUInt64 = counted n := by
  have same : n.toUInt64.toNat = n :=
    UInt64.toNat_ofNat_of_lt' (Nat.lt_trans small (by decide))
  rw [UnpackedFloat.ofUInt64, same, UnpackedFloat.ofNat, UnpackedFloat.ofInt]
  rcases Nat.eq_zero_or_pos n with rfl | some
  · rfl
  · have exactly := normalize_count some small 0 .positive
    rwa [Nat.pow_zero, Nat.mul_one] at exactly

theorem mul_one_counted {n : Nat} (small : n < 2 ^ 53) : UnpackedFloat.mul .binary64 (counted n)
    (.finite .positive (2 ^ 52) (-52) (by decide)) = counted n := by
  rcases Nat.eq_zero_or_pos n with rfl | some
  · rfl
  · obtain ⟨full, short⟩ := digits_bounds some small
    have le := log2_le some small
    rw [counted, dif_pos some]
    exact roundWithAccuracy_exact (k := 52) .positive full short (by omega)

/-- A count as a float. -/
theorem ofNat_eq_pack {n : Nat} (small : n < 2 ^ 53) :
    Float.ofNat n = .ofModel (.pack (counted n)) := by
  show Float.ofScientific n false 0 = _
  rw [Float.ofScientific, dif_pos ⟨small, by decide⟩]
  show Float.ofModel (.pack (UnpackedFloat.mul .binary64
    (UnpackedFloat.unpack .binary64 (UnpackedFloat.pack .binary64
      (UnpackedFloat.ofUInt64 .binary64 n.toUInt64)))
    (Float.ofBits 4607182418800017408).toModel.unpack)) = _
  have one : (Float.ofBits 4607182418800017408).toModel.unpack =
    .finite .positive (2 ^ 52) (-52) (by decide) := rfl
  rw [ofUInt64_eq small, unpack_pack_count small, one, mul_one_counted small]

theorem unpack_ofNat {n : Nat} (small : n < 2 ^ 53) :
    (Float.ofNat n).toModel.unpack = counted n := by
  rw [ofNat_eq_pack small]
  exact unpack_pack_count small

/-! ## Calculating with counts -/

section

variable {m n : Nat}

theorem decreaseExponent_count (some : 0 < n) (small : n < 2 ^ 53) {k : Nat}
    (more : 52 - n.log2 ≤ k) :
    (decreaseExponent (n * 2 ^ (52 - n.log2)) (n.log2 - 52) (-k)).1 = n * 2 ^ k := by
  have le := log2_le some small
  have amount : ((n.log2 - 52 : Int) - -(k : Int)).toNat = k - (52 - n.log2) := by omega
  rw [decreaseExponent, amount]
  show (n * 2 ^ (52 - n.log2)) <<< (k - (52 - n.log2)) = n * 2 ^ k
  rw [Nat.shiftLeft_eq, Nat.mul_assoc, ← Nat.pow_add, Nat.add_sub_cancel' more]

/-- The exponent of two counts with enough zeros for both. -/
theorem exists_min_eq (some : 0 < m) (some' : 0 < n) (small : m < 2 ^ 53) (small' : n < 2 ^ 53) :
    ∃ k : Nat, min (m.log2 - 52 : Int) (n.log2 - 52) = -k ∧ 52 - m.log2 ≤ k ∧ 52 - n.log2 ≤ k := by
  have le := log2_le some small
  have le' := log2_le some' small'
  exact ⟨max (52 - m.log2) (52 - n.log2), by omega, by omega, by omega⟩

/-- Counts are added without rounding, -/
theorem add_counted (small : m + n < 2 ^ 53) :
    UnpackedFloat.add .binary64 (counted m) (counted n) = counted (m + n) := by
  rcases Nat.eq_zero_or_pos m with rfl | some
  · rw [Nat.zero_add, counted_zero]
    unfold counted
    split <;> rfl
  rcases Nat.eq_zero_or_pos n with rfl | some'
  · rw [Nat.add_zero, counted_zero, counted, dif_pos some]
    rfl
  obtain ⟨k, least, zeros, zeros'⟩ := exists_min_eq some some' (by omega) (by omega)
  rw [counted, dif_pos some, counted, dif_pos some', UnpackedFloat.add]
  dsimp only
  rw [least, decreaseExponent_count some (by omega) zeros,
    decreaseExponent_count some' (by omega) zeros', ← normalize_count (by omega) small k .positive,
    Nat.add_mul, Nat.cast_add]
  rfl

/-- and subtracted. -/
theorem sub_counted (le : n ≤ m) (small : m < 2 ^ 53) :
    UnpackedFloat.sub .binary64 (counted m) (counted n) = counted (m - n) := by
  rcases Nat.eq_zero_or_pos n with rfl | some'
  · rw [Nat.sub_zero, counted_zero]
    unfold counted
    split <;> rfl
  have some : 0 < m := Nat.lt_of_lt_of_le some' le
  obtain ⟨k, least, zeros, zeros'⟩ := exists_min_eq some some' small (by omega)
  have difference : ((m * 2 ^ k : Nat) : Int) - (n * 2 ^ k : Nat) = ((m - n) * 2 ^ k : Nat) := by
    rw [Nat.sub_mul, Nat.cast_sub (Nat.mul_le_mul_right _ le)]
  rw [counted, dif_pos some, counted, dif_pos some', UnpackedFloat.sub]
  dsimp only
  rw [least, decreaseExponent_count some small zeros,
    decreaseExponent_count some' (by omega) zeros']
  show UnpackedFloat.normalize .binary64 (((m * 2 ^ k : Nat) : Int) - (n * 2 ^ k : Nat)) (-k)
    .positive = _
  rw [difference]
  rcases Nat.eq_or_lt_of_le le with rfl | less
  · rw [Nat.sub_self, Nat.zero_mul, counted_zero]
    rfl
  · exact normalize_count (by omega) (by omega) k .positive

theorem ofNat_add_ofNat (small : m + n < 2 ^ 53) :
    Float.ofNat m + Float.ofNat n = Float.ofNat (m + n) := by
  rw [ofNat_eq_pack small, ← add_counted small, ← unpack_ofNat (n := m) (by omega),
    ← unpack_ofNat (n := n) (by omega)]
  rfl

theorem ofNat_sub_ofNat (le : n ≤ m) (small : m < 2 ^ 53) :
    Float.ofNat m - Float.ofNat n = Float.ofNat (m - n) := by
  rw [ofNat_eq_pack (by omega : m - n < 2 ^ 53), ← sub_counted le small, ← unpack_ofNat small,
    ← unpack_ofNat (n := n) (by omega)]
  rfl

/-! ## The value of a count -/

theorem value_counted (some : 0 < n) (small : n < 2 ^ 53) :
    ((n * 2 ^ (52 - n.log2) : Nat) : ℚ) * 2 ^ (n.log2 - 52 : Int) = n := by
  have le := log2_le some small
  have power : (n.log2 - 52 : Int) = -((52 - n.log2 : Nat) : Int) := by omega
  rw [power, zpow_neg, zpow_natCast, Nat.cast_mul, Nat.cast_pow, Nat.cast_ofNat, mul_assoc,
    mul_inv_cancel₀ (by positivity), mul_one]

/-- A count is its own value. -/
theorem value?_ofNat (small : n < 2 ^ 53) : value? (Float.ofNat n) = some (n : ℚ) := by
  have finite : (Float.ofNat n).isFinite = true := by
    show (Float.ofNat n).toModel.unpack.isFinite = true
    rw [unpack_ofNat small, counted]
    split <;> rfl
  have shape := unpacked finite
  rw [value?_of_isFinite finite, Option.some_inj]
  rw [unpack_ofNat small] at shape
  generalize Binary.ofBits (magnitudeBits (Float.ofNat n)) = b at *
  rcases Nat.eq_zero_or_pos n with rfl | some
  · rw [counted_zero] at shape
    obtain ⟨none⟩ := shape
    rw [Binary.value, none]
    simp
  · rw [counted, dif_pos some] at shape
    by_cases signed : isSigned (Float.ofNat n) = true
    · rw [if_pos signed] at shape
      cases shape
    · rw [if_neg signed] at shape ⊢
      obtain ⟨digits, exponent⟩ := shape
      rw [Binary.value, ‹b.mantissa = _›, ‹b.exponent = _›]
      exact value_counted some small

theorem steps_ofNat (small : n < 2 ^ 53) : steps (Float.ofNat n) = n := by
  rw [steps_of_value? (value?_ofNat small), Nat.floor_natCast]
  omega

/-- Counts are ordered as numbers as they are. -/
theorem ofNat_lt_ofNat_iff (small : m < 2 ^ 53) (small' : n < 2 ^ 53) :
    Float.ofNat m < Float.ofNat n ↔ m < n := by
  rw [lt_iff_of_value? (value?_ofNat small) (value?_ofNat small'), Nat.cast_lt]

theorem not_ofNat_lt_zero (small : n < 2 ^ 53) : ¬ Float.ofNat n < 0.0 := by
  rw [lt_zero_iff (value?_ofNat small), not_lt]
  exact Nat.cast_nonneg n

/-- No count is the number that stands for nothing found. -/
theorem ofNat_ne_neg_one (small : n < 2 ^ 53) : Float.ofNat n ≠ -1.0 := by
  intro same
  refine not_ofNat_lt_zero small ?_
  rw [same]
  decide +kernel

end

end ScriptEngine.Decimal
