import Mathlib
import ScriptEngine.Proofs.Display.Numbers

/-!
# Numbers and their signs

A number that is finite is its sign and what stands behind it, and so is its text: a minus if the sign
is set, and a numeral that does not depend on the sign.

* `Decimal.HasParts`, `Decimal.exists_parts`: the sign, the power of two and the digits of a float.
* `Decimal.HasParts.neg`, `Decimal.HasParts.abs`: only the sign changes.
* `Decimal.plain_of_signed`, `Decimal.abs_of_unsigned`: so it is with the text.
-/

namespace ScriptEngine.Decimal

open Token Float.Model Float.Model.UnpackedFloat

/-! ## Parts of floats -/

/-- An operation that only changes the sign of what is a number. -/
structure ChangesSign (op : UnpackedFloat → UnpackedFloat) (change : Sign → Sign) : Prop where
  none : op .notANumber = .notANumber
  infinity : ∀ s, op (.infinity s) = .infinity (change s)
  zero : ∀ s, op (.zero s) = .zero (change s)
  finite : ∀ s m e pos, op (.finite s m e pos) = .finite (change s) m e pos

/-- The sign of a float is the first part of its bits. -/
theorem ChangesSign.unpack {op : UnpackedFloat → UnpackedFloat} {change : Sign → Sign}
    (h : ChangesSign op change) {spec : Format} (s : Sign) (e : BitVec spec.exponentBits)
    (m : BitVec spec.mantissaBitsWithoutImplicit) :
    UnpackedFloat.unpack spec (packComponents spec (change s) e m) =
      op (UnpackedFloat.unpack spec (packComponents spec s e m)) := by
  have sign (s : Sign) : Sign.ofBitVec s.toBitVec = s := by cases s <;> rfl
  unfold UnpackedFloat.unpack
  simp only [unpackSign_packComponents, unpackExponent_packComponents,
    unpackMantissa_packComponents, sign]
  split
  · split
    · exact (h.infinity s).symm
    · exact h.none.symm
  · split
    · split
      · exact (h.zero s).symm
      · exact (h.finite s _ _ _).symm
    · exact (h.finite s _ _ _).symm

/-- A float is finite and has these bits: its sign, its power of two and its digits. -/
structure HasParts (x : Float) (s : Sign) (e : BitVec 11) (m : BitVec 52) : Prop where
  bits : x.toBits.toBitVec = packComponents .binary64 s e m
  finite : e ≠ -1#11

theorem exists_parts {x : Float} (finite : IsFinite x) : ∃ s e m, HasParts x s e m := by
  have bits : packComponents .binary64 _ _ _ = x.toBits.toBitVec :=
    packComponents_unpackSign_unpackExponent_unpackMantissa _
  refine ⟨_, _, _, bits.symm, fun last => ?_⟩
  have number : (UnpackedFloat.unpack .binary64 x.toBits.toBitVec).isNaN = false := finite.1
  have bounded : (UnpackedFloat.unpack .binary64 x.toBits.toBitVec).isInf = false := finite.2
  rw [UnpackedFloat.unpack] at number bounded
  dsimp only at number bounded
  rw [if_pos last] at number bounded
  split at number
  · next none =>
    rw [if_pos none] at bounded
    cases bounded
  · cases number

namespace HasParts

variable {x y : Float} {s : Sign} {e : BitVec 11} {m : BitVec 52}

theorem inj (h : HasParts x s e m) (h' : HasParts y s e m) : x = y := by
  obtain ⟨⟨⟨bits⟩, valid⟩⟩ := x
  obtain ⟨⟨⟨bits'⟩, valid'⟩⟩ := y
  obtain rfl : bits = bits' := h.bits.trans h'.bits.symm
  rfl

/-- Such a float is neither infinite nor none at all. -/
theorem isFinite (h : HasParts x s e m) : IsFinite x := by
  have unpacked : x.toModel.unpack =
      UnpackedFloat.unpack .binary64 (packComponents .binary64 s e m) :=
    congrArg (UnpackedFloat.unpack .binary64) h.bits
  have inside : unpackExponent (packComponents .binary64 s e m) ≠ -1#11 := by
    rw [unpackExponent_packComponents]
    exact h.finite
  rw [UnpackedFloat.unpack] at unpacked
  dsimp only at unpacked
  rw [if_neg inside] at unpacked
  unfold IsFinite Float.isNaN Float.isInf Float.Model.isNaN Float.Model.isInf
  rw [unpacked]
  split
  · split <;> exact ⟨rfl, rfl⟩
  · exact ⟨rfl, rfl⟩

/-- What only changes the sign of a number leaves its other parts. -/
theorem changed {op : UnpackedFloat → UnpackedFloat} (change : Sign → Sign)
    (changes : ChangesSign op change) (h : HasParts x s e m)
    (same : y.toBits.toBitVec =
      UnpackedFloat.pack .binary64 (op (UnpackedFloat.unpack .binary64 x.toBits.toBitVec))) :
    HasParts y (change s) e m := by
  refine ⟨?_, h.finite⟩
  rw [same, h.bits, ← changes.unpack, pack_unpack, if_neg]
  rw [isNaNBits, unpackExponent_packComponents]
  exact fun none => h.finite (of_decide_eq_true none).1

theorem neg (h : HasParts x s e m) : HasParts (-x) (-s) e m :=
  h.changed Neg.neg ⟨rfl, fun _ => rfl, fun _ => rfl, fun _ _ _ _ => rfl⟩ rfl

theorem abs (h : HasParts x s e m) : HasParts x.abs .positive e m :=
  h.changed (fun _ => .positive) ⟨rfl, fun _ => rfl, fun _ => rfl, fun _ _ _ _ => rfl⟩ rfl

/-! ## Bits -/

theorem toNat_append {v w : Nat} (a : BitVec v) (b : BitVec w) :
    (a ++ b).toNat = a.toNat * 2 ^ w + b.toNat := by
  rw [BitVec.toNat_append, ← Nat.shiftLeft_add_eq_or_of_lt b.isLt, Nat.shiftLeft_eq]

theorem toNat_toBits (h : HasParts x s e m) :
    x.toBits.toNat = s.toBitVec.toNat * 2 ^ 63 + (e.toNat * 2 ^ 52 + m.toNat) := by
  have bits : x.toBits.toNat = (s.toBitVec ++ e ++ m).toNat := congrArg BitVec.toNat h.bits
  rw [bits, toNat_append, toNat_append]
  omega

theorem magnitudeBits_eq (h : HasParts x s e m) : magnitudeBits x = e.toNat * 2 ^ 52 + m.toNat := by
  have small : e.toNat * 2 ^ 52 + m.toNat < 2 ^ 63 := by
    have := e.isLt
    have := m.isLt
    omega
  rw [magnitudeBits, h.toNat_toBits, Nat.pow_eq, Nat.mul_add_mod_self_right, Nat.mod_eq_of_lt small]

theorem isSigned_negative (h : HasParts x .negative e m) : isSigned x = true := by
  rw [isSigned, h.toNat_toBits]
  exact decide_eq_true (Nat.le_trans (Nat.le_of_eq (Nat.one_mul _).symm) (Nat.le_add_right _ _))

theorem isSigned_positive (h : HasParts x .positive e m) : isSigned x = false := by
  have := e.isLt
  have := m.isLt
  rw [isSigned, h.toNat_toBits, Nat.pow_eq]
  refine decide_eq_false (Nat.not_le_of_lt ?_)
  rw [Sign.toBitVec]
  simp only [BitVec.toNat_ofNat]
  omega

end HasParts

/-! ## Texts -/

variable {x : Float}

/-- A finite number with its sign set is the negated one without, and is written as that with a
minus. -/
theorem plain_of_signed (finite : IsFinite x) (signed : isSigned x = true) :
    -x.abs = x ∧ (plain x).toList = '-' :: (plain x.abs).toList := by
  obtain ⟨s, e, m, parts⟩ := exists_parts finite
  cases s with
  | positive =>
    rw [parts.isSigned_positive] at signed
    cases signed
  | negative =>
    have digits : digitsOf x.abs = digitsOf x := by
      rw [digitsOf, digitsOf, parts.magnitudeBits_eq, parts.abs.magnitudeBits_eq]
    refine ⟨parts.abs.neg.inj parts, ?_⟩
    rw [toList_plain finite, if_pos signed, toList_plain parts.abs.isFinite,
      parts.abs.isSigned_positive, if_neg Bool.false_ne_true, digits]

/-- A finite number without its sign set is its own magnitude. -/
theorem abs_of_unsigned (finite : IsFinite x) (unsigned : isSigned x = false) : x.abs = x := by
  obtain ⟨s, e, m, parts⟩ := exists_parts finite
  cases s with
  | positive => exact parts.abs.inj parts
  | negative =>
    rw [parts.isSigned_negative] at unsigned
    cases unsigned

/-- The magnitude of a finite number is written as a numeral. -/
theorem isNumeral_plain_abs (finite : IsFinite x) : IsNumeral (plain x.abs).toList := by
  obtain ⟨s, e, m, parts⟩ := exists_parts finite
  rw [toList_plain parts.abs.isFinite, parts.abs.isSigned_positive, if_neg Bool.false_ne_true]
  exact isNumeral_digitsOf x.abs

end ScriptEngine.Decimal
