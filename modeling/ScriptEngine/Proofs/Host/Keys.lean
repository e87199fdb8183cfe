import ScriptEngine.Host.Collections
import ScriptEngine.Proofs.Decimal.Shortest
import ScriptEngine.Proofs.Display.Numbers
import ScriptEngine.Proofs.OrderedMap

/-!
# Numbers as keys of the maps of a host

A number with a fraction has a key of its own, the fewest digits that read back to it. A whole number is
turned into a 64-bit integer first, and all those beyond one end of the range become that end.

* `intText_inj`, `toInt_ofIntClamp`: the texts of integers, and the nearest one in the range.
* `Scaled.plain_inj`: decimals with fractions are told apart by their texts.
* `plain_eq_iff`: so are numbers with fractions.
* `HostMap.keyOf_eq_iff`: which numbers have the same key.
* `HostMap.put_put_get`: what a map answers to two numbers.
-/

namespace ScriptEngine

namespace Decimal

open Token

/-! ## Texts of integers -/

theorem not_mem_of_digits {digits : List Char} (h : Digits digits) {c : Char}
    (other : c.isDigit = false) : c ∉ digits := fun mem =>
  Bool.false_ne_true (other.symm.trans (h.all c mem))

theorem toDigits_inj {n m : Nat} (same : Nat.toDigits 10 n = Nat.toDigits 10 m) : n = m :=
  calc n = Nat.ofDigitChars 10 (Nat.toDigits 10 n) 0 := Nat.ofDigitChars_ten_toDigits.symm
    _ = Nat.ofDigitChars 10 (Nat.toDigits 10 m) 0 := by rw [same]
    _ = m := Nat.ofDigitChars_ten_toDigits

theorem toList_intText (n : Int) : (intText n).toList =
    if n < 0 then '-' :: Nat.toDigits 10 n.natAbs else Nat.toDigits 10 n.natAbs := by
  unfold intText natText
  split <;> simp

theorem intText_inj {n m : Int} (same : intText n = intText m) : n = m := by
  have unsigned (k : Nat) : '-' ∉ Nat.toDigits 10 k := not_mem_of_digits (digits_toDigits k) rfl
  have same := congrArg String.toList same
  rw [toList_intText, toList_intText] at same
  split at same <;> split at same
  · have sizes := toDigits_inj (List.cons.inj same).2
    omega
  · exact absurd (same ▸ List.mem_cons_self) (unsigned m.natAbs)
  · exact absurd (same ▸ List.mem_cons_self) (unsigned n.natAbs)
  · have sizes := toDigits_inj same
    omega

theorem point_not_mem_intText (n : Int) : '.' ∉ (intText n).toList := by
  have digits : '.' ∉ Nat.toDigits 10 n.natAbs := 
    not_mem_of_digits (digits_toDigits n.natAbs) rfl
  rw [toList_intText]
  split
  · exact fun mem => digits (List.mem_of_ne_of_mem (by decide) mem)
  · exact digits

/-- The 64-bit integer nearest to an integer. -/
theorem toInt_ofIntClamp (n : Int) :
    (Int64.ofIntClamp n).toInt = max (-2 ^ 63) (min n (2 ^ 63 - 1)) := by
  have low : Int64.minValue.toInt = -2 ^ 63 := rfl
  have high : Int64.maxValue.toInt = 2 ^ 63 - 1 := rfl
  rw [Int64.ofIntClamp]
  split
  · split
    · rw [Int64.toInt_ofIntLE]
      omega
    · omega
  · omega

/-! ## Texts of fractions -/

/-- A decimal is written with a point, in front of which there are digits, and behind it as many as its
exponent says. -/
structure Scaled.Written (s : Scaled) (whole fraction : List Char) : Prop where
  text : s.plain.toList = whole ++ '.' :: fraction
  all : ∀ c ∈ whole, c.isDigit = true
  digits : Nat.ofDigitChars 10 (whole ++ fraction) 0 = s.digits
  places : fraction.length = (-s.exponent).toNat

theorem Scaled.exists_written {s : Scaled} (fraction : s.exponent < 0) :
    ∃ whole fraction, s.Written whole fraction := by
  have text : s.plain = String.ofList _ := if_neg (by omega)
  generalize places_def : (-s.exponent).toNat = places at text
  generalize padded_def : List.replicate (places + 1 - (Nat.toDigits 10 s.digits).length) '0' ++
    Nat.toDigits 10 s.digits = padded at text
  have long : places ≤ padded.length := by
    rw [← padded_def, List.length_append, List.length_replicate]
    omega
  have all : ∀ c ∈ padded, c.isDigit = true := by
    intro c mem
    rw [← padded_def] at mem
    rcases List.mem_append.mp mem with mem | mem
    · rw [List.eq_of_mem_replicate mem]
      rfl
    · exact (digits_toDigits s.digits).all c mem
  refine ⟨_, _, (congrArg String.toList text).trans (String.toList_ofList ..),
    fun c mem => all c (List.mem_of_mem_take mem), ?_, ?_⟩
  · rw [List.take_append_drop, ← padded_def, Nat.ofDigitChars_append,
      Nat.ofDigitChars_replicate_zero, Nat.mul_zero, Nat.ofDigitChars_ten_toDigits]
  · rw [List.length_drop, places_def]
    omega

/-- Decimals with fractions are told apart by their texts. -/
theorem Scaled.plain_inj {s t : Scaled} (fraction : s.exponent < 0) (fraction' : t.exponent < 0)
    (same : s.plain = t.plain) : s = t := by
  obtain ⟨whole, behind, first⟩ := exists_written fraction
  obtain ⟨whole', behind', second⟩ := exists_written fraction'
  have texts : whole ++ '.' :: behind = whole' ++ '.' :: behind' := by
    rw [← first.text, ← second.text, same]
  have wholes : whole = whole' := by
    have taken := congrArg (List.takeWhile Char.isDigit) texts
    rwa [takeWhile_append first.all rfl, takeWhile_append second.all rfl] at taken
  obtain rfl := wholes
  obtain rfl := (List.cons.inj (List.append_cancel_left texts)).2
  have digits : s.digits = t.digits := first.digits.symm.trans second.digits
  have places := first.places.symm.trans second.places
  have exponent : s.exponent = t.exponent := by omega
  cases s
  cases t
  exact congrArg₂ Scaled.mk digits exponent

theorem Scaled.point_mem_plain {s : Scaled} (fraction : s.exponent < 0) : '.' ∈ s.plain.toList := by
  obtain ⟨whole, behind, written⟩ := exists_written fraction
  rw [written.text]
  exact List.mem_append_right whole List.mem_cons_self

theorem Scaled.plain_ne_minus (s : Scaled) (rest : List Char) : s.plain.toList ≠ '-' :: rest := by
  obtain ⟨d, others, text, digit⟩ := (isNumeral_plain s).exists_head
  rw [text]
  rintro ⟨⟩
  cases digit

/-! ## Numbers with fractions -/

section

variable {x y : Float} {p q : ℚ}

theorem isFinite_of_isFinite (finite : x.isFinite = true) : IsFinite x := by
  have shape := unpacked finite
  rw [IsFinite]
  show x.toModel.unpack.isNaN = false ∧ x.toModel.unpack.isInf = false
  generalize x.toModel.unpack = u at shape
  rcases shape with _ | _ <;> exact ⟨rfl, rfl⟩

theorem abs_value (hx : value? x = some p) : |p| = (Binary.ofBits (magnitudeBits x)).value := by
  rw [value?_of_isFinite (isFinite_of_value? hx), Option.some.injEq] at hx
  rw [← hx]
  split
  · rw [abs_neg, abs_of_nonneg (Binary.value_nonneg _)]
  · rw [abs_of_nonneg (Binary.value_nonneg _)]

/-- What is known of a number that is not whole. -/
structure Fractional (x : Float) (p : ℚ) : Prop where
  value : value? x = some p
  part : ¬ isWhole x = true
  pos : 0 < magnitudeBits x
  small : magnitudeBits x < 2047 * 2 ^ 52
  size : |p| = rung (magnitudeBits x)
  ne : ∀ n : Nat, rung (magnitudeBits x) ≠ n
  sign : isSigned x = true ↔ p < 0

theorem fractional (hx : value? x = some p) (part : ¬ isWhole x = true) : Fractional x p := by
  have finite := isFinite_of_value? hx
  have size : |p| = rung (magnitudeBits x) := abs_value hx
  have ne (n : Nat) : rung (magnitudeBits x) ≠ n := by
    intro whole
    rw [← size] at whole
    rcases abs_choice p with same | same <;> rw [same] at whole
    · refine part (isWhole_of_value? (n := n) ?_)
      rw [hx, whole, Int.cast_natCast]
    · refine part (isWhole_of_value? (n := -n) ?_)
      rw [hx, neg_eq_iff_eq_neg.mp whole, Int.cast_neg, Int.cast_natCast]
  have zero : rung 0 = (0 : Nat) := by
    rw [rung, Binary.value, mantissa_ofBits_of_lt (by norm_num)]
    norm_num
  have pos : 0 < magnitudeBits x := Nat.pos_of_ne_zero fun none => ne 0 (none ▸ zero)
  refine ⟨hx, part, pos, magnitudeBits_lt finite, size, ne, ?_⟩
  have positive : 0 ≤ rung (magnitudeBits x) := Binary.value_nonneg _
  have some : p ≠ 0 := by
    rintro rfl
    exact ne 0 (size.symm.trans (by norm_num))
  rw [value?_of_isFinite finite, Option.some.injEq, ← rung] at hx
  split at hx
  · next signed => exact iff_of_true signed (lt_of_le_of_ne (by linarith) some)
  · next unsigned => exact iff_of_false unsigned (by linarith)

namespace Fractional

variable (h : Fractional x p) (h' : Fractional y q)

include h

theorem exponent_neg : ((Binary.ofBits (magnitudeBits x)).shortest .up).exponent < 0 :=
  exponent_shortest_neg h.pos (h.small.trans (by norm_num)) h.ne

theorem toList_plain : (plain x).toList =
    if isSigned x then '-' :: ((Binary.ofBits (magnitudeBits x)).shortest .up).plain.toList
    else ((Binary.ofBits (magnitudeBits x)).shortest .up).plain.toList := by
  rw [Decimal.toList_plain (isFinite_of_isFinite (isFinite_of_value? h.value)), digitsOf,
    if_neg h.pos.ne']

theorem point_mem_plain : '.' ∈ (plain x).toList := by
  have point := Scaled.point_mem_plain h.exponent_neg
  rw [h.toList_plain]
  split
  · exact List.mem_cons_of_mem _ point
  · exact point

include h'

/-- Numbers with fractions are told apart by their texts. -/
theorem plain_eq_iff : plain x = plain y ↔ p = q := by
  constructor
  · intro same
    have texts := congrArg String.toList same
    rw [h.toList_plain, h'.toList_plain] at texts
    have both : isSigned x = isSigned y ∧
        ((Binary.ofBits (magnitudeBits x)).shortest .up).plain =
          ((Binary.ofBits (magnitudeBits y)).shortest .up).plain := by
      split at texts <;> split at texts
      · next sign sign' =>
        exact ⟨sign.trans sign'.symm, String.toList_inj.mp (List.cons.inj texts).2⟩
      · exact absurd texts.symm (Scaled.plain_ne_minus _ _)
      · exact absurd texts (Scaled.plain_ne_minus _ _)
      · next sign sign' =>
        rw [Bool.not_eq_true] at sign sign'
        exact ⟨sign.trans sign'.symm, String.toList_inj.mp texts⟩
    have magnitudes : magnitudeBits x = magnitudeBits y :=
      shortest_inj h.pos h'.pos (by have := h.small; omega) (by have := h'.small; omega)
        (Scaled.plain_inj h.exponent_neg h'.exponent_neg both.2)
    have values : some p = some q := by
      rw [← h.value, ← h'.value, value?_of_isFinite (isFinite_of_value? h.value),
        value?_of_isFinite (isFinite_of_value? h'.value), both.1, magnitudes]
    exact Option.some.inj values
  · rintro rfl
    have magnitudes : magnitudeBits x = magnitudeBits y :=
      rung_inj (h.small.trans (by norm_num)) (h'.small.trans (by norm_num))
        (h.size.symm.trans h'.size)
    have signs : isSigned x = isSigned y := Bool.eq_iff_iff.mpr (h.sign.trans h'.sign.symm)
    rw [← String.toList_inj, h.toList_plain, h'.toList_plain, signs, magnitudes]

end Fractional

/-! ## Keys -/

/-- A binary value without a positive exponent is no greater than its digits. -/
theorem Binary.value_le_mantissa {b : Binary} (down : b.exponent ≤ 0) : b.value ≤ b.mantissa := by
  have shrinks : (2 : ℚ) ^ b.exponent ≤ 1 := zpow_le_one_of_nonpos₀ (by norm_num) down
  exact mul_le_of_le_one_right (Nat.cast_nonneg _) shrinks

/-- A number with a fraction is small. -/
theorem Fractional.abs_lt (h : Fractional x p) : |p| < 2 ^ 53 := by
  have down := Binary.exponent_neg h.ne
  have digits : ((Binary.ofBits (magnitudeBits x)).mantissa : ℚ) < 2 ^ 53 := by
    exact_mod_cast mantissa_lt _ (h.small.trans (by norm_num))
  rw [h.size]
  exact (Binary.value_le_mantissa down.le).trans_lt digits

/-- The greatest 64-bit integer is none of the floats, which are all even there. -/
theorem value?_ne_max : value? x ≠ some ((2 ^ 63 - 1 : Int) : ℚ) := by
  intro hx
  have size := abs_value hx
  have digits := mantissa_lt _ ((magnitudeBits_lt (isFinite_of_value? hx)).trans (by norm_num))
  generalize Binary.ofBits (magnitudeBits x) = b at size digits
  have up : 0 < b.exponent := by
    by_contra down
    have small := Binary.value_le_mantissa (not_lt.mp down)
    rw [← size] at small
    norm_num at small
    omega
  obtain ⟨k, same⟩ := Int.eq_ofNat_of_zero_le (by omega : 0 ≤ b.exponent - 1)
  have even : b.value = (2 * (b.mantissa * 2 ^ k) : Int) := by
    rw [Binary.value, show b.exponent = k + 1 by omega, zpow_add_one₀ (by norm_num), zpow_natCast]
    push_cast
    ring
  rw [even, abs_of_nonneg (by norm_num), Int.cast_inj] at size
  omega

end

/-- Whether two values are the same key of a map: the same value, or two beyond the same end of the
64-bit integers. -/
def SameKey (p q : ℚ) : Prop :=
  p = q ∨ 2 ^ 63 ≤ p ∧ 2 ^ 63 ≤ q ∨ p ≤ -2 ^ 63 ∧ q ≤ -2 ^ 63

instance (p q : ℚ) : Decidable (SameKey p q) :=
  inferInstanceAs (Decidable (_ ∨ _))

end Decimal

namespace HostMap

open Decimal

variable {typeName : HostRef → String} {x y : Float} {p q : ℚ}

theorem keyOf_whole {n : Int} (hx : value? x = some (n : ℚ)) :
    keyOf typeName (.number x) = intText (max (-2 ^ 63) (min n (2 ^ 63 - 1))) := by
  rw [keyOf, if_pos (isWhole_of_value? hx), wholeText, wholePart_of_value? hx, toInt_ofIntClamp]

theorem keyOf_fractional (h : Fractional x p) : keyOf typeName (.number x) = plain x := by
  rw [keyOf, if_neg h.part]

theorem keyOf_whole_eq_iff {n k : Int} (hx : value? x = some (n : ℚ)) (hy : value? y = some (k : ℚ)) :
    keyOf typeName (.number x) = keyOf typeName (.number y) ↔ SameKey n k := by
  have apart : n ≠ 2 ^ 63 - 1 := fun same => value?_ne_max (same ▸ hx)
  have apart' : k ≠ 2 ^ 63 - 1 := fun same => value?_ne_max (same ▸ hy)
  have ends :
      SameKey n k ↔ n = k ∨ 2 ^ 63 ≤ n ∧ 2 ^ 63 ≤ k ∨ n ≤ -2 ^ 63 ∧ k ≤ -2 ^ 63 := by
    rw [SameKey]
    norm_cast
  rw [keyOf_whole hx, keyOf_whole hy, ends]
  constructor
  · intro same
    have clamped := intText_inj same
    omega
  · intro same
    congr 1
    omega

theorem keyOf_whole_ne_fractional {n : Int} (hx : value? x = some (n : ℚ)) (h : Fractional y q) :
    keyOf typeName (.number x) ≠ keyOf typeName (.number y) := by
  rw [keyOf_whole hx, keyOf_fractional h]
  exact fun same => point_not_mem_intText _ (same ▸ h.point_mem_plain)

/-- A number with a fraction has a key of its own. -/
theorem sameKey_iff_of_fractional (h : Fractional x p) : SameKey p q ↔ p = q := by
  obtain ⟨above, below⟩ := abs_lt.mp h.abs_lt
  refine or_iff_left ?_
  rintro (⟨large, -⟩ | ⟨small, -⟩)
  · norm_num at large below
    linarith
  · norm_num at small above
    linarith

theorem sameKey_comm : SameKey p q ↔ SameKey q p :=
  or_congr eq_comm (or_congr and_comm and_comm)

/-- Which numbers have the same key. -/
theorem keyOf_eq_iff (hx : value? x = some p) (hy : value? y = some q) :
    keyOf typeName (.number x) = keyOf typeName (.number y) ↔ SameKey p q := by
  have apart {n : Int} {x y : Float} {q : ℚ} (hx : value? x = some (n : ℚ)) (h : Fractional y q) :
      ¬ SameKey q n := by
    rw [sameKey_iff_of_fractional h]
    rintro rfl
    exact h.part (isWhole_of_value? h.value)
  by_cases whole : isWhole x = true <;> by_cases whole' : isWhole y = true
  · have same := isWhole_iff.mp whole
    have same' := isWhole_iff.mp whole'
    obtain rfl := Option.some.inj (hx.symm.trans same)
    obtain rfl := Option.some.inj (hy.symm.trans same')
    exact keyOf_whole_eq_iff same same'
  · have same := isWhole_iff.mp whole
    obtain rfl := Option.some.inj (hx.symm.trans same)
    have h := fractional hy whole'
    exact iff_of_false (keyOf_whole_ne_fractional same h) fun both =>
      apart same h (sameKey_comm.mp both)
  · have same := isWhole_iff.mp whole'
    obtain rfl := Option.some.inj (hy.symm.trans same)
    have h := fractional hx whole
    exact iff_of_false (keyOf_whole_ne_fractional same h).symm (apart same h)
  · have h := fractional hx whole
    rw [keyOf_fractional h, keyOf_fractional (fractional hy whole'), sameKey_iff_of_fractional h]
    exact h.plain_eq_iff (fractional hy whole')

theorem value_insert (m : HostMap) (key other : String) (value : HostValue) :
    HostMap.value (m.insert key value) other = if other = key then value else m.value other := by
  rw [HostMap.value, HostMap.value, Rows.get?_insert]
  split <;> rfl

theorem call_put (m : HostMap) (key value : HostValue) : call typeName m "put" [key, value] =
    .ok (m.value (keyOf typeName key), m.insert (keyOf typeName key) value) := rfl

theorem call_get (m : HostMap) (key : HostValue) : call typeName m "get" [key] =
    .ok (m.value (keyOf typeName key), m) := rfl

/-- Two numbers are put into a map under two keys unless they are the same or both lie beyond the same end
of the 64-bit integers. Then the second one takes the place of the first. -/
theorem put_put_get (typeName : HostRef → String) (hx : value? x = some p) (hy : value? y = some q)
    (m : HostMap) (a b : HostValue) : ∃ m₁ m₂,
      call typeName m "put" [.number x, a] = .ok (m.value (keyOf typeName (.number x)), m₁) ∧
      call typeName m₁ "put" [.number y, b] =
        .ok (if SameKey p q then a else m.value (keyOf typeName (.number y)), m₂) ∧
      call typeName m₂ "get" [.number x] = .ok (if SameKey p q then b else a, m₂) ∧
      call typeName m₂ "get" [.number y] = .ok (b, m₂) ∧
      (keyOf typeName (.number x) = keyOf typeName (.number y) ↔ SameKey p q) := by
  have keys : keyOf typeName (.number x) = keyOf typeName (.number y) ↔ SameKey p q :=
    keyOf_eq_iff hx hy
  generalize kx_def : keyOf typeName (.number x) = kx at *
  generalize ky_def : keyOf typeName (.number y) = ky at *
  refine ⟨m.insert kx a, (m.insert kx a).insert ky b, kx_def ▸ call_put m _ a,
    ky_def ▸ (call_put _ _ b).trans ?_, kx_def ▸ (call_get _ _).trans ?_,
    ky_def ▸ (call_get _ _).trans ?_, keys⟩
  · rw [ky_def, value_insert]
    simp only [← keys, eq_comm]
  · rw [kx_def, value_insert, value_insert, if_pos rfl]
    simp only [← keys]
  · rw [ky_def, value_insert, if_pos rfl]

/-- The least powers of ten beyond the 64-bit integers share a key. -/
theorem put_put_get_of_powers : ∃ m₁ m₂,
    call (fun _ => "") .empty "put" [.number 1e19, .bool true] = .ok (.null, m₁) ∧
    call (fun _ => "") m₁ "put" [.number 1e20, .bool false] = .ok (.bool true, m₂) ∧
    call (fun _ => "") m₂ "get" [.number 1e19] = .ok (.bool false, m₂) := by
  have first : value? 1e19 = some (10 ^ 19 : ℚ) := by decide +kernel
  have second : value? 1e20 = some (10 ^ 20 : ℚ) := by decide +kernel
  have same : SameKey (10 ^ 19) (10 ^ 20) := by decide +kernel
  obtain ⟨m₁, m₂, put, put', get, -⟩ :=
    put_put_get (fun _ => "") first second .empty (.bool true) (.bool false)
  rw [if_pos same] at put' get
  exact ⟨m₁, m₂, put, put', get⟩

theorem keyOf_powers : value? 1e19 ≠ value? 1e20 ∧
    keyOf (fun _ => "") (.number 1e19) = keyOf (fun _ => "") (.number 1e20) := by
  decide +kernel

end HostMap

end ScriptEngine
