import ScriptEngine.Proofs.Decimal.Value

/-!
# The shortest decimal of a float

The floats are the rungs of a ladder, one for each number of bits. The reals that round to one of them
reach half way to its two neighbours, so that the intervals of two floats have nothing in common. The
search for a decimal ends inside the interval of its float, because seventeen digits are always enough,
and so different floats have different shortest decimals.

* `rung_succ`, `step_succ`: the next float, and how the steps widen.
* `lower_interval`, `upper_interval`, `not_holds_of_lt`: where intervals end, and that they do not
  overlap.
* `Interval.holds_search`, `Interval.width_le_of_gridPoint?`: what the search finds, and which grids it
  leaves.
* `Binary.holds_shortest`, `shortest_inj`: the shortest decimal belongs to its float alone.
* `exponent_shortest_neg`: it has a fraction if the float has one.
-/

namespace ScriptEngine.Decimal

/-! ## Rungs -/

/-- The parts of a binary value of so many bits, none of which is the sign. -/
theorem mantissa_ofBits_of_lt {n : Nat} (small : n < 2 ^ 63) : (Binary.ofBits n).mantissa =
    if n / 2 ^ 52 = 0 then n % 2 ^ 52 else 2 ^ 52 + n % 2 ^ 52 := by
  have same := mantissa_ofBits n
  rwa [Nat.mod_eq_of_lt small, Nat.mod_eq_of_lt (by omega : n / 2 ^ 52 < 2 ^ 11)] at same

theorem exponent_ofBits_of_lt {n : Nat} (small : n < 2 ^ 63) : (Binary.ofBits n).exponent =
    if n / 2 ^ 52 = 0 then (-1074 : Int) else -1074 + (n / 2 ^ 52 - 1 : Nat) := by
  have same := exponent_ofBits n
  rwa [Nat.mod_eq_of_lt small, Nat.mod_eq_of_lt (by omega : n / 2 ^ 52 < 2 ^ 11)] at same

/-- The value of so many bits. -/
def rung (n : Nat) : ℚ := (Binary.ofBits n).value

/-- The step from there to the next one. -/
def step (n : Nat) : ℚ := 2 ^ (Binary.ofBits n).exponent

theorem rung_succ {n : Nat} (small : n + 1 < 2 ^ 63) : rung (n + 1) = rung n + step n := by
  rw [rung, rung, step, Binary.value, Binary.value, mantissa_ofBits_of_lt small,
    exponent_ofBits_of_lt small, mantissa_ofBits_of_lt (Nat.lt_of_succ_lt small),
    exponent_ofBits_of_lt (Nat.lt_of_succ_lt small)]
  generalize (-1074 : Int) = least
  by_cases carry : n % 2 ^ 52 = 2 ^ 52 - 1
  · have fraction : (n + 1) % 2 ^ 52 = 0 := by omega
    have biased : (n + 1) / 2 ^ 52 = n / 2 ^ 52 + 1 := by omega
    rw [fraction, biased, carry, if_neg (Nat.succ_ne_zero _), if_neg (Nat.succ_ne_zero _),
      Nat.add_sub_cancel]
    by_cases none : n / 2 ^ 52 = 0
    · rw [if_pos none, if_pos none, none, Nat.cast_zero, add_zero]
      norm_num
      ring
    · obtain ⟨k, same⟩ := Nat.exists_eq_succ_of_ne_zero none
      rw [if_neg none, if_neg none, same, Nat.succ_sub_one, Nat.cast_succ, ← add_assoc,
        zpow_add_one₀ (by norm_num)]
      norm_num
      ring
  · have fraction : (n + 1) % 2 ^ 52 = n % 2 ^ 52 + 1 := by omega
    have biased : (n + 1) / 2 ^ 52 = n / 2 ^ 52 := by omega
    rw [fraction, biased]
    split <;> push_cast <;> ring

theorem rung_lt_succ {n : Nat} (small : n + 1 < 2 ^ 63) : rung n < rung (n + 1) := by
  rw [rung_succ small, step]
  exact lt_add_of_pos_right _ (by positivity)

/-- More bits are a greater value. -/
theorem rung_lt_rung {n m : Nat} (less : n < m) (small : m < 2 ^ 63) : rung n < rung m := by
  induction m, less using Nat.le_induction with
  | base => exact rung_lt_succ small
  | succ m _ ih => exact (ih (Nat.lt_of_succ_lt small)).trans (rung_lt_succ small)

theorem rung_le_rung {n m : Nat} (le : n ≤ m) (small : m < 2 ^ 63) : rung n ≤ rung m := by
  rcases Nat.eq_or_lt_of_le le with rfl | less
  · exact le_rfl
  · exact (rung_lt_rung less small).le

/-! ## Intervals -/

/-- The lower end of an interval. -/
def Interval.lower (i : Interval) : ℚ := (i.value - i.below : Nat) / i.unit

/-- The upper end of an interval. -/
def Interval.upper (i : Interval) : ℚ := (i.value + i.above : Nat) / i.unit

/-- A value lies in an interval. -/
def Interval.Holds (i : Interval) (r : ℚ) : Prop :=
  if i.closed then i.lower ≤ r ∧ r ≤ i.upper else i.lower < r ∧ r < i.upper

theorem Interval.contains_iff {i : Interval} {numerator denominator : Nat} (unit : 0 < i.unit)
    (positive : 0 < denominator) :
    i.contains numerator denominator = true ↔ i.Holds (numerator / denominator) := by
  have unit : (0 : ℚ) < i.unit := Nat.cast_pos.mpr unit
  have positive : (0 : ℚ) < denominator := Nat.cast_pos.mpr positive
  rw [contains, Holds, lower, upper]
  split
  · rw [Bool.and_eq_true, decide_eq_true_eq, decide_eq_true_eq, div_le_div_iff₀ unit positive,
      div_le_div_iff₀ positive unit]
    norm_cast
  · rw [Bool.and_eq_true, decide_eq_true_eq, decide_eq_true_eq, div_lt_div_iff₀ unit positive,
      div_lt_div_iff₀ positive unit]
    norm_cast

theorem step_eq (n : Nat) : step n = (2 ^ (Binary.ofBits n).exponent.toNat : Nat) /
    (2 ^ (-(Binary.ofBits n).exponent).toNat : Nat) :=
  zpow_eq_div 2 _

/-- An interval ends half way to the rung above. -/
theorem upper_interval {n : Nat} (small : n + 1 < 2 ^ 63) :
    (Binary.ofBits n).interval.upper = (rung n + rung (n + 1)) / 2 := by
  rw [rung_succ small, rung, Binary.value_eq, step_eq, Interval.upper, Binary.interval]
  dsimp only [Nat.pow_eq]
  have down : (0 : ℚ) < (2 ^ (-(Binary.ofBits n).exponent).toNat : Nat) := by positivity
  field_simp
  push_cast
  ring

/-- The step below is narrow under a power of two, of which there is none among the least floats. -/
theorem narrow_ofBits_of_lt {n : Nat} (small : n < 2 ^ 63) :
    (Binary.ofBits n).narrow = (decide (n % 2 ^ 52 = 0) && decide (1 < n / 2 ^ 52)) := by
  have biased : n / 2 ^ 52 % 2048 = n / 2 ^ 52 := Nat.mod_eq_of_lt (by omega)
  show (if n / 2 ^ 52 % 2048 = 0 then _ else _ : Binary).narrow = _
  split
  · next none =>
    have below : ¬ 1 < n / 2 ^ 52 := by omega
    rw [decide_eq_false below, Bool.and_false]
  · show (decide (n % 2 ^ 52 = 0) && decide (1 < n / 2 ^ 52 % 2048)) = _
    rw [biased]

/-- A step is twice as wide as the one below it where the value says so. -/
theorem step_succ {n : Nat} (small : n + 1 < 2 ^ 63) :
    step (n + 1) = if (Binary.ofBits (n + 1)).narrow then 2 * step n else step n := by
  rw [narrow_ofBits_of_lt small, step, step, exponent_ofBits_of_lt small,
    exponent_ofBits_of_lt (Nat.lt_of_succ_lt small)]
  simp only [Bool.and_eq_true, decide_eq_true_eq]
  generalize (-1074 : Int) = least
  by_cases carry : (n + 1) % 2 ^ 52 = 0 ∧ 1 < (n + 1) / 2 ^ 52
  · obtain ⟨k, same⟩ : ∃ k, n / 2 ^ 52 = k + 1 := Nat.exists_eq_succ_of_ne_zero (by omega)
    have biased : (n + 1) / 2 ^ 52 = k + 2 := by omega
    rw [if_pos carry, same, biased, if_neg (Nat.succ_ne_zero _), if_neg (Nat.succ_ne_zero _),
      Nat.add_sub_cancel, Nat.add_succ_sub_one, Nat.cast_succ, ← add_assoc,
      zpow_add_one₀ (by norm_num), mul_comm]
  · rw [if_neg carry]
    by_cases first : (n + 1) / 2 ^ 52 = n / 2 ^ 52
    · rw [first]
    · have none : n / 2 ^ 52 = 0 := by omega
      have one : (n + 1) / 2 ^ 52 = 1 := by omega
      rw [one, none, if_neg one_ne_zero, if_pos rfl]
      norm_num

theorem mantissa_pos {n : Nat} (some : 0 < n) (small : n < 2 ^ 63) :
    0 < (Binary.ofBits n).mantissa := by
  rw [mantissa_ofBits_of_lt small]
  split <;> omega

/-- An interval begins half way from the rung below. -/
theorem lower_interval {n : Nat} (small : n + 1 < 2 ^ 63) :
    (Binary.ofBits (n + 1)).interval.lower = (rung n + rung (n + 1)) / 2 := by
  have below : rung n = rung (n + 1) - step n := eq_sub_of_add_eq (rung_succ small).symm
  have digits := mantissa_pos n.succ_pos small
  have width := step_succ small
  rw [below, rung, Binary.value_eq, Interval.lower, Binary.interval]
  rw [step_eq] at width
  dsimp only [Nat.pow_eq]
  generalize Binary.ofBits (n + 1) = b at *
  have positive : (0 : ℚ) < (2 ^ (-b.exponent).toNat : Nat) := by positivity
  generalize 2 ^ b.exponent.toNat = up at *
  generalize 2 ^ (-b.exponent).toNat = down at *
  have inside : 4 * up ≤ 4 * b.mantissa * up :=
    Nat.mul_le_mul_right _ (Nat.le_mul_of_pos_right 4 digits)
  rw [div_eq_iff positive.ne'] at width
  split at width
  · next narrow =>
    rw [if_pos narrow, Nat.cast_sub (by omega)]
    push_cast
    field_simp
    rw [width]
    ring
  · next wide =>
    rw [if_neg wide, Nat.cast_sub (by omega)]
    push_cast
    field_simp
    rw [width]
    ring

theorem closed_interval {n : Nat} (small : n < 2 ^ 63) :
    (Binary.ofBits n).interval.closed = decide (n % 2 = 0) := by
  show decide ((Binary.ofBits n).mantissa % 2 = 0) = _
  rw [mantissa_ofBits_of_lt small, decide_eq_decide]
  split <;> omega

/-- No value lies in two intervals: where two of them meet, only one of them is closed. -/
theorem not_holds_of_lt {n m : Nat} {r : ℚ} (less : n < m) (small : m + 1 < 2 ^ 63)
    (below : (Binary.ofBits n).interval.Holds r) : ¬ (Binary.ofBits m).interval.Holds r := by
  obtain ⟨k, rfl⟩ := Nat.exists_eq_succ_of_ne_zero (Nat.ne_zero_of_lt less)
  intro above
  rw [Interval.Holds, closed_interval (by omega), upper_interval (by omega)] at below
  rw [Interval.Holds, closed_interval (by omega), lower_interval (by omega)] at above
  simp only [decide_eq_true_eq] at below above
  have first : rung n ≤ rung k := rung_le_rung (by omega) (by omega)
  have second : rung (n + 1) ≤ rung (k + 1) := rung_le_rung less (by omega)
  by_cases next : n = k
  · subst next
    have apart : ¬ (n % 2 = 0 ∧ (n + 1) % 2 = 0) := by omega
    split at below <;> split at above
    · omega
    · linarith [below.2, above.1]
    · linarith [below.2, above.1]
    · linarith [below.2, above.1]
  · have strict : rung n < rung k := rung_lt_rung (by omega) (by omega)
    split at below <;> split at above <;> linarith [below.2, above.1]

/-! ## The search for a decimal -/

/-- The value of a scaled decimal. -/
def Scaled.value (s : Scaled) : ℚ := s.digits * 10 ^ s.exponent

section

variable {i : Interval} {tie : Tie}

/-- The points of a grid that pass the test of an interval are those that lie in it. -/
theorem Interval.contains_grid_iff (unit : 0 < i.unit) {digits : Nat} {exponent : Int} :
    i.contains (digits * 10 ^ exponent.toNat) (10 ^ (-exponent).toNat) = true ↔
      i.Holds (Scaled.mk digits exponent).value := by
  rw [contains_iff unit (by positivity), Nat.cast_mul, mul_div_assoc, ← zpow_eq_div 10]
  rfl

theorem Interval.holds_of_gridPoint? (unit : 0 < i.unit) {digits : Nat} {exponent : Int}
    (found : i.gridPoint? tie exponent = some digits) : i.Holds (Scaled.mk digits exponent).value := by
  rw [← contains_grid_iff unit]
  unfold gridPoint? at found
  dsimp only [Nat.pow_eq] at found
  split at found
  · next under next =>
    cases found
    split
    · exact (Bool.and_eq_true_iff.mp under).2
    · exact next
  · next under _ =>
    cases found
    exact (Bool.and_eq_true_iff.mp under).2
  · next _ next =>
    cases found
    exact next
  · cases found

/-- The search ends inside the interval if one of the grids that it tries has a point there. -/
theorem Interval.holds_search (unit : 0 < i.unit) {exponent : Int} {tries : Nat}
    (found : ∃ k < tries, i.gridPoint? tie (exponent - k) ≠ none) :
    i.Holds (i.search tie exponent tries).value := by
  induction tries generalizing exponent with
  | zero =>
    obtain ⟨k, none, _⟩ := found
    cases none
  | succ tries ih =>
    rw [search]
    cases here : i.gridPoint? tie exponent with
    | some digits => exact holds_of_gridPoint? unit here
    | none =>
      obtain ⟨k, inside, found⟩ := found
      refine ih ?_
      cases k with
      | zero =>
        rw [Nat.cast_zero, Int.sub_zero] at found
        exact absurd here found
      | succ k =>
        refine ⟨k, Nat.lt_of_succ_lt_succ inside, ?_⟩
        rwa [Int.sub_sub, Int.add_comm 1 (k : Int)]

theorem Interval.le_lower_of_not_holds {r : ℚ} (h : ¬ i.Holds r) (below : r < i.upper) :
    r ≤ i.lower := by
  by_contra inside
  rw [not_le] at inside
  refine h ?_
  rw [Holds]
  split
  · exact ⟨inside.le, below.le⟩
  · exact ⟨inside, below⟩

theorem Interval.upper_le_of_not_holds {r : ℚ} (h : ¬ i.Holds r) (above : i.lower < r) :
    i.upper ≤ r := by
  by_contra inside
  rw [not_le] at inside
  refine h ?_
  rw [Holds]
  split
  · exact ⟨above.le, inside.le⟩
  · exact ⟨above, inside⟩

/-- The lower neighbour of a value on a grid. -/
theorem Interval.floor_div (i : Interval) (exponent : Int) :
    i.value * 10 ^ (-exponent).toNat / (10 ^ exponent.toNat * i.unit) =
      ⌊(i.value / i.unit : ℚ) / 10 ^ exponent⌋₊ := by
  have grid := zpow_eq_div 10 exponent
  rw [Nat.cast_ofNat] at grid
  rw [← Nat.floor_div_eq_div (K := ℚ), grid, Nat.cast_mul, Nat.cast_mul]
  congr 1
  field_simp

theorem Interval.lower_le (i : Interval) : i.lower ≤ i.value / i.unit := by
  rw [lower]
  gcongr
  exact Nat.sub_le _ _

theorem Interval.lt_upper (unit : 0 < i.unit) (above : 0 < i.above) :
    (i.value / i.unit : ℚ) < i.upper := by
  have size : (0 : ℚ) < i.unit := Nat.cast_pos.mpr unit
  rw [upper]
  gcongr
  exact Nat.lt_add_of_pos_right above

/-- A grid without a point in an interval is wider than the interval: the two neighbours of the value on
the grid lie outside. -/
theorem Interval.width_le_of_gridPoint? (unit : 0 < i.unit) (above : 0 < i.above)
    {exponent : Int} (coarse : (10 : ℚ) ^ exponent ≤ i.value / i.unit)
    (none : i.gridPoint? tie exponent = none) : i.upper - i.lower ≤ 10 ^ exponent := by
  have step : (0 : ℚ) < 10 ^ exponent := by positivity
  unfold gridPoint? at none
  dsimp only [Nat.pow_eq] at none
  rw [floor_div] at none
  generalize floor_def : ⌊(i.value / i.unit : ℚ) / 10 ^ exponent⌋₊ = under at none
  have least : 0 < under := by
    rw [← floor_def, Nat.floor_pos, one_le_div step]
    exact coarse
  have under_le : under * (10 : ℚ) ^ exponent ≤ i.value / i.unit := by
    rw [← le_div_iff₀ step, ← floor_def]
    exact Nat.floor_le (by positivity)
  have lt_next : (i.value / i.unit : ℚ) < (under + 1 : Nat) * 10 ^ exponent := by
    rw [← div_lt_iff₀ step, ← floor_def, Nat.cast_succ]
    exact Nat.lt_floor_add_one _
  split at none
  · cases none
  · cases none
  · cases none
  · next first second =>
    rw [decide_eq_true least, Bool.true_and, Bool.eq_false_iff, Ne, contains_grid_iff unit] at first
    rw [Bool.eq_false_iff, Ne, contains_grid_iff unit] at second
    have first := le_lower_of_not_holds first (under_le.trans_lt (lt_upper unit above))
    have second := upper_le_of_not_holds second (i.lower_le.trans_lt lt_next)
    rw [Scaled.value] at first second
    push_cast at second
    linarith

end

/-! ## How large a value is -/

theorem digitCount_pos (n : Nat) : 0 < digitCount n :=
  List.length_pos_iff.mpr Nat.toDigits_ne_nil

theorem lt_pow_digitCount (n : Nat) : n < 10 ^ digitCount n :=
  (Nat.length_toDigits_le_iff (by decide) (digitCount_pos n)).mp le_rfl

theorem pow_digitCount_le {n : Nat} (some : 0 < n) : 10 ^ (digitCount n - 1) ≤ n := by
  by_cases one : digitCount n = 1
  · rw [one]
    exact some
  · have long : ¬ n < 10 ^ (digitCount n - 1) := by
      have positive := digitCount_pos n
      rw [← Nat.length_toDigits_le_iff (by decide) (by omega)]
      show ¬ digitCount n ≤ _
      omega
    exact not_lt.mp long

theorem Interval.pow_magnitude_le {i : Interval} (unit : 0 < i.unit) (some : 0 < i.value) :
    (10 : ℚ) ^ i.magnitude ≤ i.value / i.unit := by
  have size : (0 : ℚ) < i.unit := Nat.cast_pos.mpr unit
  rw [magnitude]
  split
  · next large =>
    have whole : 0 < i.value / i.unit := Nat.div_pos large unit
    have positive := digitCount_pos (i.value / i.unit)
    have exponent : (digitCount (i.value / i.unit) - 1 : Int) =
        (digitCount (i.value / i.unit) - 1 : Nat) := by omega
    rw [exponent, zpow_natCast, le_div_iff₀ size]
    have enough := (Nat.le_div_iff_mul_le unit).mp (pow_digitCount_le whole)
    exact_mod_cast enough
  · dsimp only
    generalize ratio_def : (i.unit + i.value - 1) / i.value = ratio
    have bound := lt_pow_digitCount (ratio - 1)
    generalize digitCount (ratio - 1) = count at bound
    have enough : i.unit ≤ 10 ^ count * i.value := by
      have beyond : i.unit + i.value - 1 < (ratio + 1) * i.value := by
        rw [← Nat.div_lt_iff_lt_mul some, ratio_def]
        exact Nat.lt_succ_self ratio
      have ratio_le : ratio * i.value ≤ 10 ^ count * i.value := Nat.mul_le_mul_right _ (by omega)
      rw [Nat.succ_mul] at beyond
      omega
    rw [Int.negOfNat_eq, Int.ofNat_eq_natCast, zpow_neg, zpow_natCast, le_div_iff₀ size,
      inv_mul_le_iff₀ (by positivity)]
    exact_mod_cast enough

/-! ## The shortest decimal -/

theorem Binary.value_interval (b : Binary) : (b.interval.value / b.interval.unit : ℚ) = b.value := by
  rw [value_eq, interval]
  dsimp only [Nat.pow_eq]
  push_cast
  field_simp

theorem Binary.width_interval {b : Binary} (positive : 0 < b.mantissa) :
    (3 / 4 : ℚ) * 2 ^ b.exponent ≤ b.interval.upper - b.interval.lower := by
  have grid := zpow_eq_div 2 b.exponent
  rw [Nat.cast_ofNat] at grid
  rw [grid, Interval.lower, Interval.upper, ← sub_div, interval]
  dsimp only [Nat.pow_eq]
  generalize 2 ^ b.exponent.toNat = up
  have inside : 4 * up ≤ 4 * b.mantissa * up :=
    Nat.mul_le_mul_right _ (Nat.le_mul_of_pos_right 4 positive)
  have wide : 3 * up + (4 * b.mantissa * up - if b.narrow then up else 2 * up) ≤
      4 * b.mantissa * up + 2 * up := by
    split <;> omega
  have wide : (3 * up : ℚ) ≤ (4 * b.mantissa * up + 2 * up : Nat) -
      (4 * b.mantissa * up - if b.narrow then up else 2 * up : Nat) := by
    rw [le_sub_iff_add_le]
    exact_mod_cast wide
  calc (3 / 4 : ℚ) * (up / (2 ^ (-b.exponent).toNat : Nat))
      = 3 * up / (4 * 2 ^ (-b.exponent).toNat : Nat) := by push_cast; ring
    _ ≤ _ := by gcongr

/-- The shortest decimal of a float lies in its interval: a grid of seventeen digits without a point there
would be wider than a step. -/
theorem Binary.holds_shortest {b : Binary} (positive : 0 < b.mantissa) (small : b.mantissa < 2 ^ 53)
    (tie : Tie) : b.interval.Holds (b.shortest tie).value := by
  have unit : 0 < b.interval.unit := by
    show 0 < 4 * 2 ^ (-b.exponent).toNat
    positivity
  have above : 0 < b.interval.above := by
    show 0 < 2 * 2 ^ b.exponent.toNat
    positivity
  have some : 0 < b.interval.value := by
    show 0 < 4 * b.mantissa * 2 ^ b.exponent.toNat
    positivity
  refine Interval.holds_search unit ⟨18, by decide, fun none => ?_⟩
  have coarse := Interval.pow_magnitude_le unit some
  have fine : (10 : ℚ) ^ (b.interval.magnitude + 1 - (18 : Nat)) * 10 ^ 17 =
      10 ^ b.interval.magnitude := by
    rw [← zpow_natCast, ← zpow_add₀ (by norm_num)]
    congr 1
    push_cast
    ring
  have narrow (coarse : (10 : ℚ) ^ (b.interval.magnitude + 1 - (18 : Nat)) ≤
      b.interval.value / b.interval.unit) :=
    Interval.width_le_of_gridPoint? unit above coarse none
  have wide := Binary.width_interval positive
  have value : b.value < 2 ^ 53 * 2 ^ b.exponent := by
    rw [Binary.value]
    gcongr
    exact_mod_cast small
  have step : (0 : ℚ) < 10 ^ (b.interval.magnitude + 1 - (18 : Nat)) := by positivity
  rw [b.value_interval] at coarse narrow
  generalize (10 : ℚ) ^ (b.interval.magnitude + 1 - (18 : Nat)) = grid at *
  have narrow := narrow (by linarith)
  linarith

/-! ## Floats -/

theorem mantissa_lt (n : Nat) (small : n < 2 ^ 63) : (Binary.ofBits n).mantissa < 2 ^ 53 := by
  rw [mantissa_ofBits_of_lt small]
  split <;> omega

/-- The bits of a finite number are below those of the infinite one. -/
theorem magnitudeBits_lt {x : Float} (finite : x.isFinite = true) :
    magnitudeBits x < 2047 * 2 ^ 52 := by
  have biased := biased_lt_of_isFinite x.toModel.toBits.toBitVec finite
  show x.toModel.toBits.toBitVec.toNat % 2 ^ 63 < _
  omega

theorem rung_inj {n m : Nat} (small : n < 2 ^ 63) (small' : m < 2 ^ 63) (same : rung n = rung m) :
    n = m := by
  rcases Nat.lt_trichotomy n m with less | same | less
  · exact absurd same (rung_lt_rung less small').ne
  · exact same
  · exact absurd same (rung_lt_rung less small).ne'

/-- Different floats have different shortest decimals. -/
theorem shortest_inj {n m : Nat} {tie : Tie} (some : 0 < n) (some' : 0 < m) (small : n + 1 < 2 ^ 63)
    (small' : m + 1 < 2 ^ 63)
    (same : (Binary.ofBits n).shortest tie = (Binary.ofBits m).shortest tie) : n = m := by
  have first := Binary.holds_shortest (mantissa_pos some (by omega)) (mantissa_lt n (by omega)) tie
  have second := Binary.holds_shortest (mantissa_pos some' (by omega)) (mantissa_lt m (by omega)) tie
  rcases Nat.lt_trichotomy n m with less | eq | less
  · exact absurd second (not_holds_of_lt less small' (same ▸ first))
  · exact eq
  · exact absurd first (not_holds_of_lt less small (same ▸ second))

/-- A whole number that is nearer to a value with a fraction than its last digit is the value. -/
theorem Binary.value_of_holds {b : Binary} (fraction : b.exponent < 0) {n : Nat}
    (h : b.interval.Holds n) : b.value = n := by
  have up : b.exponent.toNat = 0 := Int.toNat_eq_zero.mpr fraction.le
  have between : b.interval.lower ≤ n ∧ (n : ℚ) ≤ b.interval.upper := by
    rw [Interval.Holds] at h
    split at h
    · exact h
    · exact ⟨h.1.le, h.2.le⟩
  have down : (0 : ℚ) < (2 ^ (-b.exponent).toNat : Nat) := by positivity
  obtain ⟨above, below⟩ := between
  rw [Interval.lower, interval] at above
  rw [Interval.upper, interval] at below
  dsimp only [Nat.pow_eq] at above below
  rw [div_le_iff₀ (by positivity)] at above
  rw [le_div_iff₀ (by positivity)] at below
  norm_cast at above below
  rw [value_eq, div_eq_iff down.ne', up, pow_zero, Nat.mul_one]
  rw [up, pow_zero] at above below
  generalize 2 ^ (-b.exponent).toNat = scale at *
  have near : b.mantissa = n * scale := by
    rw [Nat.mul_left_comm] at above below
    split at above <;> omega
  exact_mod_cast near

theorem Binary.exponent_neg {b : Binary} (fraction : ∀ n : Nat, b.value ≠ n) : b.exponent < 0 := by
  by_contra up
  refine fraction (b.mantissa * 2 ^ b.exponent.toNat) ?_
  rw [value_eq, Int.toNat_eq_zero.mpr (by omega : -b.exponent ≤ 0), pow_zero, Nat.cast_one, div_one]

/-- The shortest decimal of what has a fraction has one. -/
theorem exponent_shortest_neg {n : Nat} {tie : Tie} (some : 0 < n) (small : n < 2 ^ 63)
    (fraction : ∀ k : Nat, (Binary.ofBits n).value ≠ k) :
    ((Binary.ofBits n).shortest tie).exponent < 0 := by
  have holds := Binary.holds_shortest (mantissa_pos some small) (mantissa_lt n small) tie
  by_contra up
  generalize (Binary.ofBits n).shortest tie = s at holds up
  have whole : s.value = (s.digits * 10 ^ s.exponent.toNat : Nat) := by
    have grid := zpow_eq_div 10 s.exponent
    rw [Int.toNat_eq_zero.mpr (by omega : -s.exponent ≤ 0), pow_zero, Nat.cast_one, div_one] at grid
    rw [Scaled.value, Nat.cast_mul, ← grid, Nat.cast_ofNat]
  rw [whole] at holds
  exact fraction _ (Binary.value_of_holds (Binary.exponent_neg fraction) holds)

end ScriptEngine.Decimal
