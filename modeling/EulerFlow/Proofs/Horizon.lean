import EulerFlow.Proofs.DoubleOrder

namespace EulerFlow

open Float.Model Float.Model.UnpackedFloat

theorem tolerance_rational : (HorizonNumber.tolerance : Float).isFinite ∧
    |rational HorizonNumber.tolerance - 1 / 10 ^ 9| ≤ 1 / 10 ^ 24 := by
  refine ⟨rfl, ?_⟩
  have value : rational HorizonNumber.tolerance = (4835703278458517 : Nat) * 2 ^ (-82 : Int) := rfl
  rw [value]
  norm_num [abs_le]

theorem magnitude_rational {x : Float} (finite : x.isFinite) :
    (HorizonNumber.magnitude x).isFinite ∧ rational (HorizonNumber.magnitude x) = max 1 |rational x| := by
  obtain ⟨sizeFinite, size⟩ := abs_rational finite
  change (if 1 < x.abs then x.abs else 1).isFinite ∧ rational (if 1 < x.abs then x.abs else 1) = _
  rw [← size]
  split
  · rename_i long
    rw [lt_iff_rational one_rational.1 sizeFinite, one_rational.2] at long
    exact ⟨sizeFinite, (max_eq_right long.le).symm⟩
  · rename_i short
    rw [lt_iff_rational one_rational.1 sizeFinite, one_rational.2, not_lt] at short
    exact ⟨one_rational.1, one_rational.2.trans (max_eq_left short).symm⟩

theorem half_least_le : (2 : ℚ) ^ (-1075 : Int) ≤ 1 / 10 ^ 25 := by
  calc (2 : ℚ) ^ (-1075 : Int)
    _ ≤ 2 ^ (-100 : Int) := two_zpow_le_iff.mpr (by decide)
    _ ≤ 1 / 10 ^ 25 := by norm_num

/-- The tolerance times a number that is one or more is a double within one part in `10 ^ 14` of what it should be. -/
theorem slack_rational {q : Float} (finite : q.isFinite) :
    (HorizonNumber.tolerance * HorizonNumber.magnitude q).isFinite ∧
      |rational (HorizonNumber.tolerance * HorizonNumber.magnitude q) - max 1 |rational q| / 10 ^ 9| ≤
        max 1 |rational q| / 10 ^ 23 := by
  obtain ⟨toleranceFinite, tolerance⟩ := tolerance_rational
  obtain ⟨magnitudeFinite, magnitude⟩ := magnitude_rational finite
  have rounds : Rounds _ (HorizonNumber.tolerance * HorizonNumber.magnitude q) :=
    mul_rounds toleranceFinite magnitudeFinite
  rw [magnitude] at rounds
  have one : (1 : ℚ) ≤ max 1 |rational q| := le_max_left _ _
  have bound : max 1 |rational q| < 2 ^ 1024 := max_lt (one_lt_pow₀ one_lt_two (by decide)) (rational_bound finite)
  generalize max 1 |rational q| = size at rounds one bound ⊢
  obtain ⟨low, high⟩ := abs_le.mp tolerance
  have product : |rational HorizonNumber.tolerance * size - size / 10 ^ 9| ≤ size / 10 ^ 24 := by
    have positive : 0 < size := zero_lt_one.trans_le one
    have scaled := mul_le_mul_of_nonneg_right tolerance positive.le
    rw [div_eq_mul_one_div size (10 ^ 9), mul_comm size, ← sub_mul, abs_mul, abs_of_pos positive]
    linarith
  obtain ⟨productLow, productHigh⟩ := abs_le.mp product
  have nonnegative : 0 ≤ rational HorizonNumber.tolerance * size := by linarith
  have small : rational HorizonNumber.tolerance * size < 2 ^ 1023 := by
    have double : (2 : ℚ) ^ 1024 = 2 * 2 ^ 1023 := pow_succ' 2 1023
    rw [double] at bound
    generalize (2 : ℚ) ^ 1023 = p at bound ⊢
    linarith
  have finite := rounds.isFinite (by rwa [abs_of_nonneg nonnegative])
  have off := (rounds.near finite).relative
  rw [abs_of_nonneg nonnegative] at off
  obtain ⟨offLow, offHigh⟩ := abs_le.mp off
  have tiny := half_least_le
  refine ⟨finite, abs_le.mpr ⟨?_, ?_⟩⟩
  · linarith
  · linarith

/-- The way to the horizon is computed by a difference and a quotient. As long as nothing overflows it is off by one
part in `2 ^ 50` at most. -/
theorem ratio_rational {start horizon step : Float} (startFinite : start.isFinite) (horizonFinite : horizon.isFinite)
    (stepFinite : step.isFinite) (positive : 0 < rational step) (within : ((horizon - start) / step).isFinite) :
    |rational ((horizon - start) / step) - (rational horizon - rational start) / rational step| ≤
      max 1 |(rational horizon - rational start) / rational step| / 2 ^ 50 := by
  have wayFinite := finite_of_div stepFinite within
  have way := sub_relative horizonFinite startFinite wayFinite
  have quotient := ((div_rounds wayFinite stepFinite positive.ne').near within).relative
  generalize rational horizon - rational start = exact at way ⊢
  generalize rational (horizon - start) = way' at way quotient
  generalize rational ((horizon - start) / step) = ratio at quotient ⊢
  have scaled : |way' / rational step - exact / rational step| ≤ |exact / rational step| / 2 ^ 53 := by
    rw [← sub_div, abs_div, abs_div, abs_of_pos positive, div_right_comm]
    exact div_le_div_of_nonneg_right way positive.le
  generalize exact / rational step = r at scaled ⊢
  generalize way' / rational step = r' at scaled quotient
  have tiny := half_least_le
  have one : (1 : ℚ) ≤ max 1 |r| := le_max_left _ _
  have size : |r| ≤ max 1 |r| := le_max_right _ _
  have longer : |r'| ≤ |r' - r| + |r| := by
    have split := abs_add_le (r' - r) r
    rwa [sub_add_cancel] at split
  have total := abs_sub_le ratio r' r
  linarith

/-- A positive infinity stays one when it is divided by a positive number. -/
theorem infinity_div {x y : Float} (infinite : x.toModel.unpack = .infinity .positive) (finite : y.isFinite)
    (positive : 0 < rational y) : (x / y).toModel.unpack = .infinity .positive := by
  have normalized := unpack_normalized finite
  change UnpackedFloat.unpack .binary64 (UnpackedFloat.pack .binary64
    (UnpackedFloat.div .binary64 x.toModel.unpack y.toModel.unpack)) = _
  unfold rational at positive
  rw [infinite]
  generalize y.toModel.unpack = u at normalized positive ⊢
  cases normalized with
  | zero s => exact absurd positive (lt_irrefl 0)
  | @finite m e s full target =>
    cases s with
    | negative =>
      have negative : -((m : ℚ) * 2 ^ e) ≤ 0 := neg_nonpos.mpr (by positivity)
      exact absurd positive (not_lt.mpr negative)
    | positive =>
      change UnpackedFloat.unpack .binary64 (UnpackedFloat.pack .binary64 (.infinity .positive)) = _
      simp [UnpackedFloat.unpack, UnpackedFloat.pack, packedInfinity]

/-- A way ahead that is not finite is infinite. -/
theorem ratio_infinite {start horizon step : Float} (startFinite : start.isFinite) (horizonFinite : horizon.isFinite)
    (stepFinite : step.isFinite) (positive : 0 < rational step)
    (ahead : 0 ≤ (rational horizon - rational start) / rational step)
    (beyond : ¬ ((horizon - start) / step).isFinite) :
    ((horizon - start) / step).toModel.unpack = .infinity .positive := by
  have large : (0 : ℚ) < 2 ^ 1023 := pow_pos two_pos _
  rw [le_div_iff₀ positive, zero_mul] at ahead
  cases sub_rounds horizonFinite startFinite with
  | finite wayFinite _ =>
    have way := (abs_le.mp (sub_relative horizonFinite startFinite wayFinite)).1
    rw [abs_of_nonneg ahead] at way
    have nonnegative : 0 ≤ rational (horizon - start) / rational step := div_nonneg (by linarith) positive.le
    cases div_rounds wayFinite stepFinite positive.ne' with
    | finite within _ => exact absurd within beyond
    | high infinite _ => exact infinite
    | low _ low =>
      generalize (2 : ℚ) ^ 1023 = p at large low
      linarith
  | high infinite _ => exact infinity_div infinite stepFinite positive
  | low _ low =>
    generalize (2 : ℚ) ^ 1023 = p at large low
    linarith

theorem Settings.of_fault?_none {s : Settings} (valid : s.fault? = none) :
    s.maxtime.isFinite ∧ s.dt.isFinite ∧ 0 < rational s.dt := by
  unfold Settings.fault? at valid
  split at valid
  · cases valid
  · rename_i step
    split at valid
    · cases valid
    · rename_i horizon
      rw [Bool.not_eq_true, Bool.not_eq_false'] at horizon
      rw [Bool.or_eq_true, not_or, Bool.not_eq_true, Bool.not_eq_false', decide_eq_true_iff] at step
      obtain ⟨stepFinite, positive⟩ := step
      rw [le_iff_rational stepFinite zero_rational.1, zero_rational.2, not_le] at positive
      exact ⟨horizon, stepFinite, positive⟩

/-- The number of steps from a start to the horizon, as real numbers have it. -/
def Settings.distance (s : Settings) (t : Float) : ℚ :=
  (rational s.maxtime - rational t) / rational s.dt

/-- What rounding leaves of the ratio, the slack and their difference or sum, for a distance that is not negative. -/
structure Counted (r q slack : ℚ) : Prop where
  nonnegative : 0 ≤ r
  ratio : |q - r| ≤ max 1 r / 2 ^ 50
  slack : |slack - max 1 r / 10 ^ 9| ≤ max 1 r / 10 ^ 22

/-- The size is judged by the ratio, and comes out as if judged by the distance. -/
theorem Counted.of_near {r q slack : ℚ} (nonnegative : 0 ≤ r) (near : |q - r| ≤ max 1 |r| / 2 ^ 50)
    (off : |slack - max 1 |q| / 10 ^ 9| ≤ max 1 |q| / 10 ^ 23) : Counted r q slack := by
  rw [abs_of_nonneg nonnegative] at near
  refine ⟨nonnegative, near, ?_⟩
  have sizes : |max |q| 1 - max |r| 1| ≤ max 1 r / 2 ^ 50 :=
    (abs_max_sub_max_le_abs _ _ _).trans ((abs_abs_sub_abs_le _ _).trans near)
  rw [abs_of_nonneg nonnegative, max_comm, max_comm r] at sizes
  have one : 1 ≤ max 1 r := le_max_left _ _
  generalize max 1 r = size at sizes one ⊢
  generalize max 1 |q| = size' at sizes off
  obtain ⟨low, high⟩ := abs_le.mp sizes
  obtain ⟨offLow, offHigh⟩ := abs_le.mp off
  rw [abs_le]
  constructor
  · linarith
  · linarith

namespace Counted

variable {r q slack x : ℚ} (counted : Counted r q slack)

include counted

theorem sub_add_size : |q - slack| ≤ 2 * max 1 r ∧ |q + slack| ≤ 2 * max 1 r := by
  obtain ⟨nonnegative, ratio, slackNear⟩ := counted
  have one : 1 ≤ max 1 r := le_max_left _ _
  have within : r ≤ max 1 r := le_max_right _ _
  generalize max 1 r = size at ratio slackNear one within ⊢
  obtain ⟨low, high⟩ := abs_le.mp ratio
  obtain ⟨slackLow, slackHigh⟩ := abs_le.mp slackNear
  exact ⟨abs_le.mpr ⟨by linarith, by linarith⟩, abs_le.mpr ⟨by linarith, by linarith⟩⟩

/-- Where the slack is taken off, a bit more than its share of the distance is lost, and nothing is won. -/
theorem rounded_sub_bounds (off : |x - (q - slack)| ≤ |q - slack| / 2 ^ 53) :
    r - 1.00001e-9 * max 1 r ≤ x ∧ x ≤ r := by
  have bound := counted.sub_add_size.1
  obtain ⟨nonnegative, ratio, slackNear⟩ := counted
  have one : 1 ≤ max 1 r := le_max_left _ _
  generalize max 1 r = size at ratio slackNear one bound ⊢
  obtain ⟨low, high⟩ := abs_le.mp ratio
  obtain ⟨slackLow, slackHigh⟩ := abs_le.mp slackNear
  obtain ⟨offLow, offHigh⟩ := abs_le.mp off
  exact ⟨by linarith, by linarith⟩

/-- Where the slack is added, the distance is passed. -/
theorem rounded_add_bounds (off : |x - (q + slack)| ≤ |q + slack| / 2 ^ 53) :
    r < x ∧ x ≤ r + 1.00001e-9 * max 1 r := by
  have bound := counted.sub_add_size.2
  obtain ⟨nonnegative, ratio, slackNear⟩ := counted
  have one : 1 ≤ max 1 r := le_max_left _ _
  generalize max 1 r = size at ratio slackNear one bound ⊢
  obtain ⟨low, high⟩ := abs_le.mp ratio
  obtain ⟨slackLow, slackHigh⟩ := abs_le.mp slackNear
  obtain ⟨offLow, offHigh⟩ := abs_le.mp off
  exact ⟨by linarith, by linarith⟩

/-- The same without a last rounding. -/
theorem exact_bounds : r - 1.00001e-9 * max 1 r ≤ q - slack ∧ r < q + slack := by
  have nothing (v : ℚ) : |v - v| ≤ |v| / 2 ^ 53 := by
    rw [sub_self, abs_zero]
    positivity
  exact ⟨(counted.rounded_sub_bounds (nothing _)).1, (counted.rounded_add_bounds (nothing _)).1⟩

end Counted

theorem count_rational {x : Float} (finite : x.isFinite) : HorizonNumber.count x = min ⌊rational x⌋₊ (2 ^ 64 - 1) :=
  toUInt64_toNat finite

theorem count_ceil {x : Float} (finite : x.isFinite) :
    HorizonNumber.count (HorizonNumber.ceil x) = min ⌈rational x⌉₊ (2 ^ 64 - 1) := by
  obtain ⟨wholeFinite, whole⟩ := wholeAbove_rational finite
  change HorizonNumber.count (wholeAbove x) = _
  rw [count_rational wholeFinite, whole, ← Int.floor_toNat, Int.floor_intCast, Int.ceil_toNat]

theorem eq_of_unpack {x : Float} {u : UnpackedFloat} (unpacked : x.toModel.unpack = u) : .ofModel (.pack u) = x := by
  rw [← unpacked, ofModel_pack_unpack]

theorem count_ceil_eq_zero {x : Float} (finite : x.isFinite) :
    HorizonNumber.count (HorizonNumber.ceil x) = 0 ↔ rational x ≤ 0 := by
  rw [count_ceil finite, ← Nat.ceil_eq_zero]
  omega

/-- No rounding takes a difference over zero. -/
theorem count_sub_eq_zero {x y : Float} (left : x.isFinite) (right : y.isFinite) :
    HorizonNumber.count (HorizonNumber.ceil (x - y)) = 0 ↔ rational x ≤ rational y := by
  have positive : (0 : ℚ) < 2 ^ 1023 := pow_pos two_pos _
  cases sub_rounds left right with
  | finite finite _ =>
    have off := sub_relative left right finite
    rw [count_ceil_eq_zero finite, ← sub_nonpos (a := rational x)]
    generalize rational x - rational y = exact at off
    obtain ⟨low, high⟩ := abs_le.mp off
    rcases abs_cases exact with ⟨size, sign⟩ | ⟨size, sign⟩
    · rw [size] at low high
      exact ⟨fun _ => by linarith, fun _ => by linarith⟩
    · rw [size] at low high
      exact ⟨fun _ => by linarith, fun _ => by linarith⟩
  | high infinite large =>
    generalize (2 : ℚ) ^ 1023 = p at positive large
    rw [← eq_of_unpack infinite]
    exact iff_of_false (by decide) (by linarith)
  | low infinite large =>
    generalize (2 : ℚ) ^ 1023 = p at positive large
    rw [← eq_of_unpack infinite]
    exact iff_of_true (by decide) (by linarith)

theorem count_floor_succ {x : Float} (finite : x.isFinite) (nonnegative : 0 ≤ rational x)
    (short : rational x < 2 ^ 53 - 1) :
    HorizonNumber.count (HorizonNumber.floor x + HorizonNumber.one) = ⌊rational x⌋₊ + 1 := by
  obtain ⟨wholeFinite, whole⟩ := wholeBelow_rational finite
  have sum : rational (wholeBelow x) + rational 1 = ((⌊rational x⌋₊ + 1 : Int) : ℚ) := by
    rw [whole, one_rational.2, Int.natCast_floor_eq_floor nonnegative, Int.cast_add, Int.cast_one]
  have low := Nat.floor_le nonnegative
  generalize ⌊rational x⌋₊ = n at sum low ⊢
  have bits : (n : ℚ) + 1 < 2 ^ 53 := by linarith
  have bound : |((n + 1 : Int) : ℚ)| < 2 ^ 53 := by
    push_cast
    rwa [abs_of_nonneg (by positivity)]
  obtain ⟨nextFinite, next⟩ := add_whole wholeFinite one_rational.1 sum bound
  have small : n + 1 < 2 ^ 53 := by exact_mod_cast bits
  have count : HorizonNumber.count (wholeBelow x + 1) = min ⌊rational (wholeBelow x + 1)⌋₊ (2 ^ 64 - 1) :=
    count_rational nextFinite
  rw [next, ← Int.floor_toNat, Int.floor_intCast] at count
  exact count.trans (by omega)

theorem lt_two_pow_1023 {r : ℚ} (small : r ≤ 2 ^ 53) : r < 2 ^ 1023 :=
  small.trans_lt (pow_lt_pow_right₀ one_lt_two (by decide))

theorem one_le_count_floor_succ {x : Float} (finite : x.isFinite) (far : 1 ≤ rational x) :
    1 ≤ HorizonNumber.count (HorizonNumber.floor x + HorizonNumber.one) := by
  obtain ⟨wholeFinite, whole⟩ := wholeBelow_rational finite
  have floor : (1 : ℚ) ≤ rational (wholeBelow x) := by
    rw [whole]
    exact_mod_cast Int.le_floor.mpr (by exact_mod_cast far)
  change 1 ≤ HorizonNumber.count (wholeBelow x + 1)
  cases add_rounds wholeFinite one_rational.1 with
  | finite finite _ =>
    have off := add_relative wholeFinite one_rational.1 finite
    rw [one_rational.2, abs_of_nonneg (by linarith : 0 ≤ rational (wholeBelow x) + 1)] at off
    have next : (1 : ℚ) ≤ rational (wholeBelow x + 1) := by linarith [(abs_le.mp off).1]
    rw [count_rational finite]
    exact le_min (Nat.le_floor (by rwa [Nat.cast_one])) (by decide)
  | high infinite _ =>
    rw [← eq_of_unpack infinite]
    decide
  | low _ large =>
    rw [one_rational.2] at large
    have positive : (0 : ℚ) < 2 ^ 1023 := pow_pos two_pos _
    generalize (2 : ℚ) ^ 1023 = p at large positive
    linarith

section

variable {q : Float} {r : ℚ} (finite : q.isFinite) (near : |rational q - r| ≤ max 1 |r| / 2 ^ 50)

include finite near

theorem one_le_count_ceil_sub (far : 1 ≤ r) :
    1 ≤ HorizonNumber.count (HorizonNumber.ceil (q - HorizonNumber.tolerance * HorizonNumber.magnitude q)) := by
  obtain ⟨slackFinite, slack⟩ := slack_rational finite
  have low := (Counted.of_near (zero_le_one.trans far) near slack).exact_bounds.1
  rw [max_eq_right far] at low
  rw [Nat.one_le_iff_ne_zero, Ne, count_sub_eq_zero finite slackFinite]
  linarith

theorem one_le_count_floor_add (far : 1 ≤ r) :
    1 ≤ HorizonNumber.count
      (HorizonNumber.floor (q + HorizonNumber.tolerance * HorizonNumber.magnitude q) + HorizonNumber.one) := by
  obtain ⟨slackFinite, slack⟩ := slack_rational finite
  have counted := Counted.of_near (zero_le_one.trans far) near slack
  generalize HorizonNumber.tolerance * HorizonNumber.magnitude q = slackened at slackFinite slack counted ⊢
  cases add_rounds finite slackFinite with
  | finite isFinite _ =>
    have passed := (counted.rounded_add_bounds (add_relative finite slackFinite isFinite)).1
    exact one_le_count_floor_succ isFinite (far.trans passed.le)
  | high infinite _ =>
    rw [← eq_of_unpack infinite]
    decide
  | low _ large =>
    have passed := counted.exact_bounds.2
    have positive : (0 : ℚ) < 2 ^ 1023 := pow_pos two_pos _
    generalize (2 : ℚ) ^ 1023 = p at large positive
    linarith

theorem count_ceil_sub_bounds (ahead : 0 ≤ r) (within : r ≤ 2 ^ 52) :
    let count := HorizonNumber.count (HorizonNumber.ceil (q - HorizonNumber.tolerance * HorizonNumber.magnitude q))
    r - 1.00001e-9 * max 1 r ≤ count ∧ count < r + 1 := by
  obtain ⟨slackFinite, slack⟩ := slack_rational finite
  have counted := Counted.of_near ahead near slack
  generalize HorizonNumber.tolerance * HorizonNumber.magnitude q = slackened at slackFinite slack counted ⊢
  have size : max 1 r ≤ 2 ^ 52 := max_le (by norm_num) within
  have isFinite := (sub_rounds finite slackFinite).isFinite (lt_two_pow_1023 (counted.sub_add_size.1.trans (by linarith)))
  obtain ⟨low, high⟩ := counted.rounded_sub_bounds (sub_relative finite slackFinite isFinite)
  have whole : ⌈rational (q - slackened)⌉₊ ≤ 2 ^ 52 := Nat.ceil_le.mpr (by push_cast; linarith)
  intro count
  have ceil : count = ⌈rational (q - slackened)⌉₊ := (count_ceil isFinite).trans (by omega)
  rw [ceil]
  refine ⟨low.trans (Nat.le_ceil _), ?_⟩
  exact (Nat.cast_le.mpr (Nat.ceil_mono high)).trans_lt (Nat.ceil_lt_add_one ahead)

theorem count_floor_add_bounds (ahead : 0 ≤ r) (within : r ≤ 2 ^ 52) :
    let count := HorizonNumber.count
      (HorizonNumber.floor (q + HorizonNumber.tolerance * HorizonNumber.magnitude q) + HorizonNumber.one)
    r < count ∧ count ≤ r + 1 + 1.00001e-9 * max 1 r := by
  obtain ⟨slackFinite, slack⟩ := slack_rational finite
  have counted := Counted.of_near ahead near slack
  generalize HorizonNumber.tolerance * HorizonNumber.magnitude q = slackened at slackFinite slack counted ⊢
  have size : max 1 r ≤ 2 ^ 52 := max_le (by norm_num) within
  have isFinite := (add_rounds finite slackFinite).isFinite (lt_two_pow_1023 (counted.sub_add_size.2.trans (by linarith)))
  obtain ⟨low, high⟩ := counted.rounded_add_bounds (add_relative finite slackFinite isFinite)
  intro count
  have floor : count = ⌊rational (q + slackened)⌋₊ + 1 :=
    count_floor_succ isFinite (by linarith) (by linarith)
  rw [floor]
  push_cast
  exact ⟨low.trans (Nat.lt_floor_add_one _), by linarith [Nat.floor_le (ahead.trans low.le)]⟩

end

theorem stepCount_infinite {start horizon step : Float}
    (infinite : ((horizon - start) / step).toModel.unpack = .infinity .positive) :
    Boundary.inclusive.stepCount start horizon step = 2 ^ 64 - 1 := by
  change HorizonNumber.count
    (HorizonNumber.floor (_ + HorizonNumber.tolerance * HorizonNumber.magnitude _) + HorizonNumber.one) = _
  rw [← eq_of_unpack infinite]
  decide +kernel

/-- Runs come to their horizon and not past it, as far as the tolerance goes. Inclusive runs always do, even where the
way overflows. -/
theorem stepCount_meets_horizon (s : Settings) (valid : s.fault? = none) (t : Float) (start : t.isFinite) :
    (1 ≤ s.distance t → 1 ≤ Boundary.inclusive.stepCount t s.maxtime s.dt) ∧
    (0 ≤ s.distance t → s.distance t ≤ 2 ^ 52 → s.distance t < Boundary.inclusive.stepCount t s.maxtime s.dt) ∧
    (((s.maxtime - t) / s.dt).isFinite →
      (1 ≤ s.distance t → 1 ≤ Boundary.exclusive.stepCount t s.maxtime s.dt) ∧
      (0 ≤ s.distance t → s.distance t ≤ 2 ^ 52 →
        s.distance t - 1.00001e-9 * max 1 (s.distance t) ≤ Boundary.exclusive.stepCount t s.maxtime s.dt ∧
        Boundary.exclusive.stepCount t s.maxtime s.dt < s.distance t + 1 ∧
        Boundary.inclusive.stepCount t s.maxtime s.dt ≤ s.distance t + 1 + 1.00001e-9 * max 1 (s.distance t))) := by
  obtain ⟨horizonFinite, stepFinite, positive⟩ := Settings.of_fault?_none valid
  have near (within : ((s.maxtime - t) / s.dt).isFinite) :
      |rational ((s.maxtime - t) / s.dt) - s.distance t| ≤ max 1 |s.distance t| / 2 ^ 50 :=
    ratio_rational start horizonFinite stepFinite positive within
  have endless (ahead : 0 ≤ s.distance t) (beyond : ¬ ((s.maxtime - t) / s.dt).isFinite) :
      Boundary.inclusive.stepCount t s.maxtime s.dt = 2 ^ 64 - 1 :=
    stepCount_infinite (ratio_infinite start horizonFinite stepFinite positive ahead beyond)
  refine ⟨fun far => ?_, fun ahead reach => ?_, fun within => ⟨fun far => ?_, fun ahead reach => ?_⟩⟩
  · by_cases within : ((s.maxtime - t) / s.dt).isFinite
    · exact one_le_count_floor_add within (near within) far
    · rw [endless (zero_le_one.trans far) within]
      decide
  · by_cases within : ((s.maxtime - t) / s.dt).isFinite
    · exact (count_floor_add_bounds within (near within) ahead reach).1
    · rw [endless ahead within]
      exact reach.trans_lt (by norm_num)
  · exact one_le_count_ceil_sub within (near within) far
  · obtain ⟨low, high⟩ := count_ceil_sub_bounds within (near within) ahead reach
    exact ⟨low, high, (count_floor_add_bounds within (near within) ahead reach).2⟩

/-- Ten steps of length one. -/
def tenSteps : Settings := { maxtime := 10, dt := 1 }

theorem tenSteps_meet_horizon :
    tenSteps.distance 0 = 10 ∧ Boundary.exclusive.stepCount 0 tenSteps.maxtime tenSteps.dt = 10 ∧
      Boundary.inclusive.stepCount 0 tenSteps.maxtime tenSteps.dt = 11 := by
  have horizon : rational tenSteps.maxtime = (5629499534213120 : Nat) * 2 ^ (-49 : Int) := rfl
  have step : rational tenSteps.dt = 1 := one_rational.2
  have distance : tenSteps.distance 0 = 10 := by
    rw [Settings.distance, horizon, zero_rational.2, step]
    norm_num
  obtain ⟨_, passes, meets⟩ := stepCount_meets_horizon tenSteps (by decide +kernel) 0 rfl
  have bounds := (meets (by decide +kernel)).2
  rw [distance] at passes bounds
  rw [max_eq_right (by norm_num : (1 : ℚ) ≤ 10)] at bounds
  have passed := passes (by norm_num) (by norm_num)
  obtain ⟨low, high, most⟩ := bounds (by norm_num) (by norm_num)
  refine ⟨distance, ?_, ?_⟩
  · generalize Boundary.exclusive.stepCount 0 tenSteps.maxtime tenSteps.dt = n at low high ⊢
    have least : 9 < n := by exact_mod_cast (by linarith : (9 : ℚ) < n)
    have below : n < 11 := by exact_mod_cast (by linarith : (n : ℚ) < 11)
    omega
  · generalize Boundary.inclusive.stepCount 0 tenSteps.maxtime tenSteps.dt = n at passed most ⊢
    have least : 10 < n := by exact_mod_cast passed
    have below : n < 12 := by exact_mod_cast (by linarith : (n : ℚ) < 12)
    omega

/-- A trillion steps of length one, of which the slack is a thousand. -/
def trillionSteps : Settings := { maxtime := 1e12, dt := 1 }

/-- A horizon that is two steps away from its negative, by a way that overflows. -/
def farApart : Settings := { maxtime := 1.7e308, dt := 1.7e308 }

/-- The slack grows with the distance, and over a billion steps it is more than one. And where the way overflows, it
is no number any more once the slack is taken off. -/
theorem horizon_missed :
    (¬ ∀ (s : Settings) (t : Float), s.fault? = none → t.isFinite → 0 ≤ s.distance t → s.distance t ≤ 2 ^ 52 →
      s.distance t - 1 ≤ Boundary.exclusive.stepCount t s.maxtime s.dt) ∧
    ¬ ∀ (s : Settings) (t : Float), s.fault? = none → t.isFinite → 1 ≤ s.distance t →
      1 ≤ Boundary.exclusive.stepCount t s.maxtime s.dt := by
  constructor
  · intro claim
    have horizon : rational trillionSteps.maxtime = (8192000000000000 : Nat) * 2 ^ (-13 : Int) := rfl
    have step : rational trillionSteps.dt = 1 := one_rational.2
    have distance : trillionSteps.distance 0 = 10 ^ 12 := by
      rw [Settings.distance, horizon, zero_rational.2, step]
      norm_num
    have count : Boundary.exclusive.stepCount 0 trillionSteps.maxtime trillionSteps.dt = 999999999000 := by
      decide +kernel
    have short := claim trillionSteps 0 (by decide +kernel) rfl
    rw [distance, count] at short
    norm_num at short
  · intro claim
    have valid : farApart.fault? = none := by decide +kernel
    obtain ⟨horizonFinite, _, positive⟩ := Settings.of_fault?_none valid
    obtain ⟨startFinite, start⟩ := neg_rational horizonFinite
    have distance : farApart.distance (-farApart.maxtime) = 2 := by
      have same : rational farApart.maxtime = rational farApart.dt := rfl
      rw [Settings.distance, start, same, sub_neg_eq_add, ← two_mul, mul_div_assoc, div_self positive.ne', mul_one]
    have count : Boundary.exclusive.stepCount (-farApart.maxtime) farApart.maxtime farApart.dt = 0 := by
      decide +kernel
    have some := claim farApart (-farApart.maxtime) valid startFinite (by rw [distance]; exact one_le_two)
    rw [count] at some
    exact absurd some (by decide)

end EulerFlow
