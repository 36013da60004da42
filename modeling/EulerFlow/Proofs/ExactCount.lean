import EulerFlow.Run.Horizon
import Mathlib.Algebra.Order.Floor.Semiring
import Mathlib.Algebra.Order.Group.MinMax
import Mathlib.Data.Rat.Floor
import Mathlib.Order.Bounds.Basic
import Mathlib.Tactic.Linarith
import Mathlib.Tactic.NormNum

namespace EulerFlow

/-- Rationals are not rounded. What is counted is truncated to a number of 64 bits. -/
instance : HorizonNumber ℚ where
  one := 1
  tolerance := 1 / 10 ^ 9
  magnitude x := max |x| 1
  floor x := ⌊x⌋
  ceil x := ⌈x⌉
  count x := min ⌊x⌋₊ (2 ^ 64 - 1)

theorem count_intCast (z : ℤ) : HorizonNumber.count (z : ℚ) = min z.toNat (2 ^ 64 - 1) := by
  change min ⌊(z : ℚ)⌋₊ (2 ^ 64 - 1) = _
  rw [← Int.floor_toNat, Int.floor_intCast]

/-- A loop that stands before pass `k` and ends before pass `n`. -/
inductive Loop (proceeds : ℕ → Prop) : ℕ → ℕ → Prop
  | ends {n : ℕ} (ended : ¬ proceeds n) : Loop proceeds n n
  | passes {k n : ℕ} (goesOn : proceeds k) (rest : Loop proceeds (k + 1) n) : Loop proceeds k n

namespace Loop

variable {proceeds : ℕ → Prop} {k n : ℕ}

theorem of_least (ended : ¬ proceeds n) (before : ∀ j < n, proceeds j) (within : k ≤ n) : Loop proceeds k n := by
  induction within using Nat.decreasingInduction with
  | self => exact .ends ended
  | of_succ k short ih => exact .passes (before k short) ih

theorem of_isLeast (least : IsLeast {n | ¬ proceeds n} n) : Loop proceeds 0 n :=
  of_least least.1 (fun _ before => not_not.mp fun ended => before.not_ge (least.2 ended)) (Nat.zero_le n)

end Loop

/-- How far from the horizon, in steps, a grid point still counts as on it. -/
def slack (ratio : ℚ) : ℚ :=
  1 / 10 ^ 9 * max |ratio| 1

theorem slack_nonneg (ratio : ℚ) : 0 ≤ slack ratio := by
  unfold slack
  positivity

/-- The slack changes by less than the way, also where it begins to change. -/
theorem slack_sub_le {near far : ℚ} (longer : near ≤ far) : |slack far - slack near| ≤ far - near := by
  have kink : |max |far| 1 - max |near| 1| ≤ far - near := by
    calc |max |far| 1 - max |near| 1|
      _ ≤ |(|far| - |near|)| := abs_max_sub_max_le_abs _ _ _
      _ ≤ |far - near| := abs_abs_sub_abs_le _ _
      _ = far - near := abs_of_nonneg (sub_nonneg.mpr longer)
  rw [slack, slack, ← mul_sub, abs_mul, abs_of_pos (by norm_num)]
  linarith [abs_nonneg (max |far| 1 - max |near| 1)]

namespace Boundary

/-- The number of steps over a way of the given number of step lengths. -/
def stepsOver (boundary : Boundary) (ratio : ℚ) : ℕ :=
  match boundary with
  | .exclusive => ⌈ratio - slack ratio⌉₊
  | .inclusive => (⌊ratio + slack ratio⌋ + 1).toNat

/-- Over the rationals a count is cut off at the largest word, and is not changed otherwise. -/
theorem stepCount_eq_min (boundary : Boundary) (start horizon step : ℚ) :
    boundary.stepCount start horizon step = min (boundary.stepsOver ((horizon - start) / step)) (2 ^ 64 - 1) := by
  cases boundary with
  | exclusive =>
    rw [stepsOver, ← Int.ceil_toNat]
    exact count_intCast _
  | inclusive =>
    rw [stepsOver, ← count_intCast, Int.cast_add, Int.cast_one]
    rfl

theorem exclusive_le_iff {ratio : ℚ} {n : ℕ} : exclusive.stepsOver ratio ≤ n ↔ ratio - slack ratio ≤ n := by
  rw [stepsOver, Nat.ceil_le]

/-- Without the row at the horizon the count is the least that comes up to it, but for the slack. -/
theorem isLeast_exclusive (ratio : ℚ) : IsLeast {n : ℕ | ratio - slack ratio ≤ n} (exclusive.stepsOver ratio) :=
  ⟨exclusive_le_iff.mp le_rfl, fun _ => exclusive_le_iff.mpr⟩

theorem inclusive_le_iff {ratio : ℚ} {n : ℕ} : inclusive.stepsOver ratio ≤ n ↔ ratio + slack ratio < n := by
  rw [stepsOver, Int.toNat_le, Int.add_one_le_iff, Int.floor_lt, Int.cast_natCast]

/-- With the row at the horizon the count is the least that goes past it, and past the slack. -/
theorem isLeast_inclusive (ratio : ℚ) : IsLeast {n : ℕ | ratio + slack ratio < n} (inclusive.stepsOver ratio) :=
  ⟨inclusive_le_iff.mp le_rfl, fun _ => inclusive_le_iff.mpr⟩

/-- The slack works in opposite directions, so the row at the horizon can only be one more. -/
theorem exclusive_le_inclusive (ratio : ℚ) : exclusive.stepsOver ratio ≤ inclusive.stepsOver ratio := by
  refine (isLeast_exclusive ratio).2 ?_
  have beyond : ratio + slack ratio < inclusive.stepsOver ratio := (isLeast_inclusive ratio).1
  have room := slack_nonneg ratio
  change ratio - slack ratio ≤ _
  linarith

/-- A longer way never takes fewer steps. -/
theorem stepsOver_mono (boundary : Boundary) : Monotone boundary.stepsOver := by
  intro near far longer
  obtain ⟨low, high⟩ := abs_le.mp (slack_sub_le longer)
  cases boundary with
  | exclusive => exact Nat.ceil_mono (by linarith)
  | inclusive => exact Int.toNat_le_toNat (add_le_add_left (Int.floor_mono (by linarith)) 1)

theorem stepCount_le {start horizon step start' horizon' : ℚ} (boundary : Boundary)
    (longer : (horizon - start) / step ≤ (horizon' - start') / step) :
    boundary.stepCount start horizon step ≤ boundary.stepCount start' horizon' step := by
  rw [stepCount_eq_min, stepCount_eq_min]
  exact min_le_min_right _ (boundary.stepsOver_mono longer)

variable {start horizon step : ℚ}

/-- Times are compared as the numbers of steps from the start are. -/
theorem le_grid_iff (positive : 0 < step) (s : ℚ) (n : ℕ) :
    horizon - s * step ≤ start + n * step ↔ (horizon - start) / step - s ≤ n := by
  rw [sub_le_iff_le_add, sub_le_iff_le_add, div_le_iff₀ positive, add_mul]
  constructor <;> intro reached <;> linarith

theorem lt_grid_iff (positive : 0 < step) (s : ℚ) (n : ℕ) :
    horizon + s * step < start + n * step ↔ (horizon - start) / step + s < n := by
  rw [← lt_sub_iff_add_lt (a := (horizon - start) / step), div_lt_iff₀ positive, sub_mul]
  constructor <;> intro passed <;> linarith

end Boundary

/-- In exact numbers the steps are counted that a loop makes while the time is before the horizon, or not after it, where
the horizon is nearer or farther by the slack. -/
theorem stepCount_counts_loop (start horizon step : ℚ) (positive : 0 < step) :
    let s := 1 / 10 ^ 9 * max |(horizon - start) / step| 1
    (∃ n : ℕ, IsLeast {n : ℕ | start + n * step ≥ horizon - s * step} n ∧
      Loop (fun k => start + k * step < horizon - s * step) 0 n ∧
      Boundary.exclusive.stepCount start horizon step = min n (2 ^ 64 - 1)) ∧
    (∃ n : ℕ, IsLeast {n : ℕ | start + n * step > horizon + s * step} n ∧
      Loop (fun k => start + k * step ≤ horizon + s * step) 0 n ∧
      Boundary.inclusive.stepCount start horizon step = min n (2 ^ 64 - 1)) ∧
    Boundary.exclusive.stepCount start horizon step ≤ Boundary.inclusive.stepCount start horizon step ∧
    ∀ boundary : Boundary,
      (∀ horizon', horizon ≤ horizon' →
        boundary.stepCount start horizon step ≤ boundary.stepCount start horizon' step) ∧
      ∀ start', start ≤ start' →
        boundary.stepCount start' horizon step ≤ boundary.stepCount start horizon step := by
  intro s
  have exclusive : IsLeast {n : ℕ | start + n * step ≥ horizon - s * step} _ :=
    (Set.ext (Boundary.le_grid_iff positive s)).symm ▸ Boundary.isLeast_exclusive ((horizon - start) / step)
  have inclusive : IsLeast {n : ℕ | start + n * step > horizon + s * step} _ :=
    (Set.ext (Boundary.lt_grid_iff positive s)).symm ▸ Boundary.isLeast_inclusive ((horizon - start) / step)
  refine ⟨⟨_, exclusive, .of_isLeast ?_, Boundary.stepCount_eq_min ..⟩,
    ⟨_, inclusive, .of_isLeast ?_, Boundary.stepCount_eq_min ..⟩, ?_, fun boundary => ⟨?_, ?_⟩⟩
  · simpa only [not_lt] using exclusive
  · simpa only [not_le] using inclusive
  · rw [Boundary.stepCount_eq_min, Boundary.stepCount_eq_min]
    exact min_le_min_right _ (Boundary.exclusive_le_inclusive _)
  · intro horizon' later
    exact boundary.stepCount_le (div_le_div_of_nonneg_right (sub_le_sub_right later start) positive.le)
  · intro start' later
    exact boundary.stepCount_le (div_le_div_of_nonneg_right (sub_le_sub_left later horizon) positive.le)

/-- The tenth grid point is before the horizon by less than the slack, and so it is on the horizon. -/
theorem tenths_count_loop :
    (0 : ℚ) < 1 / 10 ∧ Boundary.exclusive.stepCount 0 (1 + 1 / 10 ^ 10 : ℚ) (1 / 10) = 10 ∧
      Boundary.inclusive.stepCount 0 (1 + 1 / 10 ^ 10 : ℚ) (1 / 10) = 11 := by
  have positive : (0 : ℚ) < 1 / 10 := by norm_num
  have slack : (1 : ℚ) / 10 ^ 9 * max |(1 + 1 / 10 ^ 10 - 0) / (1 / 10)| 1 = 1 / 10 ^ 8 + 1 / 10 ^ 18 := by
    rw [abs_of_pos (by norm_num), max_eq_left (by norm_num)]
    norm_num
  obtain ⟨⟨n, ⟨reached, first⟩, _, exclusive⟩, ⟨m, ⟨passed, least⟩, _, inclusive⟩, _⟩ :=
    stepCount_counts_loop 0 (1 + 1 / 10 ^ 10) (1 / 10) positive
  rw [slack] at reached first passed least
  have ten : n = 10 := by
    have beyond : (9 : ℚ) < n := by
      change 0 + (n : ℚ) * (1 / 10) ≥ _ at reached
      linarith
    have within : n ≤ 10 := first (by norm_num)
    have far : 9 < n := by exact_mod_cast beyond
    omega
  have eleven : m = 11 := by
    have beyond : (10 : ℚ) < m := by
      change 0 + (m : ℚ) * (1 / 10) > _ at passed
      linarith
    have within : m ≤ 11 := least (by norm_num)
    have far : 10 < m := by exact_mod_cast beyond
    omega
  rw [exclusive, inclusive, ten, eleven]
  exact ⟨positive, rfl, rfl⟩

end EulerFlow
