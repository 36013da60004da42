import EulerFlow.Decimal.Binary
import Mathlib

namespace EulerFlow

open Float.Model Float.Model.UnpackedFloat

theorem log2_bounds {n : Nat} (positive : 0 < n) : 2 ^ n.log2 ≤ n ∧ n < 2 ^ (n.log2 + 1) :=
  (Nat.log2_eq_iff (Nat.pos_iff_ne_zero.mp positive)).mp rfl

theorem log2_mul_two_pow {m : Nat} (positive : 0 < m) (k : Nat) : (m * 2 ^ k).log2 = m.log2 + k := by
  obtain ⟨low, high⟩ := log2_bounds positive
  have power := Nat.two_pow_pos k
  rw [Nat.log2_eq_iff (Nat.pos_iff_ne_zero.mp (Nat.mul_pos positive power)), Nat.add_right_comm, Nat.pow_add,
    Nat.pow_add]
  exact ⟨Nat.mul_le_mul_right _ low, Nat.mul_lt_mul_of_pos_right high power⟩

theorem targetExponent_eq (t : Int) : Format.binary64.targetExponent t = max (t - 53) (-1074) := rfl

theorem shiftRight_exact (m k : Nat) :
    ((⟨m * 2 ^ k, false, false⟩ : ExtendedMantissa) >>> k) = ⟨m, false, false⟩ := by
  change Nat.repeat ExtendedMantissa.shiftRightOne k _ = _
  induction k generalizing m with
  | zero => rw [Nat.pow_zero, Nat.mul_one]; rfl
  | succ k ih =>
    have shifted : m * 2 ^ (k + 1) = (m * 2) * 2 ^ k := by rw [Nat.pow_succ, Nat.mul_comm (2 ^ k), Nat.mul_assoc]
    rw [Nat.repeat, shifted, ih]
    simp [ExtendedMantissa.shiftRightOne]

/-- A mantissa whose last bits are zero is shifted to the exponent of a double without loss. -/
theorem shiftToTargetExponent_exact {m : Nat} (positive : 0 < m) {e : Int}
    (canonical : Format.binary64.targetExponent (totalExponent m e) = e) (k : Nat) :
    shiftToTargetExponent .binary64 (m * 2 ^ k) (e - k) .exact = (⟨m, false, false⟩, e) := by
  have total : totalExponent (m * 2 ^ k) (e - k) = totalExponent m e := by
    simp only [totalExponent, log2_mul_two_pow positive]
    omega
  have shift : (e - (e - k)).toNat = k := by omega
  unfold shiftToTargetExponent shiftToExponent
  simp only [total, canonical, shift, ExtendedMantissa.ofMantissaAndAccuracy, shiftRight_exact]
  rw [Prod.mk.injEq]
  exact ⟨rfl, by omega⟩

/-- A mantissa with its two further bits tells the whole part of a number, and on which side of one
half its fraction lies. -/
inductive Approximates : ExtendedMantissa → ℚ → Prop
  | exact {m : Nat} {y : ℚ} : y = m → Approximates ⟨m, false, false⟩ y
  | below {m : Nat} {y : ℚ} : m < y → y < m + 1 / 2 → Approximates ⟨m, false, true⟩ y
  | half {m : Nat} {y : ℚ} : y = m + 1 / 2 → Approximates ⟨m, true, false⟩ y
  | above {m : Nat} {y : ℚ} : m + 1 / 2 < y → y < m + 1 → Approximates ⟨m, true, true⟩ y

namespace Approximates

variable {em : ExtendedMantissa} {y : ℚ}

theorem floor (approximates : Approximates em y) : (em.mantissa : ℚ) ≤ y ∧ y < em.mantissa + 1 := by
  cases approximates with
  | exact same => exact ⟨same.ge, by linarith⟩
  | below low high => exact ⟨low.le, by linarith⟩
  | half same => exact ⟨by linarith, by linarith⟩
  | above low high => exact ⟨by linarith, high⟩

/-- A quotient of whole numbers is told by its whole part and the remainder. -/
theorem quotient (num : Nat) {den : Nat} (positive : 0 < den) :
    Approximates (.ofMantissaAndAccuracy (num / den) (accuracyOfFraction (num % den) den)) (num / den) := by
  have divisor : (0 : ℚ) < den := Nat.cast_pos.mpr positive
  have value : (num : ℚ) / den = (num / den : Nat) + (num % den : Nat) / den := by
    have split : (num : ℚ) = den * (num / den : Nat) + (num % den : Nat) := by
      exact_mod_cast (Nat.div_add_mod num den).symm
    rw [div_eq_iff divisor.ne', add_mul, div_mul_cancel₀ _ divisor.ne', mul_comm]
    exact split
  have within : ((num % den : Nat) : ℚ) / den < 1 :=
    (div_lt_one divisor).mpr (Nat.cast_lt.mpr (Nat.mod_lt num positive))
  rw [value]
  unfold accuracyOfFraction
  split
  · rename_i none
    rw [none]
    exact .exact (by simp)
  · rename_i some
    have fraction : (0 : ℚ) < (num % den : Nat) / den := div_pos (Nat.cast_pos.mpr (Nat.pos_of_ne_zero some)) divisor
    cases side : compare (2 * (num % den)) den with
    | lt =>
      have short : ((2 * (num % den) : Nat) : ℚ) < den := Nat.cast_lt.mpr (Nat.compare_eq_lt.mp side)
      push_cast at short
      refine .below (by linarith) ?_
      rw [add_lt_add_iff_left, div_lt_div_iff₀ divisor two_pos]
      linarith
    | eq =>
      have even : ((2 * (num % den) : Nat) : ℚ) = den := congrArg Nat.cast (Nat.compare_eq_eq.mp side)
      push_cast at even
      refine .half ?_
      rw [add_right_inj, div_eq_div_iff divisor.ne' two_ne_zero]
      linarith
    | gt =>
      have long : (den : ℚ) < (2 * (num % den) : Nat) := Nat.cast_lt.mpr (Nat.compare_eq_gt.mp side)
      push_cast at long
      refine .above ?_ (by linarith)
      rw [add_lt_add_iff_left, div_lt_div_iff₀ two_pos divisor]
      linarith

/-- The bit that is shifted out is the next to tell of the fraction. -/
theorem shiftRightOne (approximates : Approximates em y) : Approximates em.shiftRightOne (y / 2) := by
  have parity (m : Nat) : (m : ℚ) = 2 * (m / 2 : Nat) ∧ (m % 2 != 0) = false ∨
      (m : ℚ) = 2 * (m / 2 : Nat) + 1 ∧ (m % 2 != 0) = true := by
    have split : (m : ℚ) = 2 * (m / 2 : Nat) + (m % 2 : Nat) := by exact_mod_cast (Nat.div_add_mod m 2).symm
    rcases Nat.mod_two_eq_zero_or_one m with even | odd
    · rw [even] at split ⊢
      exact .inl ⟨by simpa using split, rfl⟩
    · rw [odd] at split ⊢
      exact .inr ⟨by simpa using split, rfl⟩
  obtain ⟨m, roundBit, stickyBit⟩ := em
  rcases parity m with ⟨even, bit⟩ | ⟨odd, bit⟩
  · rw [ExtendedMantissa.shiftRightOne, bit]
    cases approximates with
    | exact same => exact .exact (by linarith)
    | below low high => exact .below (by linarith) (by linarith)
    | half same => exact .below (by linarith) (by linarith)
    | above low high => exact .below (by linarith) (by linarith)
  · rw [ExtendedMantissa.shiftRightOne, bit]
    cases approximates with
    | exact same => exact .half (by linarith)
    | below low high => exact .above (by linarith) (by linarith)
    | half same => exact .above (by linarith) (by linarith)
    | above low high => exact .above (by linarith) (by linarith)

theorem shiftRight (approximates : Approximates em y) (k : Nat) : Approximates (em >>> k) (y / 2 ^ k) := by
  change Approximates (Nat.repeat ExtendedMantissa.shiftRightOne k em) _
  induction k with
  | zero => rwa [pow_zero, div_one]
  | succ k ih =>
    rw [pow_succ, ← div_div]
    exact ih.shiftRightOne

/-- The nearest whole number is found, and of two the even one. -/
theorem roundedMantissa (approximates : Approximates em y) {n : Nat} (low : (n : ℚ) - 1 / 2 ≤ y) (high : y ≤ n + 1 / 2)
    (tie : y = n - 1 / 2 ∨ y = n + 1 / 2 → n % 2 = 0) : em.roundedMantissa = n := by
  have before {a b : Nat} (less : (a : ℚ) < b + 1) : a ≤ b := by
    have cast : ((a : Nat) : ℚ) < (b + 1 : Nat) := by exact_mod_cast less
    exact Nat.lt_succ_iff.mp (Nat.cast_lt.mp cast)
  cases approximates with
  | @exact m y same =>
    change m = n
    exact Nat.le_antisymm (before (by linarith)) (before (by linarith))
  | @below m y lower upper =>
    change m = n
    exact Nat.le_antisymm (before (by linarith)) (before (by linarith))
  | @half m y same =>
    change m + m % 2 = n
    have least : m ≤ n := before (by linarith)
    have most : n ≤ m + 1 := before (by push_cast; linarith)
    rcases Nat.le_succ_iff.mp most with here | next
    · have equal : n = m := Nat.le_antisymm here least
      have even := tie (.inr (by rw [equal]; exact same))
      omega
    · have even := tie (.inl (by rw [next]; push_cast; linarith))
      omega
  | @above m y lower upper =>
    change m + 1 = n
    have cast : ((m + 1 : Nat) : ℚ) = m + 1 := Nat.cast_succ m
    exact Nat.le_antisymm (before (by linarith)) (before (by linarith))

end Approximates

namespace Decimal.Binary

/-- How far the reals that round to a value reach below it, in units of its last bit. -/
def reach (x : Binary) : ℚ :=
  if x.narrowBelow then 1 / 4 else 1 / 2

/-- The reals that round to a value reach halfway to its neighbours. The ends belong to them if the
mantissa is even. -/
structure Attracts (x : Binary) (r : ℚ) : Prop where
  low : x.mantissa - x.reach ≤ r / 2 ^ x.exponent
  high : r / 2 ^ x.exponent ≤ x.mantissa + 1 / 2
  tie : r / 2 ^ x.exponent = x.mantissa - x.reach ∨ r / 2 ^ x.exponent = x.mantissa + 1 / 2 → x.mantissa % 2 = 0

/-- A value other than zero as a double holds it. -/
structure Canonical (x : Binary) : Prop where
  positive : 0 < x.mantissa
  target : Format.binary64.targetExponent (totalExponent x.mantissa x.exponent) = x.exponent
  bound : x.exponent ≤ 971
  narrow : x.narrowBelow = true ↔ x.mantissa = 2 ^ 52 ∧ -1074 < x.exponent

theorem reach_le (x : Binary) : 1 / 4 ≤ x.reach ∧ x.reach ≤ 1 / 2 := by
  unfold reach
  split <;> norm_num

end Decimal.Binary

open Decimal

theorem two_zpow_le_iff {a b : Int} : (2 : ℚ) ^ a ≤ 2 ^ b ↔ a ≤ b :=
  zpow_le_zpow_iff_right₀ one_lt_two

theorem two_zpow_lt_iff {a b : Int} : (2 : ℚ) ^ a < 2 ^ b ↔ a < b :=
  zpow_lt_zpow_iff_right₀ one_lt_two

theorem mantissa_bounds {m : Nat} (positive : 0 < m) :
    (2 : ℚ) ^ (m.log2 : Int) ≤ m ∧ (m : ℚ) + 1 ≤ 2 ^ ((m.log2 : Int) + 1) := by
  obtain ⟨low, high⟩ := log2_bounds positive
  exact ⟨by exact_mod_cast low, by exact_mod_cast high⟩

/-- The binary order of a number is that of its whole part, if that is not zero. -/
theorem Approximates.order {em : ExtendedMantissa} {y : ℚ} (approximates : Approximates em y)
    (positive : 0 < em.mantissa) (e : Int) :
    (2 : ℚ) ^ (totalExponent em.mantissa e - 1) ≤ y * 2 ^ e ∧ y * 2 ^ e < 2 ^ totalExponent em.mantissa e := by
  obtain ⟨floor, above⟩ := approximates.floor
  obtain ⟨low, high⟩ := mantissa_bounds positive
  have unit : (0 : ℚ) < 2 ^ e := zpow_pos two_pos e
  have least : totalExponent em.mantissa e - 1 = em.mantissa.log2 + e := by rw [totalExponent]; ring
  rw [least, zpow_add₀ two_ne_zero, totalExponent, zpow_add₀ two_ne_zero]
  exact ⟨mul_le_mul_of_nonneg_right (low.trans floor) unit.le, mul_lt_mul_of_pos_right (above.trans_le high) unit⟩

theorem ofMantissaAndAccuracy_mantissa (m : Nat) (accuracy : Accuracy) :
    (ExtendedMantissa.ofMantissaAndAccuracy m accuracy).mantissa = m := by
  cases accuracy with
  | exact => rfl
  | inexact side => cases side <;> rfl

/-- A mantissa that is fine enough is shifted to the place of the last bit, and what is shifted out is not
forgotten. -/
theorem shiftToTargetExponent_approximates {m : Nat} {e : Int} {accuracy : Accuracy} {y : ℚ}
    (approximates : Approximates (.ofMantissaAndAccuracy m accuracy) y)
    (fine : e ≤ Format.binary64.targetExponent (totalExponent m e)) :
    ∃ em, shiftToTargetExponent .binary64 m e accuracy = (em, Format.binary64.targetExponent (totalExponent m e)) ∧
      Approximates em (y * 2 ^ e / 2 ^ Format.binary64.targetExponent (totalExponent m e)) := by
  generalize target : Format.binary64.targetExponent (totalExponent m e) = t at fine ⊢
  refine ⟨ExtendedMantissa.ofMantissaAndAccuracy m accuracy >>> (t - e).toNat, ?_, ?_⟩
  · unfold shiftToTargetExponent shiftToExponent
    simp only [target]
    rw [Int.toNat_of_nonneg (by omega), add_sub_cancel]
  · have amount : (2 : ℚ) ^ t = 2 ^ e * 2 ^ (t - e).toNat := by
      rw [← zpow_natCast, Int.toNat_of_nonneg (by omega), ← zpow_add₀ two_ne_zero, add_sub_cancel]
    have shifted := approximates.shiftRight (t - e).toNat
    rwa [amount, mul_comm y, mul_div_mul_left _ _ (zpow_pos two_pos e).ne']

namespace Decimal.Binary

variable {x : Binary} {r : ℚ}

theorem Attracts.bounds (attracts : x.Attracts r) :
    (x.mantissa - x.reach) * 2 ^ x.exponent ≤ r ∧ r ≤ (x.mantissa + 1 / 2) * 2 ^ x.exponent := by
  have unit : (0 : ℚ) < 2 ^ x.exponent := zpow_pos two_pos x.exponent
  exact ⟨(le_div_iff₀ unit).mp attracts.low, (div_le_iff₀ unit).mp attracts.high⟩

theorem Attracts.lt (attracts : x.Attracts r) (positive : 0 < x.mantissa) :
    r < 2 ^ totalExponent x.mantissa x.exponent := by
  have unit : (0 : ℚ) < 2 ^ x.exponent := zpow_pos two_pos x.exponent
  obtain ⟨_, high⟩ := mantissa_bounds positive
  rw [totalExponent, zpow_add₀ two_ne_zero]
  refine attracts.bounds.2.trans_lt (mul_lt_mul_of_pos_right ?_ unit)
  linarith

theorem Canonical.least (canonical : x.Canonical) :
    -1074 ≤ x.exponent ∧ totalExponent x.mantissa x.exponent - 53 ≤ x.exponent := by
  have target := canonical.target
  rw [targetExponent_eq] at target
  omega

/-- Above the least exponent a mantissa has all its bits. -/
theorem Canonical.normal (canonical : x.Canonical) (above : x.exponent ≠ -1074) :
    totalExponent x.mantissa x.exponent = 53 + x.exponent ∧ (2 : ℚ) ^ 52 ≤ x.mantissa := by
  have target := canonical.target
  rw [targetExponent_eq, totalExponent] at target
  have length : x.mantissa.log2 = 52 := by omega
  have low := (log2_bounds canonical.positive).1
  rw [length] at low
  refine ⟨?_, by exact_mod_cast low⟩
  rw [totalExponent, length]
  rfl

/-- A number that rounds to a value with all its bits is in the binade of the value, or in the one below. -/
theorem Attracts.binade (canonical : x.Canonical) (above : x.exponent ≠ -1074) (attracts : x.Attracts r) :
    (2 : ℚ) ^ (51 + x.exponent) ≤ r ∧ r < 2 ^ (53 + x.exponent) := by
  obtain ⟨total, whole⟩ := canonical.normal above
  refine ⟨le_trans ?_ attracts.bounds.1, ?_⟩
  · have reach := x.reach_le
    rw [zpow_add₀ two_ne_zero]
    refine mul_le_mul_of_nonneg_right ?_ (zpow_pos two_pos x.exponent).le
    calc (2 : ℚ) ^ (51 : Int)
      _ ≤ 2 ^ 52 - 1 / 2 := by norm_num
      _ ≤ x.mantissa - x.reach := by linarith
  · rw [← total]
    exact attracts.lt canonical.positive

/-- Only the first value of a binade reaches into the one below. -/
theorem Attracts.first (canonical : x.Canonical) (above : x.exponent ≠ -1074) (attracts : x.Attracts r)
    (below : r < 2 ^ (52 + x.exponent)) : x.mantissa = 2 ^ 52 ∧ x.reach = 1 / 4 := by
  have reach := x.reach_le
  have least := canonical.least.1
  have whole := (canonical.normal above).2
  have near : x.mantissa - x.reach < (2 : ℚ) ^ 52 := by
    refine lt_of_mul_lt_mul_right (attracts.bounds.1.trans_lt ?_) (zpow_pos two_pos x.exponent).le
    rwa [zpow_add₀ two_ne_zero] at below
  have less : (x.mantissa : ℚ) < (2 ^ 52 + 1 : Nat) := by
    push_cast
    linarith
  have more : ((2 ^ 52 : Nat) : ℚ) ≤ x.mantissa := by exact_mod_cast whole
  have first : x.mantissa = 2 ^ 52 := Nat.le_antisymm (Nat.lt_succ_iff.mp (Nat.cast_lt.mp less)) (Nat.cast_le.mp more)
  exact ⟨first, if_pos (canonical.narrow.mpr ⟨first, by omega⟩)⟩

/-- A number that rounds to a value has its last bit where the value has it, or one place further down:
below the first value of a binade. -/
theorem Attracts.target (canonical : x.Canonical) {m : Nat} {e : Int} {accuracy : Accuracy} {y : ℚ}
    (approximates : Approximates (.ofMantissaAndAccuracy m accuracy) y)
    (fine : e ≤ Format.binary64.targetExponent (totalExponent m e)) (attracts : x.Attracts (y * 2 ^ e)) :
    Format.binary64.targetExponent (totalExponent m e) = x.exponent ∨
      Format.binary64.targetExponent (totalExponent m e) = x.exponent - 1 ∧ x.mantissa = 2 ^ 52 ∧
        x.reach = 1 / 4 ∧ y * 2 ^ e < 2 ^ (52 + x.exponent) := by
  obtain ⟨least, last⟩ := canonical.least
  rw [targetExponent_eq] at fine ⊢
  rcases Nat.eq_zero_or_pos m with zero | positive
  · -- nothing is left of the number above the least exponent, so the value has it as well
    left
    have small := approximates.floor.2
    rw [ofMantissaAndAccuracy_mantissa, zero, Nat.cast_zero, zero_add] at small
    have below : y * 2 ^ e < 2 ^ e := mul_lt_of_lt_one_left (zpow_pos two_pos e) small
    rw [zero, totalExponent, Nat.log2_zero] at fine ⊢
    by_contra differs
    have order := two_zpow_lt_iff.mp ((attracts.binade canonical (by omega)).1.trans_lt below)
    omega
  · obtain ⟨floor, ceiling⟩ := approximates.order (by rwa [ofMantissaAndAccuracy_mantissa]) e
    rw [ofMantissaAndAccuracy_mantissa] at floor ceiling
    by_cases subnormal : x.exponent = -1074
    · left
      have most := two_zpow_lt_iff.mp (floor.trans_lt (attracts.lt canonical.positive))
      omega
    · obtain ⟨low, high⟩ := attracts.binade canonical subnormal
      have lowest := two_zpow_lt_iff.mp (low.trans_lt ceiling)
      have highest := two_zpow_lt_iff.mp (floor.trans_lt high)
      rcases lt_or_ge (y * 2 ^ e) (2 ^ (52 + x.exponent)) with below | above
      · right
        obtain ⟨first, narrow⟩ := attracts.first canonical subnormal below
        have order := two_zpow_lt_iff.mp (floor.trans_lt below)
        exact ⟨by omega, first, narrow, below⟩
      · left
        have order := two_zpow_lt_iff.mp (above.trans_lt ceiling)
        omega

/-- At the place of the last bit the mantissa of the value is found; one place further down, its double. -/
theorem Attracts.shifted (canonical : x.Canonical) {m : Nat} {e : Int} {accuracy : Accuracy} {y : ℚ}
    (approximates : Approximates (.ofMantissaAndAccuracy m accuracy) y)
    (fine : e ≤ Format.binary64.targetExponent (totalExponent m e)) (attracts : x.Attracts (y * 2 ^ e)) :
    ∃ em, ∃ k : Nat, shiftToTargetExponent .binary64 m e accuracy = (em, x.exponent - k) ∧
      em.roundedMantissa = x.mantissa * 2 ^ k := by
  obtain ⟨em, shifted, kept⟩ := shiftToTargetExponent_approximates approximates fine
  rcases attracts.target canonical approximates fine with same | ⟨below, first, narrow, under⟩
  · have reach := x.reach_le
    refine ⟨em, 0, by rw [shifted, same]; exact congrArg (Prod.mk em) (sub_zero _).symm, ?_⟩
    rw [same] at kept
    rw [pow_zero, mul_one]
    refine kept.roundedMantissa (by linarith [attracts.low]) attracts.high fun tie => attracts.tie ?_
    refine tie.imp_left fun low => ?_
    have farthest := attracts.low
    linarith
  · refine ⟨em, 1, by rw [shifted, below]; rfl, ?_⟩
    rw [below, zpow_sub_one₀ two_ne_zero, div_mul_eq_div_div, div_inv_eq_mul] at kept
    have low := attracts.low
    have high : y * 2 ^ e / 2 ^ x.exponent < 2 ^ 52 := by
      rw [div_lt_iff₀ (zpow_pos two_pos x.exponent)]
      rwa [zpow_add₀ two_ne_zero] at under
    rw [first, narrow] at low
    rw [first]
    push_cast at low
    refine kept.roundedMantissa ?_ ?_ fun _ => by norm_num
    · push_cast
      linarith
    · push_cast
      linarith

/-- A number that rounds to a value in theory is rounded to it. -/
theorem Attracts.roundWithAccuracy (canonical : x.Canonical) {m : Nat} {e : Int} {accuracy : Accuracy} {y : ℚ}
    (approximates : Approximates (.ofMantissaAndAccuracy m accuracy) y)
    (fine : e ≤ Format.binary64.targetExponent (totalExponent m e)) (attracts : x.Attracts (y * 2 ^ e)) (sign : Sign) :
    roundWithAccuracy .binary64 sign m e accuracy = .finite sign x.mantissa x.exponent canonical.positive := by
  obtain ⟨em, k, shifted, mantissa⟩ := attracts.shifted canonical approximates fine
  unfold UnpackedFloat.roundWithAccuracy
  simp only [shifted, mantissa, shiftToTargetExponent_exact canonical.positive canonical.target k]
  rw [dif_neg (Nat.pos_iff_ne_zero.mp canonical.positive)]

/-- A value is among the numbers that round to it. -/
theorem attracts_self (x : Binary) : x.Attracts (x.mantissa * 2 ^ x.exponent) := by
  have reach := x.reach_le
  have same : (x.mantissa : ℚ) * 2 ^ x.exponent / 2 ^ x.exponent = x.mantissa :=
    mul_div_cancel_right₀ _ (zpow_pos two_pos x.exponent).ne'
  refine ⟨?_, ?_, ?_⟩
  · rw [same]
    linarith
  · rw [same]
    linarith
  · rw [same]
    rintro (low | high)
    · linarith
    · linarith

end Decimal.Binary

end EulerFlow
