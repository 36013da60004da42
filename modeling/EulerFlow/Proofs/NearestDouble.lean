import EulerFlow.Proofs.UnsignedFloat

namespace EulerFlow

open Float.Model Float.Model.UnpackedFloat

/-- The number that a decimal stands for. -/
def Decimal.value (d : Decimal) : ℚ :=
  d.digits * 10 ^ d.exponent

/-- Division keeps enough of the quotient to round it. -/
theorem divCore_approximates {m n : Nat} (positive : 0 < m) (divisor : 0 < n) (e f : Int) :
    ∃ q g accuracy y, divCore .binary64 m e n f = (q, g, accuracy) ∧
      Approximates (.ofMantissaAndAccuracy q accuracy) y ∧ y * 2 ^ g = m * 2 ^ e / (n * 2 ^ f) ∧
      g ≤ Format.binary64.targetExponent (totalExponent q g) := by
  let g := min (e - f) (Format.binary64.targetExponent (totalExponent m e - totalExponent n f))
  have le : g ≤ e - f := Int.min_le_left ..
  let k := (e - f - g).toNat
  have shift : (k : Int) = e - f - g := Int.toNat_of_nonneg (by omega)
  have shifted : 0 < m * 2 ^ k := Nat.mul_pos positive (Nat.two_pow_pos k)
  refine ⟨m <<< k / n, g, _, _, rfl, .quotient (m <<< k) divisor, ?_, ?_⟩
  · have denominator : (n : ℚ) ≠ 0 := Nat.cast_ne_zero.mpr divisor.ne'
    have power : (2 : ℚ) ^ k * 2 ^ g * 2 ^ f = 2 ^ e := by
      rw [← zpow_natCast, ← zpow_add₀ two_ne_zero, ← zpow_add₀ two_ne_zero, shift]
      congr 1
      ring
    rw [Nat.shiftLeft_eq, div_mul_eq_mul_div, div_eq_div_iff denominator (by positivity), ← power]
    push_cast
    ring
  · have within : g ≤ Format.binary64.targetExponent (totalExponent m e - totalExponent n f) := Int.min_le_right ..
    rw [targetExponent_eq, totalExponent, totalExponent] at within
    rw [targetExponent_eq, totalExponent, Nat.shiftLeft_eq]
    have bits := log2_mul_two_pow positive k
    rcases Nat.eq_zero_or_pos (m * 2 ^ k / n) with zero | quotient
    · have less : m * 2 ^ k < n := (Nat.div_eq_zero_iff_lt divisor).mp zero
      have order : (m * 2 ^ k).log2 ≤ n.log2 :=
        (Nat.le_log2 divisor.ne').mpr ((log2_bounds shifted).1.trans less.le)
      rw [zero, Nat.log2_zero]
      omega
    · have order : (m * 2 ^ k).log2 < (m * 2 ^ k / n).log2 + 1 + (n.log2 + 1) := by
        rw [Nat.log2_lt shifted.ne', Nat.pow_add]
        calc m * 2 ^ k
          _ < (m * 2 ^ k / n + 1) * n := Nat.lt_mul_of_div_lt (Nat.lt_succ_self _) divisor
          _ ≤ 2 ^ ((m * 2 ^ k / n).log2 + 1) * 2 ^ (n.log2 + 1) :=
            Nat.mul_le_mul (log2_bounds quotient).2 (log2_bounds divisor).2.le
      omega

namespace Decimal.Binary

variable {x : Binary} {r : ℚ}

/-- The value as a number that is taken apart. -/
def Canonical.number (canonical : x.Canonical) : UnpackedFloat :=
  .finite .positive x.mantissa x.exponent canonical.positive

theorem Attracts.div (canonical : x.Canonical) {m n : Nat} (positive : 0 < m) (divisor : 0 < n) {e f : Int}
    (attracts : x.Attracts (m * 2 ^ e / (n * 2 ^ f))) :
    UnpackedFloat.div .binary64 (.finite .positive m e positive) (.finite .positive n f divisor) = canonical.number := by
  obtain ⟨q, g, accuracy, y, quotient, approximates, value, fine⟩ := divCore_approximates positive divisor e f
  rw [← value] at attracts
  simp only [UnpackedFloat.div, quotient]
  exact attracts.roundWithAccuracy canonical approximates fine _

theorem Attracts.mul (canonical : x.Canonical) {m n : Nat} (positive : 0 < m) (positive' : 0 < n) {e f : Int}
    (long : 52 ≤ (m * n).log2) (attracts : x.Attracts (m * 2 ^ e * (n * 2 ^ f))) :
    UnpackedFloat.mul .binary64 (.finite .positive m e positive) (.finite .positive n f positive') = canonical.number := by
  have value : (m : ℚ) * 2 ^ e * (n * 2 ^ f) = (m * n : Nat) * 2 ^ (e + f) := by
    rw [zpow_add₀ two_ne_zero]
    push_cast
    ring
  have fine : e + f ≤ Format.binary64.targetExponent (totalExponent (m * n) (e + f)) := by
    rw [targetExponent_eq, totalExponent]
    omega
  have approximates : Approximates (.ofMantissaAndAccuracy (m * n) .exact) (m * n : Nat) := .exact rfl
  rw [value] at attracts
  exact attracts.roundWithAccuracy canonical approximates fine _

theorem Attracts.range (canonical : x.Canonical) (attracts : x.Attracts r) :
    (2 : ℚ) ^ (-1075 : Int) ≤ r ∧ r < 2 ^ (1024 : Int) := by
  obtain ⟨least, last⟩ := canonical.least
  have bound := canonical.bound
  have reach := x.reach_le
  constructor
  · refine le_trans ?_ attracts.bounds.1
    have whole : (1 : ℚ) ≤ x.mantissa := Nat.one_le_cast.mpr canonical.positive
    calc (2 : ℚ) ^ (-1075 : Int)
      _ = 1 / 2 * 2 ^ (-1074 : Int) := by
        rw [show (-1075 : Int) = -1074 - 1 from rfl, zpow_sub_one₀ two_ne_zero, mul_comm, one_div]
      _ ≤ (x.mantissa - x.reach) * 2 ^ x.exponent :=
        mul_le_mul (by linarith) (two_zpow_le_iff.mpr least) (zpow_pos two_pos _).le (by linarith)
  · exact (attracts.lt canonical.positive).trans_le (two_zpow_le_iff.mpr (by omega))

/-- A decimal that rounds to a value is no zero, and its exponent is not so far out that reading it gives up. -/
theorem Attracts.power_range (canonical : x.Canonical) {digits : Nat} {power : Int}
    (attracts : x.Attracts (digits * 10 ^ power)) :
    0 < digits ∧ power ≤ 2048 ∧ -(2048 + (digits.log2 : Int)) ≤ power := by
  obtain ⟨least, most⟩ := attracts.range canonical
  have positive : 0 < digits := by
    refine Nat.pos_of_ne_zero ?_
    rintro rfl
    rw [Nat.cast_zero, zero_mul] at least
    exact absurd least (not_le.mpr (zpow_pos two_pos _))
  refine ⟨positive, ?_, ?_⟩
  · by_contra large
    have above : (2 : ℚ) ^ power ≤ digits * 10 ^ power := by
      have one : (1 : ℚ) ≤ digits := Nat.one_le_cast.mpr positive
      have base : (2 : ℚ) ^ power ≤ 10 ^ power := zpow_le_zpow_left₀ (by omega) two_pos.le (by norm_num)
      exact base.trans (le_mul_of_one_le_left (zpow_pos (by norm_num) _).le one)
    have order := two_zpow_lt_iff.mp (above.trans_lt most)
    omega
  · by_contra small
    have below : (digits : ℚ) * 10 ^ power < 2 ^ ((digits.log2 : Int) + 1 + power) := by
      have high := (mantissa_bounds positive).2
      have base : (10 : ℚ) ^ power ≤ 2 ^ power := by
        rw [← inv_le_inv₀ (zpow_pos two_pos _) (zpow_pos (by norm_num) _), ← zpow_neg, ← zpow_neg]
        exact zpow_le_zpow_left₀ (by omega) two_pos.le (by norm_num)
      rw [zpow_add₀ two_ne_zero]
      exact mul_lt_mul (by linarith) base (zpow_pos (by norm_num) _) (zpow_pos two_pos _).le
    have order := two_zpow_lt_iff.mp (least.trans_lt below)
    omega

/-- A decimal is read by one multiplication or one division, each of whole numbers. -/
theorem Attracts.ofScientific (canonical : x.Canonical) {digits : Nat} {power : Int}
    (attracts : x.Attracts (digits * 10 ^ power)) :
    UnpackedFloat.ofScientific .binary64 digits power = canonical.number := by
  obtain ⟨positive, within, deep⟩ := attracts.power_range canonical
  have range : (2 : Int) ^ Format.binary64.exponentBits = 2048 := rfl
  unfold UnpackedFloat.ofScientific
  rw [dif_neg positive.ne', range, if_neg (by omega), if_neg (by omega)]
  split
  · rename_i whole
    refine Attracts.mul canonical _ _ ?_ ?_
    · rw [Nat.shiftLeft_eq, mul_right_comm, log2_mul_two_pow (by positivity)]
      exact Nat.le_add_left_of_le (by decide)
    · have value : ((digits <<< Format.binary64.mantissaBits : Nat) : ℚ) * 2 ^ (-(Format.binary64.mantissaBits : Int)) *
          ((10 ^ power.toNat : Nat) * 2 ^ (0 : Int)) = digits * 10 ^ power := by
        rw [Nat.shiftLeft_eq, Nat.cast_mul, Nat.cast_pow, Nat.cast_pow, ← zpow_natCast, ← zpow_natCast,
          Int.toNat_of_nonneg whole, zpow_neg, zpow_zero,
          Nat.cast_ofNat, Nat.cast_ofNat, mul_one, mul_inv_cancel_right₀ (zpow_pos two_pos _).ne']
      rwa [value]
  · rename_i fraction
    refine Attracts.div canonical _ _ ?_
    have value : (digits : ℚ) * 2 ^ (0 : Int) / ((10 ^ (-power).toNat : Nat) * 2 ^ (0 : Int)) = digits * 10 ^ power := by
      rw [zpow_zero, mul_one, mul_one, Nat.cast_pow, ← zpow_natCast, Int.toNat_of_nonneg (by omega), zpow_neg,
        Nat.cast_ofNat, div_inv_eq_mul]
    rwa [value]

end Decimal.Binary

/-- A whole number is a double as long as its bits suffice. -/
theorem whole_unpack {n : Nat} (positive : 0 < n) (short : n < 2 ^ 53) :
    ∃ m e h, n.toUInt64.toFloat.toModel.unpack = .finite .positive m e h ∧ (m : ℚ) * 2 ^ e = n ∧ 2 ^ 52 ≤ m := by
  have length : n.log2 < 53 := (Nat.log2_lt positive.ne').mpr short
  let k := 52 - n.log2
  have target : Format.binary64.targetExponent (totalExponent (n * 2 ^ k) (0 - k)) = 0 - k := by
    rw [targetExponent_eq, totalExponent, log2_mul_two_pow positive]
    omega
  have shifted : 0 < n * 2 ^ k := Nat.mul_pos positive (Nat.two_pow_pos k)
  let x : Decimal.Binary := ⟨n * 2 ^ k, 0 - k, decide (n * 2 ^ k = 2 ^ 52)⟩
  have bound : x.exponent ≤ 971 := (by omega : (0 - k : Int) ≤ 971)
  have above : -1074 < x.exponent := (by omega : -1074 < (0 - k : Int))
  have canonical : x.Canonical :=
    ⟨shifted, target, bound, decide_eq_true_iff.trans (and_iff_left above).symm⟩
  have rounded : UnpackedFloat.ofUInt64 .binary64 n.toUInt64 = .finite .positive (n * 2 ^ k) (0 - k) shifted := by
    have same : n.toUInt64.toNat = n := Nat.mod_eq_of_lt (short.trans (by decide))
    have places : (0 - Format.binary64.targetExponent (totalExponent n 0)).toNat = k := by
      rw [targetExponent_eq, totalExponent]
      omega
    have whole : Approximates (.ofMantissaAndAccuracy (n * 2 ^ k) .exact) (n * 2 ^ k : Nat) := .exact rfl
    rw [UnpackedFloat.ofUInt64, UnpackedFloat.ofNat, UnpackedFloat.ofInt, UnpackedFloat.normalize, same]
    rw [Int.compare_eq_gt.mpr (by exact_mod_cast positive)]
    simp only [UnpackedFloat.round, decreaseExponent, Int.toNat_natCast, places, Nat.shiftLeft_eq]
    exact x.attracts_self.roundWithAccuracy canonical whole target.ge .positive
  refine ⟨n * 2 ^ k, 0 - k, shifted, ?_, ?_, ?_⟩
  · change UnpackedFloat.unpack .binary64 (UnpackedFloat.pack .binary64 (UnpackedFloat.ofUInt64 .binary64 n.toUInt64)) = _
    rw [rounded]
    exact unpack_pack shifted target bound .positive
  · rw [zero_sub, zpow_neg, zpow_natCast, Nat.cast_mul, Nat.cast_pow, Nat.cast_ofNat]
    exact mul_inv_cancel_right₀ (pow_pos two_pos k).ne' _
  · calc 2 ^ 52
      _ = 2 ^ n.log2 * 2 ^ k := by rw [← Nat.pow_add, Nat.add_sub_of_le (by omega)]
      _ ≤ n * 2 ^ k := Nat.mul_le_mul_right _ (log2_bounds positive).1

/-- The part of a power with a natural exponent, and the rest. -/
theorem zpow_toNat {b : ℚ} (nonzero : b ≠ 0) (e : Int) : b ^ e.toNat = b ^ e * b ^ (-e).toNat := by
  rw [← zpow_natCast, ← zpow_natCast, ← zpow_add₀ nonzero]
  congr 1
  omega

/-- An exponent is its size with its sign. -/
theorem signed_natAbs (e : Int) : (if decide (e < 0) = true then Int.negOfNat e.natAbs else Int.ofNat e.natAbs) = e := by
  rw [Int.negOfNat_eq, Int.ofNat_eq_natCast]
  split
  · rename_i negative
    have sign := of_decide_eq_true negative
    omega
  · rename_i nonnegative
    have sign : ¬ e < 0 := fun negative => nonnegative (decide_eq_true negative)
    omega

/-- A decimal that rounds to a value in theory is read as that value, be it by the table of powers or without it. -/
theorem Decimal.Binary.Attracts.toFloat {x : Binary} (canonical : x.Canonical) {d : Decimal}
    (attracts : x.Attracts d.value) : d.toFloat = .ofModel (.pack canonical.number) := by
  have positive : 0 < d.digits := (Attracts.power_range canonical attracts).1
  unfold Decimal.toFloat Float.ofScientific
  split
  · rename_i small
    obtain ⟨m, e, h, digits, whole, full⟩ := whole_unpack positive small.1
    obtain ⟨n, f, h', power, exact, full'⟩ := Unsigned.powers_of_ten ⟨d.exponent.natAbs, Nat.lt_succ_of_le small.2⟩
    have ten : (n : ℚ) * 2 ^ f = 10 ^ d.exponent.natAbs := by
      have cast : (n : ℚ) * 2 ^ f.toNat = 10 ^ d.exponent.natAbs * 2 ^ (-f).toNat := by exact_mod_cast exact
      rw [zpow_toNat two_ne_zero, ← mul_assoc] at cast
      exact mul_right_cancel₀ (pow_pos two_pos _).ne' cast
    split
    · rename_i negative
      have quotient : d.value = m * 2 ^ e / (n * 2 ^ f) := by
        have sign := of_decide_eq_true negative
        rw [whole, ten, Decimal.value, div_eq_mul_inv, ← zpow_natCast, ← zpow_neg]
        congr 2
        omega
      rw [quotient] at attracts
      change Float.ofModel (.pack (UnpackedFloat.div .binary64 _ _)) = _
      rw [digits, show (getElem Float.exactlyRepresentablePowersOfTen d.exponent.natAbs _).toModel.unpack = _ from power,
        attracts.div canonical]
    · rename_i nonnegative
      have product : d.value = m * 2 ^ e * (n * 2 ^ f) := by
        have sign : ¬ d.exponent < 0 := fun negative => nonnegative (decide_eq_true negative)
        rw [whole, ten, Decimal.value, ← zpow_natCast]
        congr 2
        omega
      rw [product] at attracts
      have long : 52 ≤ (m * n).log2 :=
        (Nat.le_log2 (Nat.mul_pos h h').ne').mpr (full.trans (Nat.le_mul_of_pos_right m h'))
      change Float.ofModel (.pack (UnpackedFloat.mul .binary64 _ _)) = _
      rw [digits, show (getElem Float.exactlyRepresentablePowersOfTen d.exponent.natAbs _).toModel.unpack = _ from power,
        attracts.mul canonical _ _ long]
  · have power := signed_natAbs d.exponent
    simp only [power]
    exact congrArg (fun u => Float.ofModel (.pack u)) (attracts.ofScientific canonical)

end EulerFlow
