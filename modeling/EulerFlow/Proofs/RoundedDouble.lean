import EulerFlow.Proofs.NearestDouble

namespace EulerFlow

open Float.Model Float.Model.UnpackedFloat

/-- The number with the sign of a double. -/
def withSign : Sign → ℚ → ℚ
  | .negative, r => -r
  | .positive, r => r

/-- The number that stands behind a double that is taken apart. Infinities and NaN stand for none, and get zero. -/
def unpackedRational : UnpackedFloat → ℚ
  | .finite s m e _ => withSign s (m * 2 ^ e)
  | _ => 0

/-- The number that a double stands for. -/
def rational (x : Float) : ℚ :=
  unpackedRational x.toModel.unpack

theorem abs_withSign (s : Sign) (r : ℚ) : |withSign s r| = |r| := by
  cases s with
  | negative => exact abs_neg r
  | positive => rfl

theorem withSign_sub (s : Sign) (a b : ℚ) : withSign s a - withSign s b = withSign s (a - b) := by
  cases s with
  | negative => exact neg_sub' a b |>.symm
  | positive => rfl

/-- What rounding to nearest leaves: a whole number of units that lies at most half a unit off. The unit is the least
one there is, or the number has at least the bits of a full mantissa above it. -/
structure NearTo (r v : ℚ) (unit : Int) : Prop where
  least : -1074 ≤ unit
  whole : ∃ n : Int, v = n * 2 ^ unit
  off : |v - r| ≤ 2 ^ unit / 2
  full : unit = -1074 ∨ 2 ^ (52 + unit) ≤ |r|

/-- Rounded to nearest, with a unit that fits. -/
def Near (r v : ℚ) : Prop :=
  ∃ unit, NearTo r v unit

/-- Rounding to nearest treats both signs alike, so most of it is said of positive numbers. -/
theorem NearTo.withSign {r v : ℚ} {unit : Int} (near : NearTo r v unit) (s : Sign) :
    NearTo (withSign s r) (EulerFlow.withSign s v) unit := by
  obtain ⟨n, whole⟩ := near.whole
  refine ⟨near.least, ?_, ?_, ?_⟩
  · cases s with
    | negative => exact ⟨-n, by rw [whole, EulerFlow.withSign]; push_cast; ring⟩
    | positive => exact ⟨n, whole⟩
  · rw [withSign_sub, abs_withSign]
    exact near.off
  · rw [abs_withSign]
    exact near.full

/-- Zero, or a number whose last bit has its place by the rules of rounding. Its exponent may still be too large. -/
inductive Normalized : UnpackedFloat → Prop
  | zero (s : Sign) : Normalized (.zero s)
  | finite {m : Nat} {e : Int} (s : Sign) (positive : 0 < m)
      (target : Format.binary64.targetExponent (totalExponent m e) = e) : Normalized (.finite s m e positive)

/-- A double in parts is what a number is rounded to. -/
structure RoundsTo (r : ℚ) (u : UnpackedFloat) : Prop where
  normalized : Normalized u
  near : Near r (unpackedRational u)

/-- The bits that were shifted out are remembered well enough to tell on which side of the middle a number lies. -/
theorem Approximates.rounded {em : ExtendedMantissa} {y : ℚ} (approximates : Approximates em y) :
    |(em.roundedMantissa : ℚ) - y| ≤ 1 / 2 ∧ em.roundedMantissa ≤ em.mantissa + 1 := by
  cases approximates with
  | @exact m y same =>
    change |(m : ℚ) - y| ≤ 1 / 2 ∧ m ≤ m + 1
    exact ⟨by rw [same]; norm_num, Nat.le_succ m⟩
  | @below m y low high =>
    change |(m : ℚ) - y| ≤ 1 / 2 ∧ m ≤ m + 1
    exact ⟨abs_le.mpr ⟨by linarith, by linarith⟩, Nat.le_succ m⟩
  | @half m y same =>
    change |((m + m % 2 : Nat) : ℚ) - y| ≤ 1 / 2 ∧ m + m % 2 ≤ m + 1
    rcases Nat.mod_two_eq_zero_or_one m with even | odd
    · rw [even, same]
      exact ⟨abs_le.mpr ⟨by push_cast; linarith, by push_cast; linarith⟩, Nat.le_succ m⟩
    · rw [odd, same]
      exact ⟨abs_le.mpr ⟨by push_cast; linarith, by push_cast; linarith⟩, le_rfl⟩
  | @above m y low high =>
    change |((m + 1 : Nat) : ℚ) - y| ≤ 1 / 2 ∧ m + 1 ≤ m + 1
    exact ⟨abs_le.mpr ⟨by push_cast; linarith, by push_cast; linarith⟩, le_rfl⟩

/-- A shifted mantissa has at most the bits of a full one, and all of them above the least unit. -/
theorem Approximates.shifted_bounds {m : Nat} {e : Int} {accuracy : Accuracy} {y : ℚ}
    (approximates : Approximates (.ofMantissaAndAccuracy m accuracy) y)
    (fine : e ≤ Format.binary64.targetExponent (totalExponent m e)) :
    y * 2 ^ e < 2 ^ (53 + Format.binary64.targetExponent (totalExponent m e)) ∧
      (Format.binary64.targetExponent (totalExponent m e) = -1074 ∨
        2 ^ (52 + Format.binary64.targetExponent (totalExponent m e)) ≤ y * 2 ^ e) := by
  rw [targetExponent_eq] at fine ⊢
  rcases Nat.eq_zero_or_pos m with zero | positive
  · have small := approximates.floor.2
    rw [ofMantissaAndAccuracy_mantissa, zero, Nat.cast_zero, zero_add] at small
    rw [zero, totalExponent, Nat.log2_zero] at fine ⊢
    have below : y * 2 ^ e < 2 ^ e := mul_lt_of_lt_one_left (zpow_pos two_pos e) small
    exact ⟨below.trans (two_zpow_lt_iff.mpr (by omega)), .inl (by omega)⟩
  · obtain ⟨low, high⟩ := approximates.order (by rwa [ofMantissaAndAccuracy_mantissa]) e
    rw [ofMantissaAndAccuracy_mantissa] at low high
    refine ⟨high.trans_le (two_zpow_le_iff.mpr (by omega)), ?_⟩
    rcases le_or_gt (totalExponent m e - 53) (-1074) with subnormal | normal
    · exact .inl (max_eq_right subnormal)
    · exact .inr (le_trans (two_zpow_le_iff.mpr (by omega)) low)

/-- The second half of rounding: a mantissa that took one bit too many is shifted once more. -/
def carried (s : Sign) (n : Nat) (t : Int) : UnpackedFloat :=
  let shifted := shiftToTargetExponent .binary64 n t .exact
  if h : shifted.1.mantissa = 0 then .zero s else .finite s shifted.1.mantissa shifted.2 (Nat.pos_of_ne_zero h)

theorem carried_zero {t : Int} (least : -1074 ≤ t) (s : Sign) : carried s 0 t = .zero s := by
  have none : (Format.binary64.targetExponent (totalExponent 0 t) - t).toNat = 0 := by
    rw [targetExponent_eq, totalExponent, Nat.log2_zero]
    omega
  have shifted : shiftToTargetExponent .binary64 0 t .exact = (⟨0, false, false⟩, t) := by
    unfold shiftToTargetExponent shiftToExponent
    simp only [none, Nat.cast_zero, add_zero]
    rfl
  unfold carried
  simp only [shifted]
  rfl

theorem carried_target {n : Nat} {t : Int} (positive : 0 < n)
    (target : Format.binary64.targetExponent (totalExponent n t) = t) (s : Sign) :
    carried s n t = .finite s n t positive := by
  have shifted := shiftToTargetExponent_exact positive target 0
  rw [pow_zero, mul_one, Nat.cast_zero, sub_zero] at shifted
  unfold carried
  simp only [shifted, positive.ne', dite_false]

/-- With one bit too many it is a power of two, of which nothing is lost. -/
theorem carried_power {t : Int}
    (target : Format.binary64.targetExponent (totalExponent (2 ^ 52) (t + 1)) = t + 1) (s : Sign) :
    carried s (2 ^ 53) t = .finite s (2 ^ 52) (t + 1) (by decide) := by
  have shifted := shiftToTargetExponent_exact (by decide) target 1
  rw [Nat.cast_one, add_sub_cancel_right, ← Nat.pow_add] at shifted
  unfold carried
  simp only [shifted]
  rfl

/-- However the mantissa came out, what is left has its last bit in its place. -/
theorem carried_normalized {n : Nat} {t : Int} (bits : n ≤ 2 ^ 53) (least : -1074 ≤ t) (full : t = -1074 ∨ 2 ^ 52 ≤ n)
    (s : Sign) : Normalized (carried s n t) ∧ unpackedRational (carried s n t) = withSign s (n * 2 ^ t) := by
  rcases Nat.eq_zero_or_pos n with rfl | positive
  · rw [carried_zero least, Nat.cast_zero, zero_mul]
    exact ⟨.zero s, by cases s <;> simp [unpackedRational, withSign]⟩
  rcases bits.lt_or_eq with within | rfl
  · have target : Format.binary64.targetExponent (totalExponent n t) = t := by
      have short : n.log2 < 53 := (Nat.log2_lt positive.ne').mpr within
      rw [targetExponent_eq, totalExponent]
      rcases full with subnormal | normal
      · omega
      · have long : 52 ≤ n.log2 := (Nat.le_log2 positive.ne').mpr normal
        omega
    rw [carried_target positive target]
    exact ⟨.finite s positive target, rfl⟩
  · have target : Format.binary64.targetExponent (totalExponent (2 ^ 52) (t + 1)) = t + 1 := by
      rw [targetExponent_eq, totalExponent, Nat.log2_two_pow]
      omega
    rw [carried_power target]
    refine ⟨.finite s _ target, congrArg (withSign s) ?_⟩
    rw [zpow_add_one₀ two_ne_zero]
    push_cast
    ring

theorem roundWithAccuracy_eq_carried {m : Nat} {e t : Int} {accuracy : Accuracy} {em : ExtendedMantissa}
    (shifted : shiftToTargetExponent .binary64 m e accuracy = (em, t)) (s : Sign) :
    roundWithAccuracy .binary64 s m e accuracy = carried s em.roundedMantissa t := by
  unfold roundWithAccuracy carried
  simp only [shifted]

/-- Rounding answers with a number near the one that was meant. -/
theorem roundWithAccuracy_roundsTo {m : Nat} {e : Int} {accuracy : Accuracy} {y : ℚ}
    (approximates : Approximates (.ofMantissaAndAccuracy m accuracy) y)
    (fine : e ≤ Format.binary64.targetExponent (totalExponent m e)) (s : Sign) :
    RoundsTo (withSign s (y * 2 ^ e)) (roundWithAccuracy .binary64 s m e accuracy) := by
  obtain ⟨em, shifted, kept⟩ := shiftToTargetExponent_approximates approximates fine
  obtain ⟨bits, full⟩ := approximates.shifted_bounds fine
  have least : -1074 ≤ Format.binary64.targetExponent (totalExponent m e) := le_max_right _ _
  rw [roundWithAccuracy_eq_carried shifted]
  generalize Format.binary64.targetExponent (totalExponent m e) = t at kept bits full least
  have unit : (0 : ℚ) < 2 ^ t := zpow_pos two_pos t
  obtain ⟨off, carry⟩ := kept.rounded
  have floor := kept.floor.1
  generalize em.roundedMantissa = n at off carry
  have short : n ≤ 2 ^ 53 := by
    have short : (em.mantissa : ℚ) < 2 ^ 53 := by
      rw [zpow_add₀ two_ne_zero, ← div_lt_iff₀ unit] at bits
      exact floor.trans_lt bits
    have short : em.mantissa < 2 ^ 53 := by exact_mod_cast short
    omega
  have long : t = -1074 ∨ 2 ^ 52 ≤ n := by
    refine full.imp_right fun normal => ?_
    rw [zpow_add₀ two_ne_zero, ← le_div_iff₀ unit] at normal
    have long : (2 : ℚ) ^ 52 < n + 1 := by
      have near := (abs_le.mp off).1
      have power : (2 : ℚ) ^ (52 : Int) = 2 ^ 52 := rfl
      linarith
    exact Nat.lt_succ_iff.mp (by exact_mod_cast long)
  obtain ⟨normalized, value⟩ := carried_normalized short least long s
  refine ⟨normalized, t, ?_⟩
  rw [value]
  refine NearTo.withSign ⟨least, ⟨n, by rw [Int.cast_natCast]⟩, ?_, ?_⟩ s
  · have scaled : (n : ℚ) * 2 ^ t - y * 2 ^ e = (n - y * 2 ^ e / 2 ^ t) * 2 ^ t := by
      rw [sub_mul, div_mul_cancel₀ _ unit.ne']
    rw [scaled, abs_mul, abs_of_pos unit]
    linarith [mul_le_mul_of_nonneg_right off unit.le]
  · exact full.imp_right fun normal => normal.trans (le_abs_self _)

/-- A mantissa of any length is rounded to nearest. -/
theorem round_roundsTo (m : Nat) (e : Int) (positive : 0 < m) (s : Sign) :
    RoundsTo (withSign s (m * 2 ^ e)) (UnpackedFloat.round .binary64 s m e) := by
  unfold UnpackedFloat.round decreaseExponent
  simp only
  have bits := log2_mul_two_pow positive (e - Format.binary64.targetExponent (totalExponent m e)).toNat
  generalize shift : (e - Format.binary64.targetExponent (totalExponent m e)).toNat = k at bits ⊢
  have value : (m : ℚ) * 2 ^ e = (m * 2 ^ k : Nat) * 2 ^ (e - k) := by
    push_cast
    rw [zpow_sub₀ two_ne_zero, zpow_natCast]
    field_simp
  have fine : e - k ≤ Format.binary64.targetExponent (totalExponent (m * 2 ^ k) (e - k)) := by
    have same : totalExponent (m * 2 ^ k) (e - k) = totalExponent m e := by
      rw [totalExponent, totalExponent, bits]
      push_cast
      ring
    rw [same]
    omega
  rw [value, Nat.shiftLeft_eq]
  have exact : Approximates (.ofMantissaAndAccuracy (m * 2 ^ k) .exact) (m * 2 ^ k : Nat) := .exact rfl
  exact roundWithAccuracy_roundsTo exact fine s

theorem NearTo.zero : NearTo 0 0 (-1074) :=
  ⟨le_rfl, ⟨0, by simp⟩, by rw [sub_zero, abs_zero]; positivity, .inl rfl⟩

theorem unpackedRational_zero (s : Sign) : unpackedRational (.zero s) = 0 := rfl

theorem RoundsTo.zero (s : Sign) : RoundsTo 0 (.zero s) :=
  ⟨.zero s, -1074, NearTo.zero⟩

/-- A whole number of units is rounded to a double. -/
theorem normalize_roundsTo (m e : Int) : RoundsTo (m * 2 ^ e) (UnpackedFloat.normalize .binary64 m e .positive) := by
  unfold UnpackedFloat.normalize
  split
  · rename_i negative
    have sign := Int.compare_eq_lt.mp negative
    have value : (m : ℚ) * 2 ^ e = withSign .negative ((-m).toNat * 2 ^ e) := by
      have cast : (((-m).toNat : Int) : ℚ) = -m := by
        rw [Int.toNat_of_nonneg (by omega)]
        push_cast
        ring
      rw [withSign, ← Int.cast_natCast, cast]
      ring
    rw [value]
    exact round_roundsTo _ e (by omega) .negative
  · rename_i zero
    rw [Int.compare_eq_eq.mp zero, Int.cast_zero, zero_mul]
    exact .zero _
  · rename_i positive
    have sign := Int.compare_eq_gt.mp positive
    have value : (m : ℚ) * 2 ^ e = withSign .positive (m.toNat * 2 ^ e) := by
      have cast : ((m.toNat : Int) : ℚ) = m := by rw [Int.toNat_of_nonneg (by omega)]
      rw [withSign, ← Int.cast_natCast, cast]
    rw [value]
    exact round_roundsTo _ e (by omega) .positive

/-- The last bit is the lowest that there is, or the mantissa is full. -/
theorem Normalized.least {s : Sign} {m : Nat} {e : Int} {positive : 0 < m}
    (normalized : Normalized (.finite s m e positive)) : -1074 ≤ e ∧ (e = -1074 ∨ 2 ^ 52 ≤ m) := by
  cases normalized with
  | finite _ _ target =>
    rw [targetExponent_eq, totalExponent] at target
    refine ⟨by omega, ?_⟩
    rcases eq_or_ne e (-1074) with least | above
    · exact .inl least
    · have bits : m.log2 = 52 := by omega
      have low := (log2_bounds positive).1
      rw [bits] at low
      exact .inr low

theorem Normalized.short {s : Sign} {m : Nat} {e : Int} {positive : 0 < m}
    (normalized : Normalized (.finite s m e positive)) : m < 2 ^ 53 := by
  cases normalized with
  | finite _ _ target =>
    rw [targetExponent_eq, totalExponent] at target
    exact (Nat.log2_lt positive.ne').mp (by omega)

/-- A double is the one that is nearest to it. -/
theorem Normalized.self {u : UnpackedFloat} (normalized : Normalized u) : RoundsTo (unpackedRational u) u := by
  refine ⟨normalized, ?_⟩
  cases normalized with
  | zero s => exact ⟨-1074, NearTo.zero⟩
  | @finite m e s positive target =>
    obtain ⟨least, full⟩ := (Normalized.finite s positive target).least
    refine ⟨e, NearTo.withSign ⟨least, ⟨m, by rw [Int.cast_natCast]⟩, ?_, ?_⟩ s⟩
    · rw [sub_self, abs_zero]
      positivity
    · refine full.imp_right fun long => ?_
      have long : (2 : ℚ) ^ (52 : Int) ≤ m := by exact_mod_cast long
      rw [zpow_add₀ two_ne_zero]
      exact (mul_le_mul_of_nonneg_right long (zpow_pos two_pos e).le).trans (le_abs_self _)

theorem decreaseExponent_value (s : Sign) (m : Nat) {e t : Int} (below : t ≤ e) :
    withSign s (m * 2 ^ e) = (s.apply (decreaseExponent m e t).1 : Int) * 2 ^ t := by
  have amount : (2 : ℚ) ^ e = 2 ^ (e - t).toNat * 2 ^ t := by
    rw [← zpow_natCast, Int.toNat_of_nonneg (by omega), ← zpow_add₀ two_ne_zero, sub_add_cancel]
  rw [decreaseExponent, Nat.shiftLeft_eq, amount]
  cases s with
  | negative =>
    rw [withSign, Sign.apply]
    push_cast
    ring
  | positive =>
    rw [withSign, Sign.apply]
    push_cast
    ring

/-- A sum is computed exactly, with the smaller exponent for both, and rounded once. -/
theorem add_roundsTo {a b : UnpackedFloat} (left : Normalized a) (right : Normalized b) :
    RoundsTo (unpackedRational a + unpackedRational b) (UnpackedFloat.add .binary64 a b) := by
  cases left with
  | zero s =>
    rw [unpackedRational_zero, zero_add]
    cases right with
    | zero s' =>
      rw [UnpackedFloat.add]
      split
      · exact .zero s
      · exact .zero .positive
    | finite s' positive target => exact (Normalized.finite s' positive target).self
  | @finite m e s positive target =>
    cases right with
    | zero s' =>
      rw [unpackedRational_zero, add_zero]
      exact (Normalized.finite s positive target).self
    | @finite n f s' positive' target' =>
      have sum : unpackedRational (.finite s m e positive) + unpackedRational (.finite s' n f positive') =
          ((s.apply (decreaseExponent m e (min e f)).1 + s'.apply (decreaseExponent n f (min e f)).1 : Int) : ℚ) *
            2 ^ min e f := by
        rw [unpackedRational, unpackedRational, decreaseExponent_value s m (min_le_left e f),
          decreaseExponent_value s' n (min_le_right e f)]
        push_cast
        ring
      rw [sum]
      exact normalize_roundsTo _ _

theorem Normalized.neg {u : UnpackedFloat} (normalized : Normalized u) :
    Normalized u.neg ∧ unpackedRational u.neg = -unpackedRational u := by
  cases normalized with
  | zero s => exact ⟨.zero (-s), neg_zero.symm⟩
  | finite s positive target =>
    refine ⟨.finite (-s) positive target, ?_⟩
    cases s with
    | negative => exact (neg_neg _).symm
    | positive => rfl

theorem sub_eq_add_neg_of {a b : UnpackedFloat} (left : Normalized a) (right : Normalized b) :
    UnpackedFloat.sub .binary64 a b = UnpackedFloat.add .binary64 a b.neg := by
  cases left with
  | zero s => cases right <;> rfl
  | finite s positive target =>
    cases right with
    | zero => rfl
    | finite s' =>
      cases s' with
      | negative => exact congrArg (UnpackedFloat.normalize .binary64 · _ .positive) (sub_neg_eq_add _ _)
      | positive => exact congrArg (UnpackedFloat.normalize .binary64 · _ .positive) (sub_eq_add_neg _ _)

theorem withSign_mul (s s' : Sign) (a b : ℚ) : withSign s a * withSign s' b = withSign (s * s') (a * b) := by
  cases s <;> cases s'
  · exact neg_mul_neg a b
  · exact neg_mul a b
  · exact mul_neg a b
  · rfl

theorem withSign_div (s s' : Sign) (a b : ℚ) : withSign s a / withSign s' b = withSign (s / s') (a / b) := by
  cases s <;> cases s'
  · exact neg_div_neg_eq a b
  · exact neg_div b a
  · exact div_neg a
  · rfl

/-- A product is computed exactly and rounded once. -/
theorem mul_roundsTo {a b : UnpackedFloat} (left : Normalized a) (right : Normalized b) :
    RoundsTo (unpackedRational a * unpackedRational b) (UnpackedFloat.mul .binary64 a b) := by
  cases left with
  | zero s =>
    rw [unpackedRational_zero, zero_mul]
    cases right <;> exact .zero _
  | @finite m e s positive target =>
    cases right with
    | zero s' =>
      rw [unpackedRational_zero, mul_zero]
      exact .zero _
    | @finite n f s' positive' target' =>
      have product : unpackedRational (.finite s m e positive) * unpackedRational (.finite s' n f positive') =
          withSign (s * s') ((m * n : Nat) * 2 ^ (e + f)) := by
        rw [unpackedRational, unpackedRational, withSign_mul, zpow_add₀ two_ne_zero]
        congr 1
        push_cast
        ring
      have fine : e + f ≤ Format.binary64.targetExponent (totalExponent (m * n) (e + f)) := by
        have bits : 0 < m * n := Nat.mul_pos positive positive'
        have bitsLeft : m.log2 ≤ (m * n).log2 :=
          (Nat.le_log2 bits.ne').mpr ((log2_bounds positive).1.trans (Nat.le_mul_of_pos_right m positive'))
        have bitsRight : n.log2 ≤ (m * n).log2 :=
          (Nat.le_log2 bits.ne').mpr ((log2_bounds positive').1.trans (Nat.le_mul_of_pos_left n positive))
        rw [targetExponent_eq, totalExponent] at target target' ⊢
        omega
      have exact : Approximates (.ofMantissaAndAccuracy (m * n) .exact) (m * n : Nat) := .exact rfl
      rw [product]
      exact roundWithAccuracy_roundsTo exact fine (s * s')

/-- A quotient is cut off below the last bit that is kept, and what was cut off still decides the rounding. -/
theorem div_roundsTo {a b : UnpackedFloat} (left : Normalized a) (right : Normalized b)
    (nonzero : unpackedRational b ≠ 0) :
    RoundsTo (unpackedRational a / unpackedRational b) (UnpackedFloat.div .binary64 a b) := by
  cases right with
  | zero s' => exact absurd rfl nonzero
  | @finite n f s' positive' target' =>
    cases left with
    | zero s =>
      rw [unpackedRational_zero, zero_div]
      exact .zero _
    | @finite m e s positive target =>
      obtain ⟨q, g, accuracy, y, quotient, approximates, value, fine⟩ := divCore_approximates positive positive' e f
      have ratio : unpackedRational (.finite s m e positive) / unpackedRational (.finite s' n f positive') =
          withSign (s / s') (y * 2 ^ g) := by
        rw [value, unpackedRational, unpackedRational, withSign_div]
      rw [ratio, UnpackedFloat.div]
      simp only [quotient]
      exact roundWithAccuracy_roundsTo approximates fine (s / s')

/-- Rounding is off by one part in `2 ^ 53` at most, unless the number is so small that the least unit counts. -/
theorem Near.relative {r v : ℚ} (near : Near r v) : |v - r| ≤ |r| / 2 ^ 53 + 2 ^ (-1075 : Int) := by
  obtain ⟨unit, near⟩ := near
  refine near.off.trans ?_
  rcases near.full with least | full
  · have half : (2 : ℚ) ^ unit / 2 = 2 ^ (-1075 : Int) := by
      rw [least, show (-1075 : Int) = -1074 - 1 from rfl, zpow_sub_one₀ two_ne_zero, div_eq_mul_inv]
    rw [half]
    exact le_add_of_nonneg_left (by positivity)
  · have scaled : (2 : ℚ) ^ unit / 2 = 2 ^ (52 + unit) / 2 ^ 53 := by
      rw [zpow_add₀ two_ne_zero, pow_succ]
      have power : (2 : ℚ) ^ (52 : Int) = 2 ^ 52 := rfl
      rw [power]
      field_simp
    rw [scaled]
    exact (div_le_div_of_nonneg_right full (by positivity)).trans (le_add_of_nonneg_right (by positivity))

/-- A whole number of units is kept. -/
theorem NearTo.exact {r v : ℚ} {unit : Int} (near : NearTo r v unit) {n : Int} (units : r = n * 2 ^ unit) : v = r := by
  obtain ⟨m, whole⟩ := near.whole
  have positive : (0 : ℚ) < 2 ^ unit := zpow_pos two_pos unit
  have off := near.off
  rw [whole, units, ← sub_mul, abs_mul, abs_of_pos positive, mul_comm, ← mul_one_div, mul_le_mul_iff_right₀ positive]
    at off
  have apart : |((m - n : Int) : ℚ)| < 1 := by
    push_cast
    linarith
  have none : m - n = 0 := Int.abs_lt_one_iff.mp (by exact_mod_cast apart)
  rw [whole, units, show m = n by omega]

theorem Near.whole {r v : ℚ} (near : Near r v) {n : Int} (whole : r = n) (short : |r| < 2 ^ 53) : v = r := by
  obtain ⟨unit, near⟩ := near
  have fraction : unit ≤ 0 := by
    rcases near.full with least | full
    · omega
    · have order := two_zpow_lt_iff.mp (full.trans_lt (show |r| < 2 ^ (53 : Int) from short))
      omega
  refine near.exact (n := n * 2 ^ (-unit).toNat) ?_
  have power : (2 : ℚ) ^ (-unit).toNat * 2 ^ unit = 1 := by
    rw [← zpow_natCast, Int.toNat_of_nonneg (by omega), ← zpow_add₀ two_ne_zero, neg_add_cancel, zpow_zero]
  push_cast
  rw [mul_assoc, power, mul_one, whole]

/-- A whole number of least units loses nothing to the least unit. -/
theorem Near.relative_of_units {r v : ℚ} (near : Near r v) {n : Int} (units : r = n * 2 ^ (-1074 : Int)) :
    |v - r| ≤ |r| / 2 ^ 53 := by
  obtain ⟨unit, near⟩ := near
  rcases near.full with rfl | full
  · rw [near.exact units, sub_self, abs_zero]
    positivity
  · refine near.off.trans ?_
    rw [div_le_div_iff₀ two_pos (by positivity)]
    rw [zpow_add₀ two_ne_zero] at full
    have power : (2 : ℚ) ^ (52 : Int) = 2 ^ 52 := rfl
    rw [power] at full
    linarith

/-- No other number of units is nearer. -/
theorem NearTo.grid {r v : ℚ} {unit : Int} (near : NearTo r v unit) (n : Int) : |v - r| ≤ |n * 2 ^ unit - r| := by
  obtain ⟨m, whole⟩ := near.whole
  have positive : (0 : ℚ) < 2 ^ unit := zpow_pos two_pos unit
  rcases eq_or_ne n m with rfl | other
  · rw [whole]
  · have apart : (2 : ℚ) ^ unit ≤ |n * 2 ^ unit - v| := by
      have step : (1 : ℚ) ≤ |((n - m : Int) : ℚ)| := by exact_mod_cast Int.one_le_abs (sub_ne_zero.mpr other)
      rw [whole, ← sub_mul, abs_mul, abs_of_pos positive, ← Int.cast_sub]
      exact le_mul_of_one_le_left positive.le step
    have way := abs_sub_le ((n : ℚ) * 2 ^ unit) r v
    rw [abs_sub_comm r v] at way
    linarith [near.off]

/-- No other double is nearer. -/
theorem Near.nearest {r v : ℚ} (near : Near r v) {u : UnpackedFloat} (normalized : Normalized u) :
    |v - r| ≤ |unpackedRational u - r| := by
  obtain ⟨unit, near⟩ := near
  cases normalized with
  | zero s =>
    have zero := near.grid 0
    rwa [Int.cast_zero, zero_mul] at zero
  | @finite m e s positive target =>
    have parts := Normalized.finite s positive target
    rcases le_or_gt unit e with coarse | fine
    · have value : unpackedRational (.finite s m e positive) = _ := decreaseExponent_value s m coarse
      rw [value]
      exact near.grid _
    -- a finer double lies below the least full mantissa, which is between it and the number
    · have full := near.full.resolve_left (by have := parts.least.1; omega)
      have below : |unpackedRational (.finite s m e positive)| ≤ 2 ^ (52 + unit) := by
        have short : (m : ℚ) ≤ 2 ^ (53 : Int) := by exact_mod_cast parts.short.le
        rw [unpackedRational, abs_withSign, abs_of_nonneg (by positivity)]
        calc (m : ℚ) * 2 ^ e
          _ ≤ 2 ^ (53 : Int) * 2 ^ e := mul_le_mul_of_nonneg_right short (zpow_pos two_pos e).le
          _ = 2 ^ (53 + e) := (zpow_add₀ two_ne_zero _ _).symm
          _ ≤ 2 ^ (52 + unit) := two_zpow_le_iff.mpr (by omega)
      have power : (2 : ℚ) ^ (52 + unit) = (2 ^ 52 : Int) * 2 ^ unit := by
        rw [zpow_add₀ two_ne_zero]
        norm_cast
      obtain ⟨low, high⟩ := abs_le.mp below
      rcases le_total 0 r with nonnegative | nonpositive
      · rw [abs_of_nonneg nonnegative] at full
        have edge := near.grid (2 ^ 52)
        rw [← power, abs_of_nonpos (by linarith : (2 : ℚ) ^ (52 + unit) - r ≤ 0)] at edge
        rw [abs_of_nonpos (by linarith : unpackedRational (.finite s m e positive) - r ≤ 0)]
        linarith
      · rw [abs_of_nonpos nonpositive] at full
        have edge := near.grid (-2 ^ 52)
        rw [Int.cast_neg, neg_mul, ← power, abs_of_nonneg (by linarith : (0 : ℚ) ≤ -2 ^ (52 + unit) - r)] at edge
        rw [abs_of_nonneg (by linarith : 0 ≤ unpackedRational (.finite s m e positive) - r)]
        linarith

theorem Normalized.units {u : UnpackedFloat} (normalized : Normalized u) :
    ∃ n : Int, unpackedRational u = n * 2 ^ (-1074 : Int) := by
  cases normalized with
  | zero s => exact ⟨0, by simp [unpackedRational]⟩
  | @finite m e s positive target =>
    obtain ⟨least, _⟩ := (Normalized.finite s positive target).least
    exact ⟨_, decreaseExponent_value s m least⟩

theorem unpack_normalized {x : Float} (finite : x.isFinite) : Normalized x.toModel.unpack := by
  change x.toModel.unpack.isFinite = true at finite
  cases unpacked : x.toModel.unpack with
  | infinity s =>
    rw [unpacked] at finite
    cases finite
  | notANumber =>
    rw [unpacked] at finite
    cases finite
  | zero s => exact .zero s
  | finite s m e positive =>
    obtain ⟨canonical, rfl, rfl⟩ := Decimal.Binary.ofBits_canonical unpacked
    exact .finite s canonical.positive canonical.target

/-- What an operation on doubles makes of the exact result. -/
inductive Rounds (r : ℚ) (x : Float) : Prop
  | finite (isFinite : x.isFinite) (near : Near r (rational x))
  | high (infinite : x.toModel.unpack = .infinity .positive) (large : 2 ^ 1023 ≤ r)
  | low (infinite : x.toModel.unpack = .infinity .negative) (large : r ≤ -2 ^ 1023)

theorem Rounds.near {r : ℚ} {x : Float} (rounds : Rounds r x) (finite : x.isFinite) : Near r (rational x) := by
  change x.toModel.unpack.isFinite = true at finite
  cases rounds with
  | finite _ near => exact near
  | high infinite =>
    rw [infinite] at finite
    cases finite
  | low infinite =>
    rw [infinite] at finite
    cases finite

/-- A result that is not large does not overflow. -/
theorem Rounds.isFinite {r : ℚ} {x : Float} (rounds : Rounds r x) (small : |r| < 2 ^ 1023) : x.isFinite := by
  obtain ⟨low, high⟩ := abs_lt.mp small
  cases rounds with
  | finite finite _ => exact finite
  | high _ large => exact absurd high (not_lt.mpr large)
  | low _ large => exact absurd low (not_lt.mpr large)

theorem Near.of_large {r v : ℚ} (near : Near r v) :
    (2 ^ 1024 ≤ v → 2 ^ 1023 ≤ r) ∧ (v ≤ -2 ^ 1024 → r ≤ -2 ^ 1023) := by
  obtain ⟨below, above⟩ := abs_le.mp near.relative
  have tiny : (2 : ℚ) ^ (-1075 : Int) ≤ 1 := zpow_le_one_of_nonpos₀ one_le_two (by decide)
  have large : (2 : ℚ) ≤ 2 ^ 1023 := le_self_pow₀ one_le_two (by decide)
  have double : (2 : ℚ) ^ 1024 = 2 * 2 ^ 1023 := pow_succ' 2 1023
  rw [double]
  generalize (2 : ℚ) ^ 1023 = p at large
  rcases abs_cases r with ⟨size, sign⟩ | ⟨size, sign⟩
  · rw [size] at below above
    constructor
    · intro high
      linarith
    · intro low
      linarith
  · rw [size] at below above
    constructor
    · intro high
      linarith
    · intro low
      linarith

/-- What is too large for its exponent to be packed becomes an infinity. -/
theorem unpack_pack_beyond {m : Nat} {e : Int} (positive : 0 < m) (beyond : 971 < e) (s : Sign) :
    UnpackedFloat.unpack .binary64 (UnpackedFloat.pack .binary64 (.finite s m e positive)) = .infinity s := by
  have bias : (Format.binary64.exponentBias : Int) = 1023 := rfl
  have bits : (Format.binary64.mantissaBitsWithoutImplicit : Int) = 52 := rfl
  have full : 2 ^ Format.binary64.exponentBits ≤ (e + 1023 + 52).toNat + 1 := by
    change 2048 ≤ _
    omega
  rw [UnpackedFloat.pack, bias, bits, if_pos full]
  simp [UnpackedFloat.unpack, packedInfinity]

/-- Packing makes an infinity of an exponent that is too large, and keeps everything else. -/
theorem RoundsTo.pack {r : ℚ} {u : UnpackedFloat} (rounds : RoundsTo r u) : Rounds r (.ofModel (.pack u)) := by
  obtain ⟨normalized, near⟩ := rounds
  cases normalized with
  | zero s =>
    have same : UnpackedFloat.unpack .binary64 (UnpackedFloat.pack .binary64 (.zero s)) = .zero s := by
      simp [UnpackedFloat.unpack, UnpackedFloat.pack, packedZero]
    refine .finite ?_ ?_
    · change (UnpackedFloat.unpack .binary64 (UnpackedFloat.pack .binary64 (.zero s))).isFinite = true
      rw [same]
      rfl
    · change Near r (unpackedRational (UnpackedFloat.unpack .binary64 (UnpackedFloat.pack .binary64 (.zero s))))
      rwa [same]
  | @finite m e s positive target =>
    rcases le_or_gt e 971 with within | beyond
    · have same := unpack_pack positive target within s
      refine .finite ?_ ?_
      · change (UnpackedFloat.unpack .binary64 (UnpackedFloat.pack .binary64 (.finite s m e positive))).isFinite = true
        rw [same]
        rfl
      · change Near r (unpackedRational (UnpackedFloat.unpack .binary64
          (UnpackedFloat.pack .binary64 (.finite s m e positive))))
        rwa [same]
    · have infinite := unpack_pack_beyond positive beyond s
      obtain ⟨least, full⟩ := (Normalized.finite s positive target).least
      have long : (2 : ℚ) ^ 1024 ≤ m * 2 ^ e := by
        have mantissa : (2 : ℚ) ^ (52 : Int) ≤ m := by exact_mod_cast full.resolve_left (by omega)
        have scale : (2 : ℚ) ^ (972 : Int) ≤ 2 ^ e := two_zpow_le_iff.mpr beyond
        calc (2 : ℚ) ^ 1024
          _ = 2 ^ (52 : Int) * 2 ^ (972 : Int) := by
            rw [← zpow_add₀ two_ne_zero]
            rfl
          _ ≤ m * 2 ^ e := mul_le_mul mantissa scale (zpow_pos two_pos _).le (Nat.cast_nonneg m)
      cases s with
      | positive => exact .high infinite (near.of_large.1 long)
      | negative => exact .low infinite (near.of_large.2 (neg_le_neg long))

theorem unpack_neg (x : Float) : (-x).toModel.unpack = x.toModel.unpack.neg := by
  change UnpackedFloat.unpack .binary64 (UnpackedFloat.pack .binary64 x.toModel.unpack.neg) = _
  cases unpacked : x.toModel.unpack with
  | notANumber => rfl
  | infinity s => simp [UnpackedFloat.neg, UnpackedFloat.unpack, UnpackedFloat.pack, packedInfinity]
  | zero s => simp [UnpackedFloat.neg, UnpackedFloat.unpack, UnpackedFloat.pack, packedZero]
  | finite s m e h =>
    obtain ⟨canonical, rfl, rfl⟩ := Decimal.Binary.ofBits_canonical unpacked
    exact unpack_pack canonical.positive canonical.target canonical.bound (-s)

section

variable {x y : Float} (left : x.isFinite) (right : y.isFinite)

include left

theorem rational_units : ∃ n : Int, rational x = n * 2 ^ (-1074 : Int) :=
  (unpack_normalized left).units

include right

/-- What holds of doubles in parts holds of doubles: their sum is the exact sum, rounded. -/
theorem add_rounds : Rounds (rational x + rational y) (x + y) :=
  (add_roundsTo (unpack_normalized left) (unpack_normalized right)).pack

theorem sub_rounds : Rounds (rational x - rational y) (x - y) := by
  obtain ⟨normalized, value⟩ := (unpack_normalized right).neg
  have sum := add_roundsTo (unpack_normalized left) normalized
  rw [value, ← sub_eq_add_neg_of (unpack_normalized left) (unpack_normalized right), ← sub_eq_add_neg] at sum
  exact sum.pack

theorem mul_rounds : Rounds (rational x * rational y) (x * y) :=
  (mul_roundsTo (unpack_normalized left) (unpack_normalized right)).pack

theorem div_rounds (nonzero : rational y ≠ 0) : Rounds (rational x / rational y) (x / y) :=
  (div_roundsTo (unpack_normalized left) (unpack_normalized right) nonzero).pack

/-- A sum has no error where it is small, since doubles are whole multiples of the least one; so the error is
relative. -/
theorem add_relative (finite : (x + y).isFinite) :
    |rational (x + y) - (rational x + rational y)| ≤ |rational x + rational y| / 2 ^ 53 := by
  obtain ⟨n, units⟩ := rational_units left
  obtain ⟨m, units'⟩ := rational_units right
  refine ((add_rounds left right).near finite).relative_of_units (n := n + m) ?_
  rw [units, units', Int.cast_add, add_mul]

theorem sub_relative (finite : (x - y).isFinite) :
    |rational (x - y) - (rational x - rational y)| ≤ |rational x - rational y| / 2 ^ 53 := by
  obtain ⟨n, units⟩ := rational_units left
  obtain ⟨m, units'⟩ := rational_units right
  refine ((sub_rounds left right).near finite).relative_of_units (n := n - m) ?_
  rw [units, units', Int.cast_sub, sub_mul]

end

end EulerFlow
