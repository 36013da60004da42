import EulerFlow.Proofs.RoundedDouble
import EulerFlow.Run.Horizon

namespace EulerFlow

open Float.Model Float.Model.UnpackedFloat

theorem rational_bound {x : Float} (finite : x.isFinite) : |rational x| < 2 ^ 1024 := by
  have normalized := unpack_normalized finite
  unfold rational
  cases unpacked : x.toModel.unpack with
  | infinity s =>
    rw [unpacked] at normalized
    cases normalized
  | notANumber =>
    rw [unpacked] at normalized
    cases normalized
  | zero s =>
    rw [unpackedRational_zero, abs_zero]
    positivity
  | finite s m e positive =>
    obtain ⟨canonical, rfl, rfl⟩ := Decimal.Binary.ofBits_canonical unpacked
    rw [unpackedRational, abs_withSign, abs_of_nonneg (by positivity)]
    exact (Decimal.Binary.Attracts.range canonical (Decimal.Binary.attracts_self _)).2

/-- Of two sizes with full mantissas the one with the larger exponent is larger. -/
theorem Normalized.below {s s' : Sign} {m n : Nat} {e f : Int} {positive : 0 < m} {positive' : 0 < n}
    (left : Normalized (.finite s m e positive)) (right : Normalized (.finite s' n f positive')) (less : e < f) :
    (m : ℚ) * 2 ^ e < n * 2 ^ f := by
  have short : (m : ℚ) < 2 ^ (53 : Int) := by exact_mod_cast left.short
  have long : (2 : ℚ) ^ (52 : Int) ≤ n := by exact_mod_cast right.least.2.resolve_left (by have := left.least.1; omega)
  calc (m : ℚ) * 2 ^ e
    _ < 2 ^ (53 : Int) * 2 ^ e := mul_lt_mul_of_pos_right short (zpow_pos two_pos e)
    _ = 2 ^ (53 + e) := (zpow_add₀ two_ne_zero _ _).symm
    _ ≤ 2 ^ (52 + f) := two_zpow_le_iff.mpr (by omega)
    _ = 2 ^ (52 : Int) * 2 ^ f := zpow_add₀ two_ne_zero _ _
    _ ≤ n * 2 ^ f := mul_le_mul_of_nonneg_right long (zpow_pos two_pos f).le

theorem compare_magnitudes {s s' : Sign} {m n : Nat} {e f : Int} {positive : 0 < m} {positive' : 0 < n}
    (left : Normalized (.finite s m e positive)) (right : Normalized (.finite s' n f positive')) :
    (compare e f).then (compare m n) = compare ((m : ℚ) * 2 ^ e) (n * 2 ^ f) := by
  rcases lt_trichotomy e f with less | rfl | greater
  · rw [compare_lt_iff_lt.mpr less, compare_lt_iff_lt.mpr (left.below right less)]
    rfl
  · have unit : (0 : ℚ) < 2 ^ e := zpow_pos two_pos e
    rw [compare_eq_iff_eq.mpr rfl]
    change compare m n = _
    rcases lt_trichotomy m n with less | rfl | greater
    · rw [compare_lt_iff_lt.mpr less, compare_lt_iff_lt.mpr (mul_lt_mul_of_pos_right (Nat.cast_lt.mpr less) unit)]
    · rw [compare_eq_iff_eq.mpr rfl, compare_eq_iff_eq.mpr rfl]
    · rw [compare_gt_iff_gt.mpr greater,
        compare_gt_iff_gt.mpr (mul_lt_mul_of_pos_right (Nat.cast_lt.mpr greater) unit)]
  · rw [compare_gt_iff_gt.mpr greater, compare_gt_iff_gt.mpr (right.below left greater)]
    rfl

theorem compare_swap_neg (a b : ℚ) : (compare a b).swap = compare (-a) (-b) := by
  rcases lt_trichotomy a b with less | rfl | greater
  · rw [compare_lt_iff_lt.mpr less, compare_gt_iff_gt.mpr (neg_lt_neg less)]
    rfl
  · rw [compare_eq_iff_eq.mpr rfl, compare_eq_iff_eq.mpr rfl]
    rfl
  · rw [compare_gt_iff_gt.mpr greater, compare_lt_iff_lt.mpr (neg_lt_neg greater)]
    rfl

/-- Doubles that are taken apart are compared as the numbers that they stand for. -/
theorem compare_normalized {a b : UnpackedFloat} (left : Normalized a) (right : Normalized b) :
    UnpackedFloat.compare a b = some (compare (unpackedRational a) (unpackedRational b)) := by
  have size {m : Nat} {e : Int} (positive : 0 < m) : (0 : ℚ) < m * 2 ^ e :=
    mul_pos (Nat.cast_pos.mpr positive) (zpow_pos two_pos e)
  cases left with
  | zero s =>
    rw [unpackedRational_zero]
    cases right with
    | zero s' => exact congrArg some (compare_eq_iff_eq.mpr rfl).symm
    | finite s' positive' target' =>
      cases s' with
      | negative => exact congrArg some (compare_gt_iff_gt.mpr (neg_neg_of_pos (size positive'))).symm
      | positive => exact congrArg some (compare_lt_iff_lt.mpr (size positive')).symm
  | finite s positive target =>
    cases right with
    | zero s' =>
      rw [unpackedRational_zero]
      cases s with
      | negative => exact congrArg some (compare_lt_iff_lt.mpr (neg_neg_of_pos (size positive))).symm
      | positive => exact congrArg some (compare_gt_iff_gt.mpr (size positive)).symm
    | finite s' positive' target' =>
      have magnitudes := compare_magnitudes (.finite s positive target) (.finite s' positive' target')
      cases s with
      | negative =>
        cases s' with
        | negative =>
          rw [UnpackedFloat.compare, magnitudes, compare_swap_neg]
          rfl
        | positive =>
          exact congrArg some (compare_lt_iff_lt.mpr ((neg_neg_of_pos (size positive)).trans (size positive'))).symm
      | positive =>
        cases s' with
        | negative =>
          exact congrArg some (compare_gt_iff_gt.mpr ((neg_neg_of_pos (size positive')).trans (size positive))).symm
        | positive =>
          rw [UnpackedFloat.compare, magnitudes]
          rfl

section

variable {x y : Float} (left : x.isFinite) (right : y.isFinite)

include left right

theorem lt_iff_rational : x < y ↔ rational x < rational y := by
  change decide (UnpackedFloat.lt x.toModel.unpack y.toModel.unpack = true) = true ↔ _
  rw [decide_eq_true_iff, UnpackedFloat.lt, compare_normalized (unpack_normalized left) (unpack_normalized right)]
  exact beq_iff_eq.trans ((Option.some_inj).trans compare_lt_iff_lt)

theorem le_iff_rational : x ≤ y ↔ rational x ≤ rational y := by
  change decide (UnpackedFloat.le x.toModel.unpack y.toModel.unpack = true) = true ↔ _
  rw [decide_eq_true_iff, UnpackedFloat.le, compare_normalized (unpack_normalized left) (unpack_normalized right)]
  exact Ordering.isLE_iff_ne_gt.trans compare_le_iff_le

end

/-- A double without the fraction is a whole number, and none below zero and none too large to fit. -/
theorem roundToInt_eq (s : Sign) (m : Nat) (e : Int) : roundToInt s m e = s.apply ⌊(m : ℚ) * 2 ^ e⌋₊ := by
  have value : (m : ℚ) * 2 ^ e = (m * 2 ^ e.toNat : Nat) / 2 ^ (-e).toNat := by
    rw [eq_div_iff (pow_pos two_pos _).ne', mul_assoc, ← zpow_toNat two_ne_zero]
    push_cast
    rfl
  have whole : Approximates (.ofMantissaAndAccuracy (m * 2 ^ e.toNat) .exact) (m * 2 ^ e.toNat : Nat) := .exact rfl
  have shifted := whole.shiftRight (-e).toNat
  obtain ⟨low, high⟩ := shifted.floor
  unfold roundToInt decreaseExponent shiftToExponent
  simp only [sub_zero, Nat.shiftLeft_eq]
  have amount : (0 - (e - e.toNat)).toNat = (-e).toNat := by omega
  rw [amount, value, (Nat.floor_eq_iff (by positivity)).mpr ⟨low, high⟩]

theorem ofNatClamp_toNat (n : Nat) : (UInt64.ofNatClamp n).toNat = min n (2 ^ 64 - 1) := by
  unfold UInt64.ofNatClamp
  split
  · rename_i fits
    change n < 2 ^ 64 at fits
    rw [min_eq_left (by omega)]
    rfl
  · rename_i large
    change ¬ n < 2 ^ 64 at large
    rw [min_eq_right (by omega)]
    rfl

theorem toUInt64_toNat {x : Float} (finite : x.isFinite) : x.toUInt64.toNat = min ⌊rational x⌋₊ (2 ^ 64 - 1) := by
  have normalized := unpack_normalized finite
  change (UInt64.ofNatClamp (x.toModel.unpack.toInt 0 (UInt64.size - 1)).toNat).toNat = _
  rw [ofNatClamp_toNat, rational]
  congr 1
  generalize x.toModel.unpack = u at normalized ⊢
  cases normalized with
  | zero s => exact Nat.floor_zero.symm
  | @finite m e s positive target =>
    rw [UnpackedFloat.toInt, roundToInt_eq, unpackedRational]
    cases s with
    | negative =>
      have below : -((m : ℚ) * 2 ^ e) ≤ 0 := neg_nonpos.mpr (by positivity)
      rw [withSign, Nat.floor_of_nonpos below, Sign.apply, Int.toNat_neg_natCast]
    | positive => exact Int.toNat_natCast _

/-- A whole number with at most the bits of a mantissa is a double. -/
theorem toFloat_rational {n : Nat} (short : n < 2 ^ 53) :
    n.toUInt64.toFloat.isFinite ∧ rational n.toUInt64.toFloat = n := by
  rcases Nat.eq_zero_or_pos n with rfl | positive
  · exact ⟨rfl, by rw [Nat.cast_zero]; rfl⟩
  · obtain ⟨m, e, h, unpacked, value, _⟩ := whole_unpack positive short
    constructor
    · change n.toUInt64.toFloat.toModel.unpack.isFinite = true
      rw [unpacked]
      rfl
    · rw [rational, unpacked, ← value]
      rfl

theorem neg_rational {x : Float} (finite : x.isFinite) : (-x).isFinite ∧ rational (-x) = -rational x := by
  have normalized := unpack_normalized finite
  obtain ⟨negated, value⟩ := normalized.neg
  change (-x).toModel.unpack.isFinite = true ∧ unpackedRational (-x).toModel.unpack = -unpackedRational x.toModel.unpack
  rw [unpack_neg, value]
  generalize x.toModel.unpack = u at normalized
  exact ⟨by cases normalized <;> rfl, rfl⟩

theorem abs_rational {x : Float} (finite : x.isFinite) : x.abs.isFinite ∧ rational x.abs = |rational x| := by
  have normalized := unpack_normalized finite
  change x.abs.toModel.unpack.isFinite = true ∧
    unpackedRational x.abs.toModel.unpack = |unpackedRational x.toModel.unpack|
  rw [unpack_abs]
  generalize x.toModel.unpack = u at normalized
  cases normalized with
  | zero s => exact ⟨rfl, abs_zero.symm⟩
  | @finite m e s positive target =>
    have nonnegative : (0 : ℚ) ≤ m * 2 ^ e := by positivity
    refine ⟨rfl, ?_⟩
    change (m : ℚ) * 2 ^ e = |withSign s (m * 2 ^ e)|
    rw [abs_withSign, abs_of_nonneg nonnegative]

theorem zero_rational : (0 : Float).isFinite ∧ rational 0 = 0 :=
  ⟨rfl, rfl⟩

theorem one_rational : (1 : Float).isFinite ∧ rational 1 = 1 := by
  refine ⟨rfl, ?_⟩
  change ((2 ^ 52 : Nat) : ℚ) * 2 ^ (-52 : Int) = 1
  norm_num

theorem ofNat_rational {n : Nat} (short : n < 2 ^ 53) : (Float.ofNat n).isFinite ∧ rational (Float.ofNat n) = n := by
  have same : Float.ofNat n = n.toUInt64.toFloat * 1 := by
    change Float.ofScientific n false 0 = _
    rw [Float.ofScientific, dif_pos ⟨short, by decide⟩]
    rfl
  obtain ⟨wholeFinite, whole⟩ := toFloat_rational short
  have rounds := mul_rounds wholeFinite one_rational.1
  rw [whole, one_rational.2, mul_one, ← same] at rounds
  have size : |(n : ℚ)| < 2 ^ 53 := by
    rw [abs_of_nonneg (Nat.cast_nonneg n)]
    exact_mod_cast short
  have finite := rounds.isFinite (size.trans (pow_lt_pow_right₀ one_lt_two (by decide)))
  exact ⟨finite, (rounds.near finite).whole (n := n) (Int.cast_natCast n).symm size⟩

/-- A multiple of a double is off by one part in `2 ^ 53` at most. -/
theorem ofNat_mul_relative {n : Nat} (short : n < 2 ^ 53) {x : Float} (unit : x.isFinite)
    (finite : (Float.ofNat n * x).isFinite) :
    |rational (Float.ofNat n * x) - n * rational x| ≤ |n * rational x| / 2 ^ 53 := by
  obtain ⟨countFinite, count⟩ := ofNat_rational short
  have near := (mul_rounds countFinite unit).near finite
  rw [count] at near
  obtain ⟨units, whole⟩ := rational_units unit
  exact near.relative_of_units (n := n * units) (by rw [whole, Int.cast_mul, Int.cast_natCast, mul_assoc])

theorem two_pow_52_rational : (4503599627370496 : Float).isFinite ∧ rational 4503599627370496 = 2 ^ 52 := by
  refine ⟨rfl, ?_⟩
  change ((2 ^ 52 : Nat) : ℚ) * 2 ^ (0 : Int) = 2 ^ 52
  norm_num

/-- Nothing that is large enough has a fraction. -/
theorem rational_whole {x : Float} (finite : x.isFinite) (large : 2 ^ 52 ≤ |rational x|) :
    ∃ n : Int, rational x = n := by
  have normalized := unpack_normalized finite
  unfold rational at large ⊢
  generalize x.toModel.unpack = u at normalized large ⊢
  cases normalized with
  | zero s => exact ⟨0, Int.cast_zero.symm⟩
  | @finite m e s positive target =>
    have short : (m : ℚ) < 2 ^ (53 : Int) := by exact_mod_cast (Normalized.finite s positive target).short
    rw [unpackedRational, abs_withSign, abs_of_nonneg (by positivity)] at large
    have order : (2 : ℚ) ^ (52 : Int) < 2 ^ (53 + e) := by
      rw [zpow_add₀ two_ne_zero]
      exact large.trans_lt (mul_lt_mul_of_pos_right short (zpow_pos two_pos e))
    have whole := two_zpow_lt_iff.mp order
    have value := decreaseExponent_value s m (show 0 ≤ e by omega)
    rw [zpow_zero, mul_one] at value
    exact ⟨_, value⟩

theorem toUInt64_toFloat {x : Float} (finite : x.isFinite) (short : rational x < 2 ^ 53) :
    x.toUInt64.toFloat.isFinite ∧ rational x.toUInt64.toFloat = ⌊rational x⌋₊ := by
  have below : ⌊rational x⌋₊ < 2 ^ 53 := by
    rw [Nat.floor_lt' (by decide)]
    exact_mod_cast short
  have same : x.toUInt64 = ⌊rational x⌋₊.toUInt64 := by
    rw [← UInt64.toNat_inj, toUInt64_toNat finite, min_eq_left (by omega)]
    exact (Nat.mod_eq_of_lt (below.trans (by decide))).symm
  rw [same]
  exact toFloat_rational below

/-- Whole numbers are added without loss as long as the bits of a mantissa suffice. -/
theorem add_whole {x y : Float} (left : x.isFinite) (right : y.isFinite) {n : Int}
    (sum : rational x + rational y = n) (short : |(n : ℚ)| < 2 ^ 53) :
    (x + y).isFinite ∧ rational (x + y) = n := by
  have rounds := add_rounds left right
  rw [sum] at rounds
  have finite := rounds.isFinite (short.trans (pow_lt_pow_right₀ one_lt_two (by decide)))
  exact ⟨finite, (rounds.near finite).whole rfl short⟩

/-- Below zero the fraction is cut off on the wrong side. -/
theorem wholeBelow_negative {x : Float} (finite : x.isFinite) (negative : rational x < 0)
    (small : -rational x < 2 ^ 52) :
    let whole := x.abs.toUInt64.toFloat
    let below := if whole < x.abs then -(whole + 1) else -whole
    below.isFinite ∧ rational below = ⌊rational x⌋ := by
  intro whole below
  obtain ⟨sizeFinite, size⟩ := abs_rational finite
  rw [abs_of_neg negative] at size
  obtain ⟨wholeFinite, cut⟩ := toUInt64_toFloat sizeFinite (by rw [size]; linarith)
  rw [size] at cut
  change whole.isFinite at wholeFinite
  change rational whole = _ at cut
  have low : (⌊-rational x⌋₊ : ℚ) ≤ -rational x := Nat.floor_le (by linarith)
  have high : -rational x < ⌊-rational x⌋₊ + 1 := Nat.lt_floor_add_one _
  generalize ⌊-rational x⌋₊ = n at cut low high
  have order : whole < x.abs ↔ _ := lt_iff_rational wholeFinite sizeFinite
  rw [cut, size] at order
  by_cases fraction : whole < x.abs
  · rw [show below = -(whole + 1) from if_pos fraction]
    have sum : rational whole + rational 1 = ((n + 1 : Int) : ℚ) := by
      rw [cut, one_rational.2]
      push_cast
      rfl
    have short : |((n + 1 : Int) : ℚ)| < 2 ^ 53 := by
      push_cast
      rw [abs_of_nonneg (by positivity)]
      linarith
    obtain ⟨nextFinite, next⟩ := add_whole wholeFinite one_rational.1 sum short
    obtain ⟨negFinite, negated⟩ := neg_rational nextFinite
    have floor : ⌊rational x⌋ = -(n + 1 : Int) := by
      rw [Int.floor_eq_iff]
      push_cast
      exact ⟨by linarith, by linarith [order.mp fraction]⟩
    rw [negated, next, floor, Int.cast_neg]
    exact ⟨negFinite, rfl⟩
  · rw [show below = -whole from if_neg fraction]
    obtain ⟨negFinite, negated⟩ := neg_rational wholeFinite
    have same : rational x = ((-n : Int) : ℚ) := by
      push_cast
      linarith [not_lt.mp (order.not.mp fraction)]
    rw [negated, cut, same, Int.floor_intCast, Int.cast_neg, Int.cast_natCast]
    exact ⟨negFinite, rfl⟩

/-- Below `2 ^ 52` the fraction is cut off, and from there on there is none. -/
theorem wholeBelow_rational {x : Float} (finite : x.isFinite) :
    (wholeBelow x).isFinite ∧ rational (wholeBelow x) = ⌊rational x⌋ := by
  obtain ⟨sizeFinite, size⟩ := abs_rational finite
  unfold wholeBelow
  simp only
  split
  · rename_i small
    rw [lt_iff_rational sizeFinite two_pow_52_rational.1, size, two_pow_52_rational.2] at small
    split
    · rename_i nonnegative
      rw [le_iff_rational zero_rational.1 finite, zero_rational.2] at nonnegative
      rw [abs_of_nonneg nonnegative] at size small
      obtain ⟨wholeFinite, whole⟩ := toUInt64_toFloat sizeFinite (by rw [size]; linarith)
      rw [size] at whole
      exact ⟨wholeFinite, whole.trans (natCast_floor_eq_intCast_floor nonnegative)⟩
    · rename_i negative
      rw [le_iff_rational zero_rational.1 finite, zero_rational.2, not_le] at negative
      rw [abs_of_neg negative] at small
      exact wholeBelow_negative finite negative small
  · rename_i large
    rw [lt_iff_rational sizeFinite two_pow_52_rational.1, size, two_pow_52_rational.2, not_lt] at large
    obtain ⟨n, whole⟩ := rational_whole finite large
    refine ⟨finite, ?_⟩
    rw [whole, Int.floor_intCast]

theorem wholeAbove_rational {x : Float} (finite : x.isFinite) :
    (wholeAbove x).isFinite ∧ rational (wholeAbove x) = ⌈rational x⌉ := by
  obtain ⟨negFinite, negated⟩ := neg_rational finite
  obtain ⟨belowFinite, below⟩ := wholeBelow_rational negFinite
  obtain ⟨aboveFinite, above⟩ := neg_rational belowFinite
  refine ⟨aboveFinite, ?_⟩
  rw [wholeAbove, above, below, negated, Int.floor_neg]
  push_cast
  ring

/-- Packing makes infinities, but takes none back. -/
theorem isFinite_of_pack {u : UnpackedFloat}
    (finite : (UnpackedFloat.unpack .binary64 (UnpackedFloat.pack .binary64 u)).isFinite) : u.isFinite := by
  cases u with
  | zero s => rfl
  | finite s m e positive => rfl
  | infinity s => simp [UnpackedFloat.unpack, UnpackedFloat.pack, packedInfinity, UnpackedFloat.isFinite] at finite
  | notANumber => simp [UnpackedFloat.unpack, UnpackedFloat.pack, packedNaN, UnpackedFloat.isFinite] at finite

theorem isFinite_of_add {a b : UnpackedFloat} (finite : (UnpackedFloat.add .binary64 a b).isFinite) :
    a.isFinite ∧ b.isFinite := by
  cases a <;> cases b <;> grind [UnpackedFloat.add, UnpackedFloat.isFinite]

theorem isFinite_of_sub {a b : UnpackedFloat} (finite : (UnpackedFloat.sub .binary64 a b).isFinite) :
    a.isFinite ∧ b.isFinite := by
  cases a <;> cases b <;> grind [UnpackedFloat.sub, UnpackedFloat.isFinite]

theorem isFinite_of_div {a b : UnpackedFloat} (divisor : b.isFinite)
    (finite : (UnpackedFloat.div .binary64 a b).isFinite) : a.isFinite := by
  cases a <;> cases b <;> grind [UnpackedFloat.div, UnpackedFloat.isFinite]

theorem finite_of_add {x y : Float} (finite : (x + y).isFinite) : x.isFinite ∧ y.isFinite :=
  isFinite_of_add (isFinite_of_pack finite)

theorem finite_of_sub {x y : Float} (finite : (x - y).isFinite) : x.isFinite ∧ y.isFinite :=
  isFinite_of_sub (isFinite_of_pack finite)

/-- A quotient by a finite number can be finite only if what is divided is. -/
theorem finite_of_div {x y : Float} (divisor : y.isFinite) (finite : (x / y).isFinite) : x.isFinite :=
  isFinite_of_div divisor (isFinite_of_pack finite)

end EulerFlow
