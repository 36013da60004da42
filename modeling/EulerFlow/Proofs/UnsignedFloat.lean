import EulerFlow.Decimal.Read
import EulerFlow.Proofs.Encoding

namespace EulerFlow

open Float.Model Float.Model.UnpackedFloat

/-- Neither NaN nor marked negative, so that a number can be written without a sign. -/
def Unsigned (x : Float) : Prop :=
  x.isNaN = false ∧ x.toBits < 0x8000000000000000

instance (x : Float) : Decidable (Unsigned x) := inferInstanceAs (Decidable (_ ∧ _))

namespace Unsigned

/-- The same of a number that is taken apart. -/
inductive Positive : UnpackedFloat → Prop
  | infinity : Positive (.infinity .positive)
  | zero : Positive (.zero .positive)
  | finite (m : Nat) (e : Int) (positive : 0 < m) : Positive (.finite .positive m e positive)

/-- What is rounded keeps its sign, even where it becomes zero or infinite. -/
theorem roundWithAccuracy_positive (spec : Format) (m : Nat) (e : Int) (accuracy : Accuracy) :
    Positive (roundWithAccuracy spec .positive m e accuracy) := by
  unfold roundWithAccuracy
  simp only
  split
  · exact .zero
  · exact .finite ..

theorem mul_positive (spec : Format) {a : UnpackedFloat} (positive : Positive a) {m : Nat} {e : Int} (h : 0 < m) :
    Positive (mul spec a (.finite .positive m e h)) := by
  cases positive with
  | infinity => exact .infinity
  | zero => exact .zero
  | finite => exact roundWithAccuracy_positive ..

theorem div_positive (spec : Format) {a : UnpackedFloat} (positive : Positive a) {m : Nat} {e : Int} (h : 0 < m) :
    Positive (div spec a (.finite .positive m e h)) := by
  cases positive with
  | infinity => exact .infinity
  | zero => exact .zero
  | finite => exact roundWithAccuracy_positive ..

theorem ofScientific_positive (spec : Format) (m : Nat) (e : Int) :
    Positive (UnpackedFloat.ofScientific spec m e) := by
  unfold UnpackedFloat.ofScientific
  split
  · exact .zero
  split
  · exact .infinity
  split
  · exact .zero
  split
  · exact mul_positive spec (.finite ..) _
  · exact div_positive spec (.finite ..) _

theorem packComponents_lt (exponent : BitVec 11) (mantissa : BitVec 52) :
    (packComponents .binary64 .positive exponent mantissa).toNat < 2 ^ 63 := by
  have exponentBound := exponent.isLt
  have mantissaBound := mantissa.isLt
  unfold packComponents Sign.toBitVec
  rw [BitVec.toNat_append, BitVec.toNat_append]
  simp only [BitVec.toNat_ofNat, Nat.zero_mod, Nat.zero_shiftLeft, Nat.zero_or]
  rw [← Nat.shiftLeft_add_eq_or_of_lt mantissaBound, Nat.shiftLeft_eq]
  omega

/-- The sign is the highest bit. -/
theorem sign_positive {b : BitVec Format.binary64.numBits} (below : b.toNat < 2 ^ 63) :
    Sign.ofBitVec (unpackSign b) = .positive := by
  have zero : unpackSign b = 0#1 := by
    rw [← BitVec.toNat_inj, sign_toNat, BitVec.toNat_ofNat]
    omega
  rw [zero]
  rfl

theorem Positive.of_encodes {scale fraction : Nat} {u : UnpackedFloat} (encodes : Encodes .positive scale fraction u)
    (number : u.isNaN = false) : Positive u := by
  cases encodes with
  | infinity => exact .infinity
  | notANumber => cases number
  | zero => exact .zero
  | subnormal => exact .finite ..
  | normal => exact .finite ..

/-- What is taken apart from bits without a sign is positive, unless it is no number. -/
theorem unpack_positive {b : BitVec Format.binary64.numBits} (below : b.toNat < 2 ^ 63)
    (number : (UnpackedFloat.unpack .binary64 b).isNaN = false) : Positive (UnpackedFloat.unpack .binary64 b) := by
  have encodes := unpack_encodes b
  rw [sign_positive below] at encodes
  exact .of_encodes encodes number

/-- A positive double is packed without a sign, and if its exponent is full, without a mantissa, so that it is not
taken for NaN. -/
theorem pack_components {u : UnpackedFloat} (positive : Positive u) :
    ∃ exponent mantissa, UnpackedFloat.pack .binary64 u = packComponents .binary64 .positive exponent mantissa ∧
      (exponent = -1#11 → mantissa = 0#52) := by
  cases positive with
  | infinity => exact ⟨_, _, rfl, fun _ => rfl⟩
  | zero => exact ⟨_, _, rfl, fun _ => rfl⟩
  | finite m e h =>
    unfold UnpackedFloat.pack
    simp only
    split
    · exact ⟨_, _, rfl, fun _ => rfl⟩
    · rename_i inRange
      split
      · refine ⟨_, _, rfl, fun special => ?_⟩
        have full := congrArg BitVec.toNat special
        simp at full inRange
        omega
      · refine ⟨_, _, rfl, fun special => ?_⟩
        exact absurd special (by decide)

theorem of_positive {u : UnpackedFloat} (positive : Positive u) : Unsigned (.ofModel (.pack u)) := by
  obtain ⟨exponent, mantissa, packed, special⟩ := pack_components positive
  constructor
  · change (UnpackedFloat.unpack .binary64 (UnpackedFloat.pack .binary64 u)).isNaN = false
    rw [packed, UnpackedFloat.unpack]
    simp only [unpackMantissa_packComponents, unpackExponent_packComponents]
    split
    · rename_i infinite
      rw [if_pos (special infinite)]
      rfl
    · split
      · split <;> rfl
      · rfl
  · change UInt64.ofBitVec (UnpackedFloat.pack .binary64 u) < 0x8000000000000000
    rw [UInt64.lt_iff_toNat_lt]
    change (UnpackedFloat.pack .binary64 u).toNat < 2 ^ 63
    rw [packed]
    exact packComponents_lt exponent mantissa

/-- An unsigned double is taken apart into positive parts. -/
theorem unpack_of {x : Float} (unsigned : Unsigned x) : Positive x.toModel.unpack :=
  unpack_positive (UInt64.lt_iff_toNat_lt.mp unsigned.2) unsigned.1

/-- A power of ten that is taken apart, with a full mantissa. -/
def IsPowerOfTen (k : Nat) (u : UnpackedFloat) : Prop :=
  ∃ m e h, u = .finite .positive m e h ∧ m * 2 ^ e.toNat = 10 ^ k * 2 ^ (-e).toNat ∧ 2 ^ 52 ≤ m

instance (k : Nat) : DecidablePred (IsPowerOfTen k)
  | .finite .positive m e h => decidable_of_iff (m * 2 ^ e.toNat = 10 ^ k * 2 ^ (-e).toNat ∧ 2 ^ 52 ≤ m)
    ⟨fun exact => ⟨m, e, h, rfl, exact⟩, by rintro ⟨_, _, _, ⟨⟩, exact⟩; exact exact⟩
  | .finite .negative _ _ _ => isFalse (by rintro ⟨_, _, _, ⟨⟩, _⟩)
  | .zero _ => isFalse (by rintro ⟨_, _, _, ⟨⟩, _⟩)
  | .infinity _ => isFalse (by rintro ⟨_, _, _, ⟨⟩, _⟩)
  | .notANumber => isFalse (by rintro ⟨_, _, _, ⟨⟩, _⟩)

/-- The table of powers is checked entry by entry. -/
theorem powers_of_ten : ∀ i : Fin Float.exactlyRepresentablePowersOfTen.size,
    IsPowerOfTen i Float.exactlyRepresentablePowersOfTen[i].toModel.unpack := by
  decide +kernel

theorem ofUInt64_positive (spec : Format) (n : UInt64) : Positive (UnpackedFloat.ofUInt64 spec n) := by
  unfold UnpackedFloat.ofUInt64 UnpackedFloat.ofNat UnpackedFloat.ofInt UnpackedFloat.normalize
  have nonnegative : ¬ ((n.toNat : Int) < 0) := by omega
  split
  · rename_i below
    exact absurd (Int.compare_eq_lt.mp below) nonnegative
  · exact .zero
  · unfold UnpackedFloat.round
    exact roundWithAccuracy_positive ..

end Unsigned

/-- A decimal has no sign, and neither has the double that it reads as. -/
theorem Decimal.toFloat_unsigned (d : Decimal) : Unsigned d.toFloat := by
  unfold toFloat Float.ofScientific
  split
  · rename_i small
    obtain ⟨m, e, h, power, _⟩ := Unsigned.powers_of_ten ⟨d.exponent.natAbs, Nat.lt_succ_of_le small.2⟩
    have digits : Unsigned (d.digits.toUInt64.toFloat) := .of_positive (Unsigned.ofUInt64_positive ..)
    split
    · change Unsigned (.ofModel (.pack (UnpackedFloat.div .binary64 _ _)))
      rw [show (getElem Float.exactlyRepresentablePowersOfTen d.exponent.natAbs _).toModel.unpack = _ from power]
      exact .of_positive (Unsigned.div_positive _ digits.unpack_of h)
    · change Unsigned (.ofModel (.pack (UnpackedFloat.mul .binary64 _ _)))
      rw [show (getElem Float.exactlyRepresentablePowersOfTen d.exponent.natAbs _).toModel.unpack = _ from power]
      exact .of_positive (Unsigned.mul_positive _ digits.unpack_of h)
  · exact .of_positive (Unsigned.ofScientific_positive ..)

end EulerFlow
