import EulerFlow.Proofs.Rounding

namespace EulerFlow

open Float.Model Float.Model.UnpackedFloat

/-- The sign of a double, and the fields for its exponent and its mantissa, make the number. -/
inductive Encodes (sign : Sign) : Nat → Nat → UnpackedFloat → Prop
  | infinity : Encodes sign 2047 0 (.infinity sign)
  | notANumber {fraction : Nat} : fraction ≠ 0 → Encodes sign 2047 fraction .notANumber
  | zero : Encodes sign 0 0 (.zero sign)
  | subnormal {fraction : Nat} (positive : 0 < fraction) : fraction < 2 ^ 52 →
      Encodes sign 0 fraction (.finite sign fraction (-1074) positive)
  | normal {scale fraction : Nat} (positive : 0 < 2 ^ 52 + fraction) : 0 < scale → scale < 2047 → fraction < 2 ^ 52 →
      Encodes sign scale fraction (.finite sign (2 ^ 52 + fraction) (scale - 1075) positive)

/-- The leading bit of a mantissa is not stored. -/
theorem leading_append (fraction : BitVec 52) : (1#1 ++ fraction).toNat = 2 ^ 52 + fraction.toNat := by
  rw [BitVec.toNat_append, ← Nat.shiftLeft_add_eq_or_of_lt fraction.isLt]
  rfl

theorem unpack_encodes (b : BitVec Format.binary64.numBits) :
    Encodes (Sign.ofBitVec (unpackSign b)) (unpackExponent b).toNat (unpackMantissa b).toNat
      (UnpackedFloat.unpack .binary64 b) := by
  have bound : (unpackMantissa b).toNat < 2 ^ 52 := (unpackMantissa b).isLt
  have range : (unpackExponent b).toNat < 2 ^ 11 := (unpackExponent b).isLt
  have bias : (Format.binary64.exponentBias : Int) + (Format.binary64.mantissaBitsWithoutImplicit : Int) = 1075 := rfl
  unfold UnpackedFloat.unpack
  simp only
  split
  · rename_i full
    rw [show (unpackExponent b).toNat = 2047 from congrArg BitVec.toNat full]
    split
    · rename_i none
      rw [show (unpackMantissa b).toNat = 0 from congrArg BitVec.toNat none]
      exact .infinity
    · rename_i some
      exact .notANumber fun none => some (BitVec.toNat_inj.mp none)
  · rename_i finite
    have below : (unpackExponent b).toNat ≠ 2047 := fun full => finite (BitVec.toNat_inj.mp full)
    split
    · rename_i least
      rw [show (unpackExponent b).toNat = 0 from congrArg BitVec.toNat least]
      split
      · rename_i none
        rw [show (unpackMantissa b).toNat = 0 from congrArg BitVec.toNat none]
        exact .zero
      · rename_i some
        rw [bias]
        exact .subnormal _ bound
    · rename_i proper
      have positive : (unpackExponent b).toNat ≠ 0 := fun zero => proper (BitVec.toNat_inj.mp zero)
      simp only [leading_append (unpackMantissa b), bias]
      exact .normal (by omega) (by omega) (by omega) bound

theorem sign_toNat (b : BitVec Format.binary64.numBits) : (unpackSign b).toNat = b.toNat / 2 ^ 63 := by
  have bound : b.toNat < 2 ^ 64 := b.isLt
  simp [unpackSign, BitVec.extractLsb, Nat.shiftRight_eq_div_pow]
  omega

/-- The three fields as they are cut out of the bits. -/
theorem encodes_bits (bits : UInt64) :
    Encodes (if bits >>> 63 = 1 then .negative else .positive) ((bits >>> 52) &&& 0x7FF).toNat
      (bits &&& 0xFFFFFFFFFFFFF).toNat (UnpackedFloat.unpack .binary64 bits.toBitVec) := by
  have exponent : (@unpackExponent .binary64 bits.toBitVec).toNat = ((bits >>> 52) &&& 0x7FF).toNat := by
    have masked := Nat.and_two_pow_sub_one_eq_mod (bits.toNat / 2 ^ 52) 11
    simpa [unpackExponent, BitVec.extractLsb, Nat.shiftRight_eq_div_pow] using masked.symm
  have mantissa : (@unpackMantissa .binary64 bits.toBitVec).toNat = (bits &&& 0xFFFFFFFFFFFFF).toNat := by
    have masked := Nat.and_two_pow_sub_one_eq_mod bits.toNat 52
    simpa [unpackMantissa, BitVec.extractLsb] using masked.symm
  have sign : Sign.ofBitVec (@unpackSign .binary64 bits.toBitVec) =
      if bits >>> 63 = 1 then .negative else .positive := by
    have bit (b : BitVec 1) : Sign.ofBitVec b = if b.toNat = 1 then .negative else .positive := by
      rcases BitVec.eq_zero_or_eq_one b with rfl | rfl <;> rfl
    have shifted : (bits >>> 63).toNat = bits.toNat / 2 ^ 63 := by simp [Nat.shiftRight_eq_div_pow]
    rw [bit, sign_toNat]
    simp only [← UInt64.toNat_inj, shifted]
    rfl
  rw [← exponent, ← mantissa, ← sign]
  exact unpack_encodes _

/-- The last bit of a double has its place by the rules of rounding. -/
theorem Encodes.target {sign s : Sign} {scale fraction m : Nat} {e : Int} {h : 0 < m}
    (encodes : Encodes sign scale fraction (.finite s m e h)) :
    Format.binary64.targetExponent (totalExponent m e) = e := by
  rw [targetExponent_eq, totalExponent]
  cases encodes with
  | @subnormal fraction positive bound =>
    have short : fraction.log2 < 52 := (Nat.log2_lt positive.ne').mpr bound
    omega
  | @normal scale fraction positive low high bound =>
    have length : (2 ^ 52 + fraction).log2 = 52 := by
      rw [Nat.log2_eq_iff positive.ne']
      omega
    omega

theorem Encodes.signed_abs {sign : Sign} {scale fraction : Nat} {u : UnpackedFloat}
    (encodes : Encodes sign scale fraction u) :
    (match sign with | .negative => u.abs.neg | .positive => u.abs) = u := by
  cases encodes <;> cases sign <;> rfl

theorem ofModel_pack_unpack (x : Float) : Float.ofModel (.pack x.toModel.unpack) = x := by
  obtain ⟨⟨bits, valid⟩⟩ := x
  simp [Float.Model.pack, Float.Model.unpack, pack_unpack_of_valid valid]

/-- Packing loses nothing of a value that a double can hold. -/
theorem unpack_pack {m : Nat} {e : Int} (positive : 0 < m)
    (canonical : Format.binary64.targetExponent (totalExponent m e) = e) (bound : e ≤ 971) (s : Sign) :
    UnpackedFloat.unpack .binary64 (UnpackedFloat.pack .binary64 (.finite s m e positive)) = .finite s m e positive := by
  have bias : (Format.binary64.exponentBias : Int) = 1023 := rfl
  have bits : (Format.binary64.mantissaBitsWithoutImplicit : Int) = 52 := rfl
  obtain ⟨low, high⟩ := log2_bounds positive
  rw [targetExponent_eq, totalExponent] at canonical
  unfold UnpackedFloat.pack
  simp only [bias, bits]
  rw [if_neg (by omega)]
  split
  · rename_i normal
    have length : m.log2 = 52 := Nat.succ.inj normal
    rw [length] at low high
    have field : (BitVec.ofNat 11 (e + 1023 + 52).toNat).toNat = (e + 1023 + 52).toNat := by
      rw [BitVec.toNat_ofNat]
      omega
    have fraction : (1#1 ++ BitVec.ofNat 52 m).toNat = m := by
      rw [leading_append, BitVec.toNat_ofNat]
      omega
    have finite : (BitVec.ofNat 11 (e + 1023 + 52).toNat).toNat ≠ 2 ^ 11 - 1 := by omega
    have proper : (BitVec.ofNat 11 (e + 1023 + 52).toNat).toNat ≠ 0 := by omega
    unfold UnpackedFloat.unpack
    simp only [unpackMantissa_packComponents, unpackExponent_packComponents, unpackSign_packComponents,
      Sign.ofBitVec_toBitVec]
    rw [if_neg fun full => finite (congrArg BitVec.toNat full), if_neg fun zero => proper (congrArg BitVec.toNat zero)]
    simp only [UnpackedFloat.finite.injEq, true_and]
    exact ⟨fraction, by rw [bias, bits]; omega⟩
  · rename_i subnormal
    change ¬ m.log2 + 1 = 53 at subnormal
    have least : e = -1074 := by omega
    have short : m < 2 ^ 52 := high.trans_le (Nat.pow_le_pow_right two_pos (by omega))
    have fraction : (BitVec.ofNat 52 m).toNat = m := Nat.mod_eq_of_lt short
    have nonzero : BitVec.ofNat 52 m ≠ 0#52 := fun zero => by
      rw [zero] at fraction
      exact positive.ne fraction
    unfold UnpackedFloat.unpack
    simp only [unpackMantissa_packComponents, unpackExponent_packComponents, unpackSign_packComponents,
      Sign.ofBitVec_toBitVec]
    rw [if_neg (by decide), if_pos trivial, dif_neg nonzero]
    simp only [UnpackedFloat.finite.injEq, true_and]
    exact ⟨fraction, by rw [bias, bits, least]; rfl⟩

namespace Decimal

/-- The magnitude that is read off the bits of a double is that of the number that they make. -/
theorem Binary.ofBits_canonical {bits : UInt64} {s : Sign} {m : Nat} {e : Int} {h : 0 < m}
    (unpacked : UnpackedFloat.unpack .binary64 bits.toBitVec = .finite s m e h) :
    (ofBits bits).Canonical ∧ (ofBits bits).mantissa = m ∧ (ofBits bits).exponent = e := by
  have encodes := encodes_bits bits
  rw [unpacked] at encodes
  have target := encodes.target
  unfold ofBits
  generalize ((bits >>> 52) &&& 0x7FF).toNat = scale at encodes ⊢
  generalize (bits &&& 0xFFFFFFFFFFFFF).toNat = fraction at encodes ⊢
  cases encodes with
  | subnormal positive bound =>
    have bound : (-1074 : Int) ≤ 971 := by decide
    refine ⟨⟨positive, target, bound, ?_⟩, rfl, rfl⟩
    exact ⟨fun narrow => (Bool.false_ne_true narrow).elim, fun ⟨_, above⟩ => (lt_irrefl _ above).elim⟩
  | normal positive low high bound =>
    rw [if_neg low.ne']
    refine ⟨⟨positive, target, ?_, ?_⟩, rfl, rfl⟩
    · change (scale : Int) - 1075 ≤ 971
      omega
    · change (decide (fraction = 0) && decide (scale > 1)) = true ↔
        2 ^ 52 + fraction = 2 ^ 52 ∧ -1074 < (scale : Int) - 1075
      rw [Bool.and_eq_true, decide_eq_true_eq, decide_eq_true_eq]
      omega

theorem Binary.ofBits_zero {bits : UInt64} {s : Sign}
    (unpacked : UnpackedFloat.unpack .binary64 bits.toBitVec = .zero s) : (ofBits bits).mantissa = 0 := by
  have encodes := encodes_bits bits
  rw [unpacked] at encodes
  unfold ofBits
  generalize ((bits >>> 52) &&& 0x7FF).toNat = scale at encodes ⊢
  generalize (bits &&& 0xFFFFFFFFFFFFF).toNat = fraction at encodes ⊢
  cases encodes
  rfl

end Decimal

/-- Nothing but the sign is lost when the sign is taken off. -/
theorem unpack_abs (x : Float) : x.abs.toModel.unpack = x.toModel.unpack.abs := by
  change UnpackedFloat.unpack .binary64 (UnpackedFloat.pack .binary64 x.toModel.unpack.abs) = _
  cases unpacked : x.toModel.unpack with
  | notANumber => rfl
  | infinity s => simp [UnpackedFloat.abs, UnpackedFloat.unpack, UnpackedFloat.pack, packedInfinity]
  | zero s => simp [UnpackedFloat.abs, UnpackedFloat.unpack, UnpackedFloat.pack, packedZero]
  | finite s m e h =>
    obtain ⟨canonical, rfl, rfl⟩ := Decimal.Binary.ofBits_canonical unpacked
    exact unpack_pack canonical.positive canonical.target canonical.bound .positive

/-- A double is its size with its sign. -/
theorem signed_abs (x : Float) : (if x.toBits >>> 63 = 1 then -x.abs else x.abs) = x := by
  have encodes := encodes_bits x.toBits
  have neg : -x.abs = .ofModel (.pack x.abs.toModel.unpack.neg) := rfl
  have abs : x.abs = .ofModel (.pack x.toModel.unpack.abs) := rfl
  split
  · rename_i negative
    rw [if_pos negative] at encodes
    have signed : x.toModel.unpack.abs.neg = x.toModel.unpack := encodes.signed_abs
    rw [neg, unpack_abs, signed, ofModel_pack_unpack]
  · rename_i positive
    rw [if_neg positive] at encodes
    have signed : x.toModel.unpack.abs = x.toModel.unpack := encodes.signed_abs
    rw [abs, signed, ofModel_pack_unpack]

end EulerFlow
