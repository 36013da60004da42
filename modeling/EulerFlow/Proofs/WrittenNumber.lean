import EulerFlow.Decimal.Written
import EulerFlow.Proofs.Literal
import EulerFlow.Proofs.NearestDouble

namespace EulerFlow

open Float.Model Float.Model.UnpackedFloat

namespace Decimal

/-- Both sides of a comparison are the numbers themselves, times one factor that makes them whole. -/
theorem compareBinary_scaled (d : Decimal) (mantissa : Nat) (scale : Int) :
    ∃ a b : Nat, d.compareBinary mantissa scale = compare a b ∧
      ∃ c : ℚ, 0 < c ∧ (a : ℚ) = d.value * c ∧ (b : ℚ) = mantissa * 2 ^ scale * c := by
  refine ⟨_, _, rfl, 10 ^ (-d.exponent).toNat * 2 ^ (-scale).toNat, by positivity, ?_, ?_⟩
  · rw [Nat.shiftLeft_eq, Nat.pow_eq, value]
    push_cast
    rw [zpow_toNat (by norm_num)]
    ring
  · rw [Nat.shiftLeft_eq, Nat.pow_eq]
    push_cast
    rw [zpow_toNat two_ne_zero]
    ring

/-- The comparison of a decimal with a binary number is that of their values. -/
theorem compareBinary_lt {d : Decimal} {mantissa : Nat} {scale : Int} :
    d.compareBinary mantissa scale = .lt ↔ d.value < mantissa * 2 ^ scale := by
  obtain ⟨a, b, same, c, positive, left, right⟩ := d.compareBinary_scaled mantissa scale
  rw [same, Nat.compare_eq_lt, ← Nat.cast_lt (α := ℚ), left, right, mul_lt_mul_iff_left₀ positive]

theorem compareBinary_eq {d : Decimal} {mantissa : Nat} {scale : Int} :
    d.compareBinary mantissa scale = .eq ↔ d.value = mantissa * 2 ^ scale := by
  obtain ⟨a, b, same, c, positive, left, right⟩ := d.compareBinary_scaled mantissa scale
  rw [same, Nat.compare_eq_eq, ← Nat.cast_inj (R := ℚ), left, right, mul_left_inj' positive.ne']

theorem compareBinary_gt {d : Decimal} {mantissa : Nat} {scale : Int} :
    d.compareBinary mantissa scale = .gt ↔ mantissa * 2 ^ scale < d.value := by
  obtain ⟨a, b, same, c, positive, left, right⟩ := d.compareBinary_scaled mantissa scale
  rw [same, Nat.compare_eq_gt, ← Nat.cast_lt (α := ℚ), left, right, mul_lt_mul_iff_left₀ positive]

namespace Binary

variable {x : Binary}

theorem lower_end (positive : 0 < x.mantissa) :
    ((if x.narrowBelow then 4 * x.mantissa - 1 else 4 * x.mantissa - 2 : Nat) : ℚ) * 2 ^ (x.exponent - 2) =
      (x.mantissa - x.reach) * 2 ^ x.exponent := by
  rw [zpow_sub₀ two_ne_zero, reach]
  split
  · rw [Nat.cast_sub (by omega)]
    push_cast
    ring
  · rw [Nat.cast_sub (by omega)]
    push_cast
    ring

theorem upper_end (x : Binary) :
    ((4 * x.mantissa + 2 : Nat) : ℚ) * 2 ^ (x.exponent - 2) = (x.mantissa + 1 / 2) * 2 ^ x.exponent := by
  rw [zpow_sub₀ two_ne_zero]
  push_cast
  ring

/-- The test by comparisons is the one that the theory of rounding makes. -/
theorem attracts_of_rounds (positive : 0 < x.mantissa) {d : Decimal} (rounds : x.rounds d = true) :
    x.Attracts d.value := by
  have unit : (0 : ℚ) < 2 ^ x.exponent := zpow_pos two_pos x.exponent
  simp only [Binary.rounds, Bool.and_eq_true, Bool.or_eq_true, decide_eq_true_eq, compareBinary_lt, compareBinary_eq,
    compareBinary_gt, lower_end positive, upper_end] at rounds
  obtain ⟨below, above⟩ := rounds
  refine ⟨(le_div_iff₀ unit).mpr ?_, (div_le_iff₀ unit).mpr ?_, fun tie => ?_⟩
  · exact below.elim le_of_lt fun same => same.2.ge
  · exact above.elim le_of_lt fun same => same.2.le
  · rw [div_eq_iff unit.ne', div_eq_iff unit.ne'] at tie
    rcases tie with low | high
    · exact (below.resolve_left low.le.not_gt).1
    · exact (above.resolve_left high.ge.not_gt).1

theorem exact_value (x : Binary) : x.exact.value = x.mantissa * 2 ^ x.exponent := by
  unfold Binary.exact
  split
  · rename_i whole
    rw [value, Nat.shiftLeft_eq, zpow_zero, mul_one, Nat.cast_mul, Nat.cast_pow, Nat.cast_ofNat, ← zpow_natCast,
      Int.toNat_of_nonneg whole]
  · rename_i fraction
    have ten : (10 : ℚ) ^ x.exponent = 5 ^ x.exponent * 2 ^ x.exponent := by
      rw [← mul_zpow]
      norm_num
    rw [value, ten, Nat.pow_eq, Nat.cast_mul, Nat.cast_pow, Nat.cast_ofNat, ← zpow_natCast,
      Int.toNat_of_nonneg (by omega), zpow_neg, ← mul_assoc, mul_assoc (x.mantissa : ℚ),
      inv_mul_cancel₀ (zpow_pos (by norm_num) _).ne', mul_one]

/-- What is found on a grid of decimals was tested before it is taken. -/
theorem rounds_of_onGrid {unit : Int} {d : Decimal} (found : x.onGrid unit = some d) : x.rounds d = true := by
  unfold Binary.onGrid at found
  simp only at found
  split at found
  · rename_i lower upper
    split at found
    · rwa [← Option.some.inj found]
    · rwa [← Option.some.inj found]
  · rename_i lower upper
    rwa [← Option.some.inj found]
  · rename_i lower upper
    rwa [← Option.some.inj found]
  · cases found

end Binary

/-- To drop zeros at the end changes no value. -/
theorem trimWith_value (fuel : Nat) (d : Decimal) : (trimWith fuel d).value = d.value := by
  induction fuel generalizing d with
  | zero => rfl
  | succ fuel ih =>
    rw [trimWith]
    split
    · rename_i ends
      have digits : (d.digits : ℚ) = 10 * (d.digits / 10 : Nat) := by
        exact_mod_cast (Nat.mul_div_cancel' (Nat.dvd_of_mod_eq_zero ends.2)).symm
      rw [ih, value, value, zpow_add_one₀ (by norm_num), digits]
      ring
    · rfl

namespace Binary

variable {x : Binary}

/-- What is written for a value reads as the value. -/
theorem attracts_shortest (positive : 0 < x.mantissa) : x.Attracts x.shortest.value := by
  unfold shortest
  rw [if_neg positive.ne', trim, trimWith_value]
  cases candidate : (List.range 17).findSome? fun (n : Nat) => x.onGrid (x.decade - 1 - n) with
  | none =>
    rw [Option.getD_none, exact_value]
    exact x.attracts_self
  | some d =>
    obtain ⟨n, _, found⟩ := List.exists_of_findSome?_eq_some candidate
    exact attracts_of_rounds positive (rounds_of_onGrid found)

end Binary

theorem digitsValue_append (cs digits : List Char) :
    digitsValue (cs ++ digits) = digitsValue cs * 10 ^ digits.length + digitsValue digits := by
  unfold digitsValue
  induction digits using List.reverseRecOn with
  | nil => simp
  | append_singleton digits c ih =>
    rw [← List.append_assoc, List.foldl_append, ih, List.foldl_append, List.length_append]
    simp only [List.foldl_cons, List.foldl_nil, List.length_cons, List.length_nil, Nat.zero_add, Nat.pow_succ]
    ring

theorem digitsValue_zeros (n : Nat) : digitsValue (List.replicate n '0') = 0 := by
  induction n with
  | zero => rfl
  | succ n ih => rwa [List.replicate_succ, digitsValue, List.foldl_cons]

theorem readUnsigned?_digits {digits : List Char} (all : ∀ c ∈ digits, c.isDigit = true) (nonempty : digits ≠ []) :
    readUnsigned? digits = some ⟨digitsValue digits, 0⟩ := by
  have whole : digits.takeWhile Char.isDigit = digits := List.takeWhile_eq_self_iff.mpr all
  have rest : digits.dropWhile Char.isDigit = [] := List.dropWhile_eq_nil_iff.mpr all
  simp [readUnsigned?, whole, rest, nonempty]

theorem readUnsigned?_point {whole fraction : List Char} (all : ∀ c ∈ whole, c.isDigit = true) (nonempty : whole ≠ [])
    (all' : ∀ c ∈ fraction, c.isDigit = true) :
    readUnsigned? (whole ++ '.' :: fraction) = some ⟨digitsValue (whole ++ fraction), -fraction.length⟩ := by
  have before : (whole ++ '.' :: fraction).takeWhile Char.isDigit = whole := by
    rw [List.takeWhile_append_of_pos all]
    exact List.append_nil _
  have behind : (whole ++ '.' :: fraction).dropWhile Char.isDigit = '.' :: fraction := by
    rw [List.dropWhile_append_of_pos all]
    rfl
  have kept : fraction.takeWhile Char.isDigit = fraction := List.takeWhile_eq_self_iff.mpr all'
  have rest : fraction.dropWhile Char.isDigit = [] := List.dropWhile_eq_nil_iff.mpr all'
  simp [readUnsigned?, before, behind, kept, rest, nonempty]

/-- The layout without exponents is read as the number it is made of. -/
theorem readUnsigned?_positional (d : Decimal) :
    ∃ read, readUnsigned? (d.positional false) = some read ∧ read.value = d.value := by
  have zeros (n : Nat) : ∀ c ∈ List.replicate n '0', c.isDigit = true :=
    fun c member => (List.eq_of_mem_replicate member).symm ▸ rfl
  have digits := isDigit_digitChars d.digits
  unfold positional
  simp only [Bool.false_eq_true, if_false, List.append_nil]
  split
  · rename_i whole
    refine ⟨_, readUnsigned?_digits ?_ ?_, ?_⟩
    · exact List.forall_mem_append.mpr ⟨digits, zeros _⟩
    · exact List.append_ne_nil_of_left_ne_nil Nat.toDigits_ne_nil _
    · rw [digitsValue_append, digitsValue_zeros, digitsValue_digitChars, List.length_replicate, Nat.add_zero, value, value,
        zpow_zero, mul_one, Nat.cast_mul, Nat.cast_pow, Nat.cast_ofNat, ← zpow_natCast, Int.toNat_of_nonneg whole]
  · rename_i fraction
    let places := (-d.exponent).toNat
    let padded := List.replicate (places + 1 - (digitChars d.digits).length) '0' ++ digitChars d.digits
    have all : ∀ c ∈ padded, c.isDigit = true := List.forall_mem_append.mpr ⟨zeros _, digits⟩
    have long : places + 1 ≤ padded.length := by
      rw [List.length_append, List.length_replicate]
      omega
    have nonempty : padded.take (padded.length - places) ≠ [] :=
      List.ne_nil_of_length_pos (by rw [List.length_take]; omega)
    have depth : (padded.drop (padded.length - places)).length = places := by
      rw [List.length_drop]
      omega
    have kept : digitsValue padded = d.digits := by
      rw [digitsValue_append, digitsValue_zeros, digitsValue_digitChars, Nat.zero_mul, Nat.zero_add]
    have fractional : ∀ c ∈ padded.drop (padded.length - places), c.isDigit = true :=
      fun c member => all c (List.mem_of_mem_drop member)
    have read := readUnsigned?_point (fun c member => all c (List.mem_of_mem_take member)) nonempty fractional
    have power : -(places : Int) = d.exponent := by omega
    rw [List.take_append_drop, kept, depth, power] at read
    exact ⟨d, read, rfl⟩

end Decimal

/-- Every number that needs no sign is the value of some decimal. -/
theorem Unsigned.exists_decimal {x : Float} (unsigned : Unsigned x) : ∃ d : Decimal, d.toFloat = x := by
  have positive := unsigned.unpack_of
  rw [← ofModel_pack_unpack x]
  generalize unpacked : x.toModel.unpack = u at positive
  cases positive with
  | infinity => exact ⟨⟨1, 400⟩, Float.toBits_inj.mp (by decide +kernel)⟩
  | zero => exact ⟨⟨0, 0⟩, Float.toBits_inj.mp (by decide +kernel)⟩
  | finite m e h =>
    obtain ⟨canonical, rfl, rfl⟩ := Decimal.Binary.ofBits_canonical unpacked
    have attracts := (Decimal.Binary.ofBits x.toBits).attracts_self
    rw [← Decimal.Binary.exact_value] at attracts
    exact ⟨_, attracts.toFloat canonical⟩

namespace Decimal

/-- The sign is read first, and the number behind it as if it stood alone. -/
theorem read?_neg {cs : List Char} (unsigned : ∀ c ∈ cs.head?, c ≠ '-' ∧ c ≠ '+') :
    read? ('-' :: cs) = (read? cs).map fun x => -x := by
  cases cs with
  | nil => rfl
  | cons c cs =>
    obtain ⟨minus, plus⟩ := unsigned c rfl
    rw [read?, read?]
    · exact fun r same => minus (List.cons.inj same).1
    · exact fun r same => plus (List.cons.inj same).1

theorem startsNumber_of_read {cs : List Char} {d : Decimal} (read : readUnsigned? cs = some d) :
    ∃ c rest, cs = c :: rest ∧ Lexeme.startsNumber c = true := by
  obtain ⟨lead, tail, rfl, all, power⟩ := Lexeme.unsigned_shape read
  cases lead with
  | nil =>
    rcases power with rfl | ⟨e, power, k, rfl, rfl | rfl, _⟩
    · cases read
    · cases read
    · cases read
  | cons c lead => exact ⟨c, lead ++ tail, rfl, all c (List.mem_cons_self ..)⟩

theorem read?_positional (d : Decimal) :
    ∃ read : Decimal, read.value = d.value ∧ read? (d.positional false) = some read.toFloat ∧
      ∀ c ∈ (d.positional false).head?, c ≠ '-' ∧ c ≠ '+' := by
  obtain ⟨read, unsigned, value⟩ := d.readUnsigned?_positional
  obtain ⟨c, rest, shape, starts⟩ := startsNumber_of_read unsigned
  rw [shape] at unsigned ⊢
  refine ⟨read, value, ?_, ?_⟩
  · rw [Lexeme.read?_literal starts, unsigned]
    rfl
  · intro first member
    cases Option.mem_some.mp member
    constructor
    · rintro rfl
      cases starts
    · rintro rfl
      cases starts

theorem layout_plain (d : Decimal) : layout .plain d = d.positional false := if_pos (.inr rfl)

/-- The text of a number without its sign. -/
def body (x : Float) : List Char :=
  if x.isInf then "inf".toList else layout .plain (Binary.ofBits x.toBits).shortest

theorem read?_body {x : Float} (number : x.isNaN = false) :
    read? (body x) = some x.abs ∧ ∀ c ∈ (body x).head?, c ≠ '-' ∧ c ≠ '+' := by
  change x.toModel.unpack.isNaN = false at number
  have abs : x.abs = .ofModel (.pack x.toModel.unpack.abs) := rfl
  have isInf : x.isInf = x.toModel.unpack.isInf := rfl
  rw [abs, body, isInf, layout_plain]
  cases unpacked : x.toModel.unpack with
  | notANumber =>
    rw [unpacked] at number
    cases number
  | infinity s =>
    have read : (1 / 0 : Float) = .ofModel (.pack (.infinity .positive)) := Float.toBits_inj.mp (by decide +kernel)
    exact ⟨congrArg some read, by simp [UnpackedFloat.isInf]⟩
  | zero s =>
    have shortest : (Binary.ofBits x.toBits).shortest = ⟨0, 0⟩ := if_pos (Binary.ofBits_zero unpacked)
    have read : toFloat ⟨0, 0⟩ = .ofModel (.pack (.zero .positive)) := Float.toBits_inj.mp (by decide +kernel)
    obtain ⟨_, _, _, unsigned⟩ := read?_positional ⟨0, 0⟩
    rw [shortest]
    exact ⟨congrArg some read, unsigned⟩
  | finite s m e h =>
    obtain ⟨canonical, rfl, rfl⟩ := Decimal.Binary.ofBits_canonical unpacked
    obtain ⟨read, value, found, unsigned⟩ := (Binary.ofBits x.toBits).shortest.read?_positional
    have attracts : (Binary.ofBits x.toBits).Attracts read.value := by
      rw [value]
      exact Binary.attracts_shortest canonical.positive
    rw [attracts.toFloat canonical] at found
    exact ⟨found, unsigned⟩

/-- A number is read from its text, every bit of it. -/
theorem read?_text (x : Float) : read? (text x).toList = some x := by
  have signed := signed_abs x
  unfold text write
  split
  · rename_i none
    change x.toModel.unpack.isNaN = true at none
    cases unpacked : x.toModel.unpack with
    | notANumber =>
      have read : (0 / 0 : Float) = .ofModel (.pack .notANumber) := Float.toBits_inj.mp (by decide +kernel)
      rw [← ofModel_pack_unpack x, unpacked, ← read]
      rfl
    | infinity | zero | finite =>
      rw [unpacked] at none
      cases none
  · rename_i number
    obtain ⟨read, unsigned⟩ := read?_body (Bool.eq_false_iff.mpr number)
    rw [String.toList_ofList]
    change read? ((if x.toBits >>> 63 = 1 then ['-'] else []) ++ body x) = _
    split
    · rename_i negative
      rw [if_pos negative] at signed
      rw [List.singleton_append, read?_neg unsigned, read, Option.map_some, signed]
    · rename_i positive
      rw [if_neg positive] at signed
      rw [List.nil_append, read, signed]

theorem positional_chars (d : Decimal) : ∀ c ∈ d.positional false, c.isDigit = true ∨ c = '.' := by
  have zeros (n : Nat) : ∀ c ∈ List.replicate n '0', c.isDigit = true ∨ c = '.' :=
    fun c member => .inl ((List.eq_of_mem_replicate member).symm ▸ rfl)
  have digits : ∀ c ∈ digitChars d.digits, c.isDigit = true ∨ c = '.' :=
    fun c member => .inl (isDigit_digitChars d.digits c member)
  unfold positional
  simp only [Bool.false_eq_true, if_false, List.append_nil]
  split
  · exact List.forall_mem_append.mpr ⟨digits, zeros _⟩
  · have padded (n : Nat) := List.forall_mem_append.mpr ⟨zeros n, digits⟩
    refine List.forall_mem_append.mpr ⟨?_, List.forall_mem_cons.mpr ⟨.inr rfl, ?_⟩⟩
    · exact fun c member => padded _ c (List.mem_of_mem_take member)
    · exact fun c member => padded _ c (List.mem_of_mem_drop member)

/-- No number is written with a character that ends a field or a line. -/
theorem text_chars (x : Float) : ∀ c ∈ (text x).toList, c ≠ ' ' ∧ c ≠ '\n' := by
  have shown (d : Decimal) : ∀ c ∈ d.positional false, c ≠ ' ' ∧ c ≠ '\n' := by
    intro c member
    rcases d.positional_chars c member with digit | rfl
    · constructor
      · rintro rfl
        cases digit
      · rintro rfl
        cases digit
    · simp
  unfold text write
  split
  · simp
  · rw [String.toList_ofList, layout_plain]
    refine List.forall_mem_append.mpr ⟨?_, ?_⟩
    · split <;> simp
    · split
      · simp
      · exact shown _

end Decimal

end EulerFlow
