import EulerFlow.Proofs.Literal

namespace EulerFlow

/-- One decimal digit or more. -/
def IsDigits (cs : List Char) : Prop :=
  cs ≠ [] ∧ ∀ c ∈ cs, c.isDigit = true

/-- Digits, behind which a point and further digits may stand, or a point and digits. -/
inductive IsMantissa : List Char → Prop
  | whole {digits : List Char} (some : IsDigits digits) : IsMantissa digits
  | pointed {digits fraction : List Char} (some : IsDigits digits) (further : ∀ c ∈ fraction, c.isDigit = true) :
      IsMantissa (digits ++ '.' :: fraction)
  | fraction {digits : List Char} (some : IsDigits digits) : IsMantissa ('.' :: digits)

/-- The sign of a power of ten, which may be missing. -/
inductive IsSign : List Char → Prop
  | none : IsSign []
  | plus : IsSign ['+']
  | minus : IsSign ['-']

/-- A power of ten, or nothing. -/
inductive IsScale : List Char → Prop
  | none : IsScale []
  | power {mark : Char} {sign digits : List Char} (letter : mark = 'e' ∨ mark = 'E') (signed : IsSign sign)
      (some : IsDigits digits) : IsScale (mark :: (sign ++ digits))

/-- How a number without a sign is written. -/
inductive IsNumeral : List Char → Prop
  | scaled {mantissa scale : List Char} (digits : IsMantissa mantissa) (power : IsScale scale) :
      IsNumeral (mantissa ++ scale)

namespace Decimal

open Lexeme

/-- What is tested digit by digit is what the grammar of numerals asks for. -/
theorem isDigits_iff {cs : List Char} : cs ≠ [] ∧ cs.all Char.isDigit = true ↔ IsDigits cs := by
  rw [IsDigits, List.all_eq_true]

theorem readPower?_signed {sign digits : List Char} (signed : IsSign sign) (some : IsDigits digits) :
    ∃ k, readPower? (sign ++ digits) = .some k := by
  have all := isDigits_iff.mpr some
  cases signed with
  | plus => exact ⟨_, if_pos all⟩
  | minus => exact ⟨_, if_pos all⟩
  | none =>
    rw [List.nil_append]
    unfold readPower?
    split
    · cases some.2 '-' (List.mem_cons_self ..)
    · cases some.2 '+' (List.mem_cons_self ..)
    · exact ⟨_, if_pos all⟩

theorem signed_of_readPower? {cs : List Char} {k : Int} (read : readPower? cs = some k) :
    ∃ sign digits, cs = sign ++ digits ∧ IsSign sign ∧ IsDigits digits := by
  unfold readPower? at read
  split at read <;> split at read
  · rename_i digits all
    exact ⟨['-'], digits, rfl, .minus, isDigits_iff.mp all⟩
  · cases read
  · rename_i digits all
    exact ⟨['+'], digits, rfl, .plus, isDigits_iff.mp all⟩
  · cases read
  · rename_i all
    exact ⟨[], cs, rfl, .none, isDigits_iff.mp all⟩
  · cases read

theorem isScale_iff {tail : List Char} : IsScale tail ↔ IsPower tail := by
  constructor
  · rintro (_ | ⟨letter, signed, some⟩)
    · exact .inl rfl
    · obtain ⟨k, read⟩ := readPower?_signed signed some
      exact .inr ⟨_, _, k, rfl, letter, read⟩
  · rintro (rfl | ⟨mark, power, k, rfl, letter, read⟩)
    · exact .none
    · obtain ⟨sign, digits, rfl, signed, some⟩ := signed_of_readPower? read
      exact .power letter signed some

/-- Digits end before a power of ten, and so do a point and digits. -/
theorem span_power {digits tail : List Char} (all : ∀ c ∈ digits, c.isDigit = true) (power : IsPower tail) :
    (digits ++ tail).takeWhile Char.isDigit = digits ∧ (digits ++ tail).dropWhile Char.isDigit = tail := by
  rw [List.takeWhile_append_of_pos all, List.dropWhile_append_of_pos all]
  rcases power with rfl | ⟨mark, power, k, rfl, rfl | rfl, _⟩
  · exact ⟨List.append_nil _, rfl⟩
  · exact ⟨List.append_nil _, rfl⟩
  · exact ⟨List.append_nil _, rfl⟩

theorem isSome_readUnsigned?_whole {cs digits tail : List Char} (whole : cs.takeWhile Char.isDigit = digits)
    (rest : cs.dropWhile Char.isDigit = tail) (some : digits ≠ []) (power : IsPower tail) :
    (readUnsigned? cs).isSome = true := by
  unfold readUnsigned?
  rcases power with rfl | ⟨mark, power, k, rfl, rfl | rfl, read⟩
  · simp [whole, rest, some]
  · simp [whole, rest, some, read]
  · simp [whole, rest, some, read]

theorem isSome_readUnsigned?_pointed {cs digits behind fraction tail : List Char}
    (whole : cs.takeWhile Char.isDigit = digits) (point : cs.dropWhile Char.isDigit = '.' :: behind)
    (kept : behind.takeWhile Char.isDigit = fraction) (rest : behind.dropWhile Char.isDigit = tail)
    (some : ¬ (digits = [] ∧ fraction = [])) (power : IsPower tail) : (readUnsigned? cs).isSome = true := by
  unfold readUnsigned?
  rcases power with rfl | ⟨mark, power, k, rfl, rfl | rfl, read⟩
  · simp [whole, point, kept, rest, some]
  · simp [whole, point, kept, rest, some, read]
  · simp [whole, point, kept, rest, some, read]

theorem span_point {digits behind : List Char} (all : ∀ c ∈ digits, c.isDigit = true) :
    (digits ++ '.' :: behind).takeWhile Char.isDigit = digits ∧
      (digits ++ '.' :: behind).dropWhile Char.isDigit = '.' :: behind := by
  rw [List.takeWhile_append_of_pos all, List.dropWhile_append_of_pos all]
  exact ⟨List.append_nil _, rfl⟩

/-- Every numeral is read as a number. -/
theorem isSome_of_isNumeral {cs : List Char} (numeral : IsNumeral cs) : (readUnsigned? cs).isSome = true := by
  obtain ⟨mantissa, scale⟩ := numeral
  have power := isScale_iff.mp scale
  cases mantissa with
  | whole some =>
    obtain ⟨whole, rest⟩ := span_power some.2 power
    exact isSome_readUnsigned?_whole whole rest some.1 power
  | @pointed digits fraction some further =>
    obtain ⟨whole, point⟩ := span_point some.2
    obtain ⟨kept, rest⟩ := span_power further power
    rw [List.append_assoc]
    exact isSome_readUnsigned?_pointed whole point kept rest (fun empty => some.1 empty.1) power
  | fraction some =>
    obtain ⟨kept, rest⟩ := span_power some.2 power
    exact isSome_readUnsigned?_pointed rfl rfl kept rest (fun empty => some.1 empty.2) power

theorem takeWhile_isDigit (cs : List Char) : ∀ c ∈ cs.takeWhile Char.isDigit, c.isDigit = true :=
  List.all_eq_true.mp List.all_takeWhile

/-- Whatever is read as a number is a numeral. -/
theorem isNumeral_of_read {cs : List Char} {d : Decimal} (read : readUnsigned? cs = some d) : IsNumeral cs := by
  have whole := List.takeWhile_append_dropWhile (p := Char.isDigit) (l := cs)
  unfold readUnsigned? at read
  simp only at read
  split at read
  · rename_i behind point
    have further := List.takeWhile_append_dropWhile (p := Char.isDigit) (l := behind)
    split at read
    · cases read
    · rename_i some
      have scale := isScale_iff.mpr (isPower_of_read read)
      rw [← whole, point, ← further, ← List.cons_append, ← List.append_assoc]
      refine .scaled ?_ scale
      by_cases leads : cs.takeWhile Char.isDigit = []
      · rw [leads]
        exact .fraction ⟨fun empty => some ⟨leads, empty⟩, takeWhile_isDigit behind⟩
      · exact .pointed ⟨leads, takeWhile_isDigit cs⟩ (takeWhile_isDigit behind)
  · split at read
    · cases read
    · rename_i some
      rw [← whole]
      exact .scaled (.whole ⟨fun empty => some ⟨empty, rfl⟩, takeWhile_isDigit cs⟩)
        (isScale_iff.mpr (isPower_of_read read))

end Decimal

open Lexeme

/-- A numeral begins as a number is recognized, so the scanner comes to read it. -/
theorem IsMantissa.starts {cs : List Char} (mantissa : IsMantissa cs) :
    ∃ c rest, cs = c :: rest ∧ startsNumber c = true := by
  have first {digits : List Char} (some : IsDigits digits) :
      ∃ c rest, digits = c :: rest ∧ startsNumber c = true := by
    obtain ⟨c, rest, rfl⟩ := List.exists_cons_of_ne_nil some.1
    exact ⟨c, rest, rfl, digit_startsNumber (some.2 c (List.mem_cons_self ..))⟩
  cases mantissa with
  | whole some => exact first some
  | @pointed digits fraction some _ =>
    obtain ⟨c, rest, rfl, starts⟩ := first some
    exact ⟨c, rest ++ '.' :: fraction, rfl, starts⟩
  | fraction some => exact ⟨'.', _, rfl, rfl⟩

theorem IsNumeral.starts {cs : List Char} (numeral : IsNumeral cs) :
    ∃ c rest, cs = c :: rest ∧ startsNumber c = true := by
  obtain ⟨mantissa, scale⟩ := numeral
  obtain ⟨c, rest, rfl, starts⟩ := mantissa.starts
  exact ⟨c, _, rfl, starts⟩

/-- What begins with a digit or a point is read as a number exactly if it is written as one. -/
theorem isSome_read?_iff {c : Char} {cs : List Char} (starts : startsNumber c = true) :
    (Decimal.read? (c :: cs)).isSome = true ↔ IsNumeral (c :: cs) := by
  rw [read?_literal starts, Option.isSome_map, Option.isSome_iff_exists]
  constructor
  · rintro ⟨d, read⟩
    exact Decimal.isNumeral_of_read read
  · intro numeral
    exact Option.isSome_iff_exists.mp (Decimal.isSome_of_isNumeral numeral)

theorem IsNumeral.reads {cs : List Char} (numeral : IsNumeral cs) : (Decimal.read? cs).isSome = true := by
  obtain ⟨c, rest, rfl, starts⟩ := numeral.starts
  exact (isSome_read?_iff starts).mpr numeral

end EulerFlow
