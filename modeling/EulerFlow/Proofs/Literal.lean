import EulerFlow.Expr.Lexeme

namespace EulerFlow

namespace Decimal

theorem isDigit_digitChars (n : Nat) : ∀ c ∈ digitChars n, c.isDigit = true :=
  fun _ member => Nat.isDigit_of_mem_toDigits (by decide) (by decide) member

theorem digitsValue_digitChars (n : Nat) : digitsValue (digitChars n) = n :=
  Nat.ofDigitChars_eq_foldl.symm.trans Nat.ofDigitChars_ten_toDigits

/-- A power of ten as it stands behind its letter. -/
def powerChars (k : Int) : List Char :=
  if k < 0 then '-' :: digitChars k.natAbs else digitChars k.natAbs

theorem readPower?_powerChars (k : Int) : readPower? (powerChars k) = some k := by
  have written (n : Nat) : digitChars n ≠ [] ∧ (digitChars n).all Char.isDigit = true :=
    ⟨Nat.toDigits_ne_nil, List.all_eq_true.mpr (isDigit_digitChars n)⟩
  unfold powerChars
  split
  · rw [readPower?, if_pos (written _), digitsValue_digitChars]
    exact congrArg some (by omega)
  · unfold readPower?
    split
    · rename_i same
      cases isDigit_digitChars _ '-' (same ▸ List.mem_cons_self ..)
    · rename_i same
      cases isDigit_digitChars _ '+' (same ▸ List.mem_cons_self ..)
    · rw [if_pos (written _), digitsValue_digitChars]
      exact congrArg some (by omega)

/-- The digits and the power of ten of a decimal, which make a literal. -/
def literal (d : Decimal) : List Char :=
  digitChars d.digits ++ 'e' :: powerChars d.exponent

/-- What a decimal is written as is read as the decimal. -/
theorem readUnsigned?_literal (d : Decimal) : readUnsigned? d.literal = some d := by
  have digits : (d.literal.takeWhile Char.isDigit = digitChars d.digits) ∧
      d.literal.dropWhile Char.isDigit = 'e' :: powerChars d.exponent := by
    unfold literal
    rw [List.takeWhile_append_of_pos (isDigit_digitChars _), List.dropWhile_append_of_pos (isDigit_digitChars _)]
    exact ⟨List.append_nil _, rfl⟩
  have nonempty : digitChars d.digits ≠ [] := Nat.toDigits_ne_nil
  unfold readUnsigned?
  simp [digits, nonempty, readPower?_powerChars, digitsValue_digitChars]

end Decimal

namespace Lexeme

/-- Characters that numbers and names consist of, the signs of powers apart. -/
def isWord (c : Char) : Bool :=
  startsNumber c || continuesName c

/-- A number or a name ends before these characters. -/
def Ends (rest : List Char) : Prop :=
  ∀ c ∈ rest.head?, isWord c = false

theorem startsNumber_lt {c : Char} (starts : startsNumber c = true) : c.toNat < 58 := by
  rw [startsNumber, Bool.or_eq_true, decide_eq_true_eq] at starts
  rcases starts with digit | rfl
  · rw [Char.isDigit, Bool.and_eq_true, decide_eq_true_eq, decide_eq_true_eq] at digit
    exact Nat.lt_succ_of_le digit.2
  · decide

theorem of_startsNumber {p : Char → Prop} (low : ∀ n < 58, p (Char.ofNat n)) {c : Char}
    (starts : startsNumber c = true) : p c := by
  have here := low c.toNat (startsNumber_lt starts)
  rwa [Char.ofNat_toNat] at here

theorem word_of_power {c : Char} (power : (c = 'e' || c = 'E') = true) : isWord c = true := by
  rw [Bool.or_eq_true, decide_eq_true_eq, decide_eq_true_eq] at power
  rcases power with rfl | rfl
  · decide +kernel
  · decide +kernel

/-- Where no word goes on, a number does not. -/
theorem numberTail_ends {rest : List Char} (ends : Ends rest) (powered : Bool) :
    numberTail powered rest = ([], rest) := by
  cases rest with
  | nil => rw [numberTail]
  | cons c cs =>
    have word : isWord c = false := ends c rfl
    have number : startsNumber c = false := (Bool.or_eq_false_iff.mp word).1
    have letter : (c = 'e' || c = 'E') = false := by
      cases power : (c = 'e' || c = 'E') with
      | false => rfl
      | true => rw [word_of_power power] at word; cases word
    unfold numberTail
    rw [number, letter]
    rfl

theorem numberTail_append_of_all {digits : List Char} (all : ∀ c ∈ digits, startsNumber c = true) (powered : Bool)
    (rest : List Char) :
    numberTail powered (digits ++ rest) =
      (digits ++ (numberTail powered rest).1, (numberTail powered rest).2) := by
  induction digits with
  | nil => rfl
  | cons c digits ih =>
    have others := ih fun other member => all other (List.mem_cons_of_mem _ member)
    rw [List.cons_append, numberTail.eq_def]
    simp only [all c (List.mem_cons_self ..), if_true, others, List.cons_append]

theorem digit_startsNumber {c : Char} (digit : c.isDigit = true) : startsNumber c = true := by
  rw [startsNumber, digit, Bool.true_or]

/-- A power of ten is read with its sign, as far as its digits go. -/
theorem numberTail_power {e : Char} (letter : e = 'e' ∨ e = 'E') {power : List Char} {k : Int}
    (read : Decimal.readPower? power = some k) {rest : List Char} (ends : Ends rest) :
    numberTail false (e :: power ++ rest) = (e :: power, rest) := by
  have notNumber : startsNumber e = false := by rcases letter with rfl | rfl <;> decide
  have mark : ((e = 'e' || e = 'E') && !false) = true := by rcases letter with rfl | rfl <;> decide
  have tail {digits : List Char} (all : digits.all Char.isDigit = true) :
      numberTail true (digits ++ rest) = (digits, rest) := by
    rw [numberTail_append_of_all (fun c member => digit_startsNumber (List.all_eq_true.mp all c member)),
      numberTail_ends ends, List.append_nil]
  rw [List.cons_append, numberTail.eq_def]
  simp only [notNumber, mark, if_true]
  unfold Decimal.readPower? at read
  split at read
  · split at read
    · rename_i digits all
      simp [tail all.2]
    · cases read
  · split at read
    · rename_i digits all
      simp [tail all.2]
    · cases read
  · rename_i minus plus
    split at read
    · rename_i all
      cases power with
      | nil => exact absurd rfl all.1
      | cons d digits =>
        have unsigned : ¬ (d = '+' ∨ d = '-') :=
          not_or.mpr ⟨fun same => plus digits (by rw [same]), fun same => minus digits (by rw [same])⟩
        have whole : numberTail true (d :: (digits ++ rest)) = (d :: digits, rest) := tail all.2
        simp [whole, unsigned]
    · cases read

/-- Behind its digits and points a literal has nothing or a power of ten. -/
def IsPower (tail : List Char) : Prop :=
  tail = [] ∨ ∃ e power k, tail = e :: power ∧ (e = 'e' ∨ e = 'E') ∧ Decimal.readPower? power = some k

/-- A power of ten is taken into the number, with its letter and its sign. -/
theorem numberTail_isPower {tail : List Char} (power : IsPower tail) {rest : List Char} (ends : Ends rest) :
    numberTail false (tail ++ rest) = (tail, rest) := by
  rcases power with rfl | ⟨e, power, k, rfl, letter, read⟩
  · exact numberTail_ends ends false
  · exact numberTail_power letter read ends

theorem isPower_of_read {tail : List Char} {plain : Option Decimal} {scaled : Int → Decimal} {d : Decimal}
    (read : (match tail with
      | [] => plain
      | c :: r => if c = 'e' ∨ c = 'E' then (Decimal.readPower? r).map scaled else none) = some d) :
    IsPower tail := by
  cases tail with
  | nil => exact .inl rfl
  | cons e power =>
    simp only at read
    split at read
    · rename_i letter
      obtain ⟨k, found, _⟩ := Option.map_eq_some_iff.mp read
      exact .inr ⟨e, power, k, rfl, letter, found⟩
    · cases read

theorem takeWhile_digits (cs : List Char) : ∀ c ∈ cs.takeWhile Char.isDigit, startsNumber c = true :=
  fun c member => digit_startsNumber (List.all_eq_true.mp List.all_takeWhile c member)

/-- The text of a number is digits and points, and then at most one power of ten. -/
theorem unsigned_shape {cs : List Char} {d : Decimal} (read : Decimal.readUnsigned? cs = some d) :
    ∃ lead tail, cs = lead ++ tail ∧ (∀ c ∈ lead, startsNumber c = true) ∧ IsPower tail := by
  have whole := List.takeWhile_append_dropWhile (p := Char.isDigit) (l := cs)
  unfold Decimal.readUnsigned? at read
  simp only at read
  split at read
  · rename_i behind point
    split at read
    · cases read
    · refine ⟨cs.takeWhile Char.isDigit ++ '.' :: behind.takeWhile Char.isDigit, behind.dropWhile Char.isDigit,
        ?_, ?_, isPower_of_read read⟩
      · rw [List.append_assoc, List.cons_append, List.takeWhile_append_dropWhile, ← point, whole]
      · intro c member
        rcases List.mem_append.mp member with digit | fraction
        · exact takeWhile_digits cs c digit
        · rcases List.mem_cons.mp fraction with rfl | digit
          · rfl
          · exact takeWhile_digits behind c digit
  · split at read
    · cases read
    · exact ⟨_, _, whole.symm, takeWhile_digits cs, isPower_of_read read⟩

/-- The scanner takes a literal whole. -/
theorem numberTail_literal {c : Char} {cs : List Char} (starts : startsNumber c = true) {d : Decimal}
    (read : Decimal.readUnsigned? (c :: cs) = some d) {rest : List Char} (ends : Ends rest) :
    numberTail false (cs ++ rest) = (cs, rest) := by
  obtain ⟨lead, tail, shape, all, power⟩ := unsigned_shape read
  cases lead with
  | nil =>
    rcases power with rfl | ⟨e, power, k, rfl, rfl | rfl, _⟩
    · cases shape
    · obtain ⟨rfl, _⟩ := List.cons.inj shape
      cases starts
    · obtain ⟨rfl, _⟩ := List.cons.inj shape
      cases starts
  | cons first lead =>
    obtain ⟨rfl, rfl⟩ := List.cons.inj shape
    have tailed := numberTail_isPower power ends
    change numberTail false (lead ++ tail ++ rest) = _
    rw [List.append_assoc, numberTail_append_of_all fun other member => all other (List.mem_cons_of_mem _ member),
      tailed]
    rfl

/-- What begins like a number is no sign and no name of a value. -/
theorem read?_literal {c : Char} {cs : List Char} (starts : startsNumber c = true) :
    Decimal.read? (c :: cs) = (Decimal.readUnsigned? (c :: cs)).map Decimal.toFloat := by
  have named : Decimal.readNamed? (c :: cs) = none := by
    obtain ⟨notI, notN⟩ :=
      of_startsNumber (p := fun c => c.toLower ≠ 'i' ∧ c.toLower ≠ 'n') (by decide +kernel) starts
    simp [Decimal.readNamed?, notI, notN]
  unfold Decimal.read?
  split
  · rename_i same
    obtain ⟨rfl, _⟩ := List.cons.inj same
    cases starts
  · rename_i same
    obtain ⟨rfl, _⟩ := List.cons.inj same
    cases starts
  · simp only [named, Option.none_or]

end Lexeme

end EulerFlow
