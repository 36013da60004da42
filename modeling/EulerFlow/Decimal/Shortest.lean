import EulerFlow.Decimal.Binary

namespace EulerFlow.Decimal

/-- The least power of ten above a positive value. The binary logarithm gives it
up to two, and exact comparisons settle the rest. -/
def Binary.decade (x : Binary) : Int :=
  let guess := ((x.mantissa.log2 : Int) + x.exponent) * 30103 / 100000
  let above (k : Int) : Bool := (⟨1, k⟩ : Decimal).compareBinary x.mantissa x.exponent = .gt
  if above guess then guess else if above (guess + 1) then guess + 1 else guess + 2

/-- The multiple of `10 ^ unit` that reads back as the value, if there is one. Only
the two neighbours of the value on that grid can; of two the closer is taken, and
of two equally close ones the upper. -/
def Binary.onGrid (x : Binary) (unit : Int) : Option Decimal :=
  let num := (x.mantissa <<< x.exponent.toNat) * Nat.pow 10 (-unit).toNat
  let den := Nat.pow 10 unit.toNat <<< (-x.exponent).toNat
  let lower : Decimal := ⟨num / den, unit⟩
  let upper : Decimal := ⟨num / den + 1, unit⟩
  match x.rounds lower, x.rounds upper with
  | true, true => some (if 2 * num < (2 * (num / den) + 1) * den then lower else upper)
  | true, false => some lower
  | false, true => some upper
  | false, false => none

/-- The value itself: a binary fraction always ends in base ten. -/
def Binary.exact (x : Binary) : Decimal :=
  if 0 ≤ x.exponent then ⟨x.mantissa <<< x.exponent.toNat, 0⟩
  else ⟨x.mantissa * Nat.pow 5 (-x.exponent).toNat, x.exponent⟩

/-- Moves one trailing zero of the digits into the exponent for each unit of fuel. -/
def trimWith : Nat → Decimal → Decimal
  | 0, d => d
  | fuel + 1, d =>
    if d.digits ≠ 0 ∧ d.digits % 10 = 0 then trimWith fuel ⟨d.digits / 10, d.exponent + 1⟩ else d

/-- The same decimal without trailing zeros in its digits. -/
def trim (d : Decimal) : Decimal :=
  trimWith d.digits.log2 d

/-- The fewest digits that read back as the value: grids are tried from the leading
digit downwards, and seventeen digits always tell a double from its neighbours. -/
def Binary.shortest (x : Binary) : Decimal :=
  if x.mantissa = 0 then ⟨0, 0⟩
  else
    let decade := x.decade
    let candidate := (List.range 17).findSome? fun (n : Nat) => x.onGrid (decade - 1 - n)
    (candidate.getD x.exact).trim

end EulerFlow.Decimal
