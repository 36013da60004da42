namespace EulerFlow

/-- A non-negative decimal, `digits * 10 ^ exponent`. -/
structure Decimal where
  digits : Nat
  exponent : Int
deriving DecidableEq

namespace Decimal

/-- A non-negative binary value, `mantissa * 2 ^ exponent`. -/
structure Binary where
  mantissa : Nat
  exponent : Int
  /-- The gap to the neighbour below is half the gap to the neighbour above. -/
  narrowBelow : Bool
deriving DecidableEq

/-- The magnitude of a finite double, read off its bits. Only the first value of
a binade above the subnormal one has a narrow gap below it. -/
def Binary.ofBits (bits : UInt64) : Binary :=
  let scale := ((bits >>> 52) &&& 0x7FF).toNat
  let fraction := (bits &&& 0xFFFFFFFFFFFFF).toNat
  if scale = 0 then ⟨fraction, -1074, false⟩
  else ⟨4503599627370496 + fraction, (scale : Int) - 1075, fraction = 0 && scale > 1⟩

/-- Exact comparison of `digits * 10 ^ exponent` with `mantissa * 2 ^ scale`. -/
def compareBinary (d : Decimal) (mantissa : Nat) (scale : Int) : Ordering :=
  compare ((d.digits * Nat.pow 10 d.exponent.toNat) <<< (-scale).toNat)
    ((mantissa <<< scale.toNat) * Nat.pow 10 (-d.exponent).toNat)

/-- The decimal lies among the reals that round to this value. They reach halfway
to both neighbours, and the ends belong to them exactly if the mantissa is even. -/
def Binary.rounds (x : Binary) (d : Decimal) : Bool :=
  let below := d.compareBinary (if x.narrowBelow then 4 * x.mantissa - 1 else 4 * x.mantissa - 2)
    (x.exponent - 2)
  let above := d.compareBinary (4 * x.mantissa + 2) (x.exponent - 2)
  let closed := x.mantissa % 2 = 0
  (below = .gt || (closed && below = .eq)) && (above = .lt || (closed && above = .eq))

end Decimal

end EulerFlow
