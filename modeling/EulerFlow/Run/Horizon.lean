import EulerFlow.Run.Settings

namespace EulerFlow

/-- Numbers in which the way to a horizon can be counted in steps. -/
class HorizonNumber (α : Type) extends Add α, Sub α, Mul α, Div α where
  one : α
  /-- The relative distance within which a grid point counts as on the horizon. -/
  tolerance : α
  /-- The distance from zero, but at least one. -/
  magnitude : α → α
  floor : α → α
  ceil : α → α
  /-- The number of whole steps: nothing below zero, and never more than `2 ^ 64 - 1`. -/
  count : α → Nat

/-- The number of steps from `start` to `horizon`. The tolerance makes a grid point
that rounding puts just before the horizon count as on it. -/
def Boundary.stepCount {α : Type} [HorizonNumber α] (boundary : Boundary) (start horizon step : α) : Nat :=
  let ratio := (horizon - start) / step
  let slack := HorizonNumber.tolerance * HorizonNumber.magnitude ratio
  match boundary with
  | .exclusive => HorizonNumber.count (HorizonNumber.ceil (ratio - slack))
  | .inclusive => HorizonNumber.count (HorizonNumber.floor (ratio + slack) + HorizonNumber.one)

/-- The greatest whole double that is not above `x`. From `2 ^ 52` on every double is whole,
and below it the truncated magnitude is exact. -/
def wholeBelow (x : Float) : Float :=
  let size := x.abs
  if size < 4503599627370496 then
    let whole := size.toUInt64.toFloat
    if 0 ≤ x then whole else if whole < size then -(whole + 1) else -whole
  else x

/-- The least whole double that is not below `x`. -/
def wholeAbove (x : Float) : Float :=
  -wholeBelow (-x)

instance : HorizonNumber Float where
  one := 1
  tolerance := 1e-9
  magnitude x := if 1 < x.abs then x.abs else 1
  floor := wholeBelow
  ceil := wholeAbove
  count x := x.toUInt64.toNat

end EulerFlow
