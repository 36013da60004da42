import EulerFlow.Decimal.Binary

namespace EulerFlow.Decimal

/-- The double nearest to the decimal; of two equally near ones the one with an even mantissa. -/
def toFloat (d : Decimal) : Float :=
  Float.ofScientific d.digits (decide (d.exponent < 0)) d.exponent.natAbs

/-- The number written by a string of digits. -/
def digitsValue (digits : List Char) : Nat :=
  digits.foldl (fun n c => 10 * n + (c.toNat - '0'.toNat)) 0

/-- The power of ten behind the mark `e`: an optional sign and at least one digit. -/
def readPower? : List Char → Option Int
  | '-' :: cs => if cs ≠ [] ∧ cs.all Char.isDigit then some (-(digitsValue cs : Int)) else none
  | '+' :: cs => if cs ≠ [] ∧ cs.all Char.isDigit then some (digitsValue cs) else none
  | cs => if cs ≠ [] ∧ cs.all Char.isDigit then some (digitsValue cs) else none

/-- Digits with at most one point among them, which may lead or trail, and an
optional power of ten. One digit must stand before the power. -/
def readUnsigned? (cs : List Char) : Option Decimal :=
  let whole := cs.takeWhile Char.isDigit
  let (fraction, rest) := match cs.dropWhile Char.isDigit with
    | '.' :: r => (r.takeWhile Char.isDigit, r.dropWhile Char.isDigit)
    | r => ([], r)
  if whole = [] ∧ fraction = [] then none
  else
    let scaled (power : Int) : Decimal := ⟨digitsValue (whole ++ fraction), power - fraction.length⟩
    match rest with
    | [] => some (scaled 0)
    | c :: r => if c = 'e' ∨ c = 'E' then (readPower? r).map scaled else none

/-- The names of the values that have no digits, in any mixture of case. -/
def readNamed? (cs : List Char) : Option Float :=
  let name := cs.map Char.toLower
  if name = "inf".toList ∨ name = "infinity".toList then some (1 / 0)
  else if name = "nan".toList then some (0 / 0)
  else none

/-- A double written in decimal: an optional sign, then digits or a name. -/
def read? (cs : List Char) : Option Float :=
  let magnitude? (r : List Char) := (readNamed? r).or ((readUnsigned? r).map toFloat)
  match cs with
  | '-' :: r => (magnitude? r).map fun x => -x
  | '+' :: r => magnitude? r
  | r => magnitude? r

end EulerFlow.Decimal
