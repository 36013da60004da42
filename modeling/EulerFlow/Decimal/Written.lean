import EulerFlow.Decimal.Shortest

namespace EulerFlow.Decimal

/-- How the digits of a number are laid out. -/
structure Style where
  /-- Whole numbers end in `.0` unless an exponent follows. -/
  pointZero : Bool
  /-- Whether a number whose leading digit stands for `10 ^ k` is written without an exponent. -/
  positional : Int → Bool

/-- Tables and messages: no exponent ever, and whole numbers without a point. -/
def Style.plain : Style where
  pointZero := false
  positional _ := true

/-- The journal: every number shows that it is fractional, by a point or by an
exponent, and an exponent is used below `10 ^ -4` and from `10 ^ 16` on. -/
def Style.journal : Style where
  pointZero := true
  positional k := decide (-4 ≤ k ∧ k < 16)

/-- Decimal digits of a natural number, without leading zeros. -/
def digitChars (n : Nat) : List Char :=
  Nat.toDigits 10 n

/-- The digits with the point in its place, padded with zeros as far as the point reaches. -/
def positional (pointZero : Bool) (d : Decimal) : List Char :=
  let digits := digitChars d.digits
  if 0 ≤ d.exponent then
    digits ++ List.replicate d.exponent.toNat '0' ++ (if pointZero then ['.', '0'] else [])
  else
    let places := (-d.exponent).toNat
    let padded := List.replicate (places + 1 - digits.length) '0' ++ digits
    padded.take (padded.length - places) ++ '.' :: padded.drop (padded.length - places)

/-- One digit before the point, none needed behind it, and the power of ten. -/
def scientific (d : Decimal) : List Char :=
  let digits := digitChars d.digits
  let power := d.exponent + digits.length - 1
  digits.take 1 ++ (if digits.length ≤ 1 then [] else '.' :: digits.drop 1) ++ 'e' :: (toString power).toList

/-- The digits of a decimal where the style wants them, with an exponent or without. -/
def layout (style : Style) (d : Decimal) : List Char :=
  if d.digits = 0 ∨ style.positional (d.exponent + (digitChars d.digits).length - 1) then
    d.positional style.pointZero
  else d.scientific

/-- The text of a double. The sign of zero shows, and there is one NaN. -/
def write (style : Style) (x : Float) : String :=
  if x.isNaN then "NaN"
  else
    let sign := if x.toBits >>> 63 = 1 then ['-'] else []
    let body := if x.isInf then "inf".toList else layout style (Binary.ofBits x.toBits).shortest
    String.ofList (sign ++ body)

/-- The text of a double in tables and messages. -/
def text (x : Float) : String :=
  write .plain x

end EulerFlow.Decimal
