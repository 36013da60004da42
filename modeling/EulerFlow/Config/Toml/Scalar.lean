import EulerFlow.Config.Toml.Quoted
import EulerFlow.Config.Value
import EulerFlow.Decimal.Read

namespace EulerFlow.Config.Toml

/-- The characters of a scalar that stands without quotes. -/
def isBare (c : Char) : Bool :=
  c.isAlphanum || c = '_' || c = '-' || c = '+' || c = '.' || c = ':'

/-- Digits with single underscores between them; the underscores are dropped. -/
def digitsFrom? (isDigit : Char → Bool) : (afterDigit : Bool) → List Char → Option (List Char)
  | afterDigit, [] => if afterDigit then some [] else none
  | afterDigit, c :: cs =>
    if isDigit c then (digitsFrom? isDigit true cs).map (c :: ·)
    else if c = '_' ∧ afterDigit then digitsFrom? isDigit false cs
    else none

/-- Digits with single underscores between them, as the digits alone. -/
def digits? (isDigit : Char → Bool) (cs : List Char) : Option (List Char) :=
  digitsFrom? isDigit false cs

/-- Decimal digits in which no zero leads, unless it stands alone. -/
def wholeDigits? (cs : List Char) : Option (List Char) := do
  let digits ← digits? Char.isDigit cs
  if digits.head? = some '0' ∧ 1 < digits.length then none else some digits

/-- Whether a minus sign stands in front, and what follows the sign. -/
def unsign : List Char → Bool × List Char
  | '-' :: cs => (true, cs)
  | '+' :: cs => (false, cs)
  | cs => (false, cs)

/-- An integer in base ten, sixteen, eight or two. Only the first carries a sign. Within range is
what a word of 128 bits holds, signed or unsigned. -/
def integer? (cs : List Char) : Option Value :=
  let inBase (base : Nat) (ds : List Char) : Option Int := do
    let isDigit (c : Char) : Bool := (hexDigit? c).any (· < base)
    let digits ← digits? isDigit ds
    return digits.foldl (fun n c => base * n + (hexDigit? c).getD 0) 0
  let value := match cs with
    | '0' :: 'x' :: ds => inBase 16 ds
    | '0' :: 'o' :: ds => inBase 8 ds
    | '0' :: 'b' :: ds => inBase 2 ds
    | _ =>
      let (negative, ds) := unsign cs
      (wholeDigits? ds).map fun digits =>
        if negative then -(Decimal.digitsValue digits : Int) else Decimal.digitsValue digits
  value.map fun n => if n.toNat.log2 < 128 ∧ (-n - 1).toNat.log2 < 127 then .integer n else .overflow

/-- A float: digits with a fraction, a power of ten or both, or one of the special names.
Within range is what a double holds without becoming infinite. -/
def float? (cs : List Char) : Option Value := do
  let (negative, body) := unsign cs
  let signed (magnitude : Float) : Value := .float (if negative then -magnitude else magnitude)
  if body = "inf".toList then return signed (1 / 0)
  if body = "nan".toList then return signed (0 / 0)
  let isMark (c : Char) : Bool := c = 'e' || c = 'E'
  let mantissa := body.takeWhile (!isMark ·)
  let whole ← wholeDigits? (mantissa.takeWhile (· ≠ '.'))
  let fraction ← match mantissa.dropWhile (· ≠ '.') with
    | [] => some []
    | _ :: ds => (digits? Char.isDigit ds).map ('.' :: ·)
  let power ← match body.dropWhile (!isMark ·) with
    | [] => some []
    | _ :: ds =>
      let (negative, ds) := unsign ds
      (digits? Char.isDigit ds).map fun ds => 'e' :: (if negative then '-' :: ds else ds)
  if fraction = [] ∧ power = [] then none
  else
    let magnitude ← Decimal.read? (whole ++ fraction ++ power)
    return if magnitude.isFinite then signed magnitude else .overflow

/-- Two digits whose number lies between the bounds. -/
def pair? (low high : Nat) : List Char → Option (Nat × List Char)
  | a :: b :: cs =>
    let n := Decimal.digitsValue [a, b]
    if a.isDigit ∧ b.isDigit ∧ low ≤ n ∧ n ≤ high then some (n, cs) else none
  | _ => none

/-- A date of the calendar. -/
def date? : List Char → Option (List Char)
  | a :: b :: c :: d :: '-' :: cs => do
    if [a, b, c, d].any fun c => !c.isDigit then none
    let year := Decimal.digitsValue [a, b, c, d]
    let (month, cs) ← pair? 1 12 cs
    let cs ← match cs with
      | '-' :: cs => some cs
      | _ => none
    let leap := year % 4 = 0 && (year % 100 ≠ 0 || year % 400 = 0)
    let days := if month = 2 then (if leap then 29 else 28) else if [4, 6, 9, 11].contains month then 30 else 31
    let (_, cs) ← pair? 1 days cs
    return cs
  | _ => none

/-- A time of day. The seconds may be left out, and may have a fraction if they are there. -/
def time? (cs : List Char) : Option (List Char) := do
  let colon : List Char → Option (List Char)
    | ':' :: cs => some cs
    | _ => none
  let (_, cs) ← pair? 0 23 cs
  let (_, cs) ← pair? 0 59 (← colon cs)
  match colon cs with
  | none => some cs
  | some cs =>
    let (_, cs) ← pair? 0 60 cs
    match cs with
    | '.' :: ds => if ds.takeWhile Char.isDigit = [] then none else some (ds.dropWhile Char.isDigit)
    | _ => some cs

/-- The offset of a time from universal time, if there is one. -/
def offset? : List Char → Option (List Char)
  | 'Z' :: cs | 'z' :: cs => some cs
  | '+' :: cs | '-' :: cs => do
    let (_, cs) ← pair? 0 23 cs
    match cs with
    | ':' :: cs => (pair? 0 59 cs).map Prod.snd
    | _ => none
  | cs => some cs

/-- A date, a time of day, or both with an optional offset. -/
def moment? (cs : List Char) : Option (List Char) :=
  match date? cs with
  | none => time? cs
  | some rest =>
    match rest with
    | 'T' :: ds | 't' :: ds => time? ds >>= offset?
    | ' ' :: d :: ds => if d.isDigit then time? (d :: ds) >>= offset? else some rest
    | _ => some rest

/-- A scalar without quotes. -/
def bare? (cs : List Char) : Option (Value × List Char) :=
  match moment? cs with
  | some rest => if rest.head?.any isBare then none else some (.moment, rest)
  | none =>
    let word := cs.takeWhile isBare
    let value :=
      if word = "true".toList then some (.bool true)
      else if word = "false".toList then some (.bool false)
      else (integer? word).or (float? word)
    value.map (·, cs.dropWhile isBare)

end EulerFlow.Config.Toml
