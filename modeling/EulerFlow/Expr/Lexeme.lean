import EulerFlow.Decimal.Read
import EulerFlow.Expr.ParseError
import EulerFlow.Text.Alphabetic
import EulerFlow.Text.Blank
import EulerFlow.Text.Numeric

namespace EulerFlow

namespace Lexeme

/-- A number begins with a digit or with the point. -/
def startsNumber (c : Char) : Bool :=
  c.isDigit || c = '.'

/-- A name begins with a letter of any script or with an underscore. -/
def startsName (c : Char) : Bool :=
  Text.isAlphabetic c || c = '_'

/-- After its first character a name may have digits of any script too. -/
def continuesName (c : Char) : Bool :=
  Text.isAlphabetic c || Text.isNumeric c || c = '_'

/-- Splits off what continues a number: digits, points, and the first letter `e` with
the sign behind it. Whether the result reads as a number is not asked here. -/
def numberTail : (powered : Bool) → List Char → List Char × List Char
  | _, [] => ([], [])
  | powered, c :: cs =>
    if startsNumber c then
      let (tail, rest) := numberTail powered cs
      (c :: tail, rest)
    else if (c = 'e' || c = 'E') && !powered then
      match cs with
      | [] => ([c], [])
      | sign :: ds =>
        if sign = '+' || sign = '-' then
          let (tail, rest) := numberTail true ds
          (c :: sign :: tail, rest)
        else
          let (tail, rest) := numberTail true (sign :: ds)
          (c :: tail, rest)
    else ([], c :: cs)

theorem numberTail_append (powered : Bool) (cs : List Char) :
    (numberTail powered cs).1 ++ (numberTail powered cs).2 = cs := by
  fun_induction numberTail powered cs <;> simp_all

theorem numberTail_rest_le (powered : Bool) (cs : List Char) :
    (numberTail powered cs).2.length ≤ cs.length := by
  have whole := congrArg List.length (numberTail_append powered cs)
  rw [List.length_append] at whole
  omega

theorem nameRest_le (cs : List Char) : (cs.dropWhile continuesName).length ≤ cs.length :=
  (List.dropWhile_sublist continuesName).length_le

/-- The number of bytes that the characters take. -/
def bytes : List Char → Nat
  | [] => 0
  | c :: cs => c.utf8Size + bytes cs

/-- The tokens of a text whose first character stands at the given offset. Blanks
separate tokens and are dropped; otherwise each token is as long as it can be. -/
def scan (offset : Nat) : List Char → Except ParseError (List Token)
  | [] => .ok []
  | c :: cs =>
    if Text.isBlank c then scan (offset + c.utf8Size) cs
    else if startsNumber c then
      let literal := c :: (numberTail false cs).1
      match Decimal.read? literal with
      | none => .error (.invalidNumber (String.ofList literal))
      | some value => (scan (offset + bytes literal) (numberTail false cs).2).map (.number value :: ·)
    else if startsName c then
      let name := c :: cs.takeWhile continuesName
      (scan (offset + bytes name) (cs.dropWhile continuesName)).map (.identifier (String.ofList name) :: ·)
    else
      match Token.ofMark? c with
      | some token => (scan (offset + c.utf8Size) cs).map (token :: ·)
      | none => .error (.unexpectedChar c offset)
termination_by cs => cs.length
decreasing_by
  · simp
  · have := numberTail_rest_le false cs
    simp only [List.length_cons]
    omega
  · have := nameRest_le cs
    simp only [List.length_cons]
    omega
  · simp

end Lexeme

/-- The tokens of a text. -/
def tokenize (text : String) : Except ParseError (List Token) :=
  Lexeme.scan 0 text.toList

end EulerFlow
