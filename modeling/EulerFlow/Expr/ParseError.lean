import EulerFlow.Expr.Token

namespace EulerFlow

/-- What the grammar had room for where another token stood. -/
inductive Expectation where
  | endOfInput
  | operand
  | closing
  | commaOrClosing
deriving DecidableEq

/-- What a message calls that which was expected. -/
def Expectation.describe : Expectation → String
  | .endOfInput => "end of input"
  | .operand => "an operand"
  | .closing => Token.closing.describe
  | .commaOrClosing => Token.comma.describe ++ " or " ++ Token.closing.describe

/-- The deepest nesting of parentheses, signs, exponents and arguments in a text. -/
def maxDepth : Nat := 200

/-- Why a text is no expression. Offsets count bytes. -/
inductive ParseError where
  | unexpectedChar (c : Char) (offset : Nat)
  | invalidNumber (literal : String)
  | expected (wanted : Expectation) (found : Token)
  | unexpectedEnd
  | tooDeep
deriving DecidableEq

/-- The message of the error. Tokens are described as they would be written. -/
def ParseError.message : ParseError → String
  | .unexpectedChar c offset =>
    "unexpected character '" ++ c.toString ++ "' at offset " ++ toString offset
  | .invalidNumber literal => "invalid number literal: " ++ literal
  | .expected wanted found => "expected " ++ wanted.describe ++ ", found " ++ found.describe
  | .unexpectedEnd => "unexpected end of input"
  | .tooDeep => "expression nested deeper than " ++ toString maxDepth ++ " levels"

end EulerFlow
