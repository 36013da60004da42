import EulerFlow.Decimal.Written

namespace EulerFlow

/-- The words of the expression language. -/
inductive Token where
  | number (value : Float)
  | identifier (name : String)
  | plus
  | minus
  | star
  | slash
  | caret
  | opening
  | closing
  | comma
deriving DecidableEq

namespace Token

/-- The token of a character that stands for itself. -/
def ofMark? : Char → Option Token
  | '+' => some .plus
  | '-' => some .minus
  | '*' => some .star
  | '/' => some .slash
  | '^' => some .caret
  | '(' => some .opening
  | ')' => some .closing
  | ',' => some .comma
  | _ => none

/-- How a message names the token. -/
def describe : Token → String
  | .number value => "number " ++ Decimal.text value
  | .identifier name => "identifier '" ++ name ++ "'"
  | .plus => "'+'"
  | .minus => "'-'"
  | .star => "'*'"
  | .slash => "'/'"
  | .caret => "'^'"
  | .opening => "'('"
  | .closing => "')'"
  | .comma => "','"

end Token

end EulerFlow
