namespace EulerFlow

/-- The operators that stand between two operands. -/
inductive BinaryOp where
  | add
  | sub
  | mul
  | div
  | pow
deriving DecidableEq

/-- Division by zero and powers without a real value follow the rules of binary
floating point: they give an infinity or NaN, never an error. -/
def BinaryOp.apply : BinaryOp → Float → Float → Float
  | .add, a, b => a + b
  | .sub, a, b => a - b
  | .mul, a, b => a * b
  | .div, a, b => a / b
  | .pow, a, b => a.pow b

/-- How an operator is written. -/
def BinaryOp.symbol : BinaryOp → String
  | .add => "+"
  | .sub => "-"
  | .mul => "*"
  | .div => "/"
  | .pow => "^"

/-- The operator that is written so, if there is one. -/
def BinaryOp.ofSymbol? : String → Option BinaryOp
  | "+" => some .add
  | "-" => some .sub
  | "*" => some .mul
  | "/" => some .div
  | "^" => some .pow
  | _ => none

/-- The signs that stand before an operand. -/
inductive UnaryOp where
  | plus
  | neg
deriving DecidableEq

/-- The value with the sign in front. -/
def UnaryOp.apply : UnaryOp → Float → Float
  | .plus, a => a
  | .neg, a => -a

/-- The sign that is written so, if there is one. -/
def UnaryOp.ofSymbol? : String → Option UnaryOp
  | "+" => some .plus
  | "-" => some .neg
  | _ => none

/-- The named functions. Each takes one argument. -/
inductive NamedFunction where
  | sin
  | cos
  | ln
  | exp
deriving DecidableEq

/-- The number of arguments: every function has one. -/
def NamedFunction.arity (_ : NamedFunction) : Nat := 1

/-- The value of a function at its argument. -/
def NamedFunction.apply : NamedFunction → Float → Float
  | .sin, a => a.sin
  | .cos, a => a.cos
  | .ln, a => a.log
  | .exp, a => a.exp

/-- The natural logarithm goes by two names. -/
def NamedFunction.ofName? : String → Option NamedFunction
  | "sin" => some .sin
  | "cos" => some .cos
  | "ln" | "log" => some .ln
  | "exp" => some .exp
  | _ => none

end EulerFlow
