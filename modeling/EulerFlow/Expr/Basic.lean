namespace EulerFlow

/-- An expression as it was written or built. Operators and functions are kept by
name, whether or not the name means anything: only evaluation asks. -/
inductive Expr where
  | constant (value : Float)
  | symbol (name : String)
  | binary (left : Expr) (op : String) (right : Expr)
  | unary (op : String) (operand : Expr)
  | call (name : String) (args : List Expr)

mutual

/-- The variables of the expression from left to right, as often as they occur. -/
def Expr.symbols : Expr → List String
  | .constant _ => []
  | .symbol name => [name]
  | .binary left _ right => left.symbols ++ right.symbols
  | .unary _ operand => operand.symbols
  | .call _ args => Expr.symbolsOf args

/-- The symbols of several expressions, one after another. -/
def Expr.symbolsOf : List Expr → List String
  | [] => []
  | arg :: args => arg.symbols ++ Expr.symbolsOf args

end

end EulerFlow
