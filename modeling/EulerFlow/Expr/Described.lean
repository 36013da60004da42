import EulerFlow.Decimal.Written
import EulerFlow.Expr.Basic
import EulerFlow.Text.Quoted

namespace EulerFlow

mutual

/-- The tree of an expression on one line, node by node. -/
def Expr.describe : Expr → String
  | .constant value => "Constant(" ++ Decimal.write .journal value ++ ")"
  | .symbol name => "Variable(" ++ Text.quoted name ++ ")"
  | .binary left op right =>
    "Binary(" ++ left.describe ++ ", " ++ Text.quoted op ++ ", " ++ right.describe ++ ")"
  | .unary op operand => "Unary(" ++ Text.quoted op ++ ", " ++ operand.describe ++ ")"
  | .call name args =>
    "Call(" ++ Text.quoted name ++ ", [" ++ ", ".intercalate (Expr.describeAll args) ++ "])"

/-- The descriptions of several expressions. -/
def Expr.describeAll : List Expr → List String
  | [] => []
  | arg :: args => arg.describe :: Expr.describeAll args

end

end EulerFlow
