import EulerFlow.Expr.Basic
import EulerFlow.Expr.Vocabulary
import EulerFlow.Valuation

namespace EulerFlow

/-- The value of an expression. Operands are evaluated from left to right before
their operator is looked up; a function is looked up, and its arguments are
counted, before the argument is evaluated. -/
def Expr.eval (v : Valuation) : Expr → Except EvalError Float
  | .constant value => .ok value
  | .symbol name => v.get name
  | .binary left op right =>
    match left.eval v with
    | .error fault => .error fault
    | .ok a =>
      match right.eval v with
      | .error fault => .error fault
      | .ok b =>
        match BinaryOp.ofSymbol? op with
        | some known => .ok (known.apply a b)
        | none => .error (.unknownOperator .binary op)
  | .unary op operand =>
    match operand.eval v with
    | .error fault => .error fault
    | .ok a =>
      match UnaryOp.ofSymbol? op with
      | some known => .ok (known.apply a)
      | none => .error (.unknownOperator .unary op)
  | .call name args =>
    match NamedFunction.ofName? name with
    | none => .error (.unknownFunction name)
    | some known =>
      match args with
      | [arg] =>
        match arg.eval v with
        | .error fault => .error fault
        | .ok a => .ok (known.apply a)
      | _ => .error (.arityMismatch name known.arity args.length)

end EulerFlow
