namespace EulerFlow

/-- The places where an operator can stand. -/
inductive OperatorPlace where
  | unary
  | binary
deriving DecidableEq

/-- What a message calls the place. -/
def OperatorPlace.word : OperatorPlace → String
  | .unary => "unary"
  | .binary => "binary"

/-- Why an expression has no value. -/
inductive EvalError where
  | unknownOperator (place : OperatorPlace) (op : String)
  | unknownFunction (name : String)
  | arityMismatch (name : String) (expected got : Nat)
  | undefinedVariable (name : String)
deriving DecidableEq

/-- The message of the error, by the names that caused it. -/
def EvalError.message : EvalError → String
  | .unknownOperator place op => "unknown " ++ place.word ++ " operator: " ++ op
  | .unknownFunction name => "unknown function: " ++ name
  | .arityMismatch name expected got =>
    "function " ++ name ++ " expects " ++ toString expected ++ " argument(s), got " ++ toString got
  | .undefinedVariable name => "undefined variable: " ++ name

end EulerFlow
