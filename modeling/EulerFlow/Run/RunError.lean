import EulerFlow.Expr.EvalError
import EulerFlow.Run.Settings
import EulerFlow.Table.Delivery

namespace EulerFlow

/-- Why a run ended early. -/
inductive RunError where
  | invalidSettings (fault : SettingsFault)
  | eval (symbol : String) (time : Float) (cause : EvalError)
  | nonFinite (symbol : String) (time : Float)
  | refused (cause : Refusal)
deriving DecidableEq

namespace RunError

/-- The message of the error. What caused it has a message of its own. -/
def message : RunError → String
  | .invalidSettings fault => "invalid integrator settings: " ++ fault.message
  | .eval symbol time _ => "failed to evaluate d" ++ symbol ++ "/dt at t = " ++ Decimal.text time
  | .nonFinite symbol time => symbol ++ " became non-finite at t = " ++ Decimal.text time
  | .refused _ => "failed to write output row"

/-- The messages from the outermost to the innermost cause. -/
def chain (e : RunError) : List String :=
  e.message :: match e with
    | .eval _ _ cause => [cause.message]
    | .refused cause => [cause.reason]
    | _ => []

end RunError

end EulerFlow
