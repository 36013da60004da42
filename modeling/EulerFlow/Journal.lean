import EulerFlow.Expr.Described

namespace EulerFlow

/-- How serious a notice is. -/
inductive Level where
  | error
  | warn
  | info
  | debug
  | trace
deriving DecidableEq

namespace Level

/-- Lower ranks are more severe. -/
def rank : Level → Nat
  | .error => 1
  | .warn => 2
  | .info => 3
  | .debug => 4
  | .trace => 5

/-- How a line of the journal names the level. -/
def word : Level → String
  | .error => "ERROR"
  | .warn => "WARN"
  | .info => "INFO"
  | .debug => "DEBUG"
  | .trace => "TRACE"

end Level

/-- How much of a journal is kept. -/
inductive Verbosity where
  | off
  | upTo (level : Level)
deriving DecidableEq

namespace Verbosity

/-- Whether notices of a level are shown. -/
def admits : Verbosity → Level → Bool
  | .off, _ => false
  | .upTo limit, level => level.rank ≤ limit.rank

/-- A verbosity by name, in any mixture of case. -/
def ofName? (name : String) : Option Verbosity :=
  match String.ofList (name.toList.map Char.toLower) with
  | "off" => some .off
  | "error" => some (.upTo .error)
  | "warn" => some (.upTo .warn)
  | "info" => some (.upTo .info)
  | "debug" => some (.upTo .debug)
  | "trace" => some (.upTo .trace)
  | _ => none

end Verbosity

/-- What a model and its runs put on record. -/
inductive Notice where
  | declared (name : String)
  | registered (symbol : String) (equation : Expr)
  | started (dimension : Nat) (start horizon step : Float)
  | becameNonFinite (symbol : String) (value time : Float)
  | delivered (time : Float) (row : List Float)
  | stopped (time horizon : Float)
  | finished (steps : Nat) (time : Float)
  | wroteRows (rows : Nat)

namespace Notice

/-- How serious each kind of notice is. -/
def level : Notice → Level
  | .declared .. => .debug
  | .registered .. => .debug
  | .started .. => .info
  | .becameNonFinite .. => .warn
  | .delivered .. => .trace
  | .stopped .. => .debug
  | .finished .. => .info
  | .wroteRows .. => .info

/-- What the line of a notice says behind its level. -/
def text : Notice → String
  | .declared name => "declared variable " ++ name
  | .registered symbol equation => "registered d" ++ symbol ++ "/dt = " ++ equation.describe
  | .started dimension start horizon step =>
    "integrating " ++ toString dimension ++ " ODE(s) from t = " ++ Decimal.text start ++ " to " ++
      Decimal.text horizon ++ " with dt = " ++ Decimal.text step
  | .becameNonFinite symbol value time =>
    symbol ++ " became " ++ Decimal.text value ++ " at t = " ++ Decimal.text time
  | .delivered time row =>
    "t = " ++ Decimal.text time ++ " -> [" ++ ", ".intercalate (row.map (Decimal.write .journal)) ++ "]"
  | .stopped time horizon =>
    "clock stopped at t = " ++ Decimal.text time ++ " (maxtime = " ++ Decimal.text horizon ++ ")"
  | .finished steps time =>
    "integration finished after " ++ toString steps ++ " step(s) at t = " ++ Decimal.text time
  | .wroteRows rows => "wrote " ++ toString rows ++ " row(s)"

/-- The line of a notice: its level and its text. -/
def line (n : Notice) : String :=
  n.level.word ++ " " ++ n.text

end Notice

end EulerFlow
