import EulerFlow.Expr.Parse
import EulerFlow.Run.Integrator
import EulerFlow.Table.TextTable

namespace EulerFlow

/-- A simulation: the current values, the equations and the settings of its runs. -/
structure Model where
  valuation : Valuation
  system : OdeSystem
  settings : Settings

namespace Model

/-- A model without equations, at time zero. -/
def new (settings : Settings) : Model where
  valuation := .initial
  system := .empty
  settings := settings

/-- Declares names that an expression is about to mention. Names already defined keep
their values. -/
def declare (m : Model) : List String → Model × List Notice
  | [] => (m, [])
  | name :: names =>
    let (valuation, new) := m.valuation.declare name
    let (m, notices) := declare { m with valuation := valuation } names
    (m, if new then .declared name :: notices else notices)

/-- The variable of that name, declared. -/
def mention (m : Model) (name : String) : Expr × Model × List Notice :=
  (.symbol name, m.declare [name])

/-- The expression of a text, with all its variables declared. -/
def parse (m : Model) (text : String) : Except ParseError (Expr × Model × List Notice) :=
  match Expr.parse text with
  | .error fault => .error fault
  | .ok expr => .ok (expr, m.declare expr.symbols)

/-- Gives a symbol its value, whether or not an equation mentions it. -/
def initial (m : Model) (symbol : String) (value : Float) : Model :=
  { m with valuation := m.valuation.set symbol value }

/-- Registers an equation. Its symbol starts at zero unless it has a value already. -/
def ode (m : Model) (symbol : String) (equation : Expr) : Model × List Notice :=
  let m := if m.valuation.contains symbol then m else m.initial symbol 0
  ({ m with system := m.system.insert symbol equation }, [.registered symbol equation])

/-- Runs with an integrator of its own, from the current values on. -/
def run {σ : Type} [Receiver σ] (m : Model) (receiver : σ) : Model × Run σ :=
  let run := (Integrator.euler m.settings).run m.system m.valuation receiver
  ({ m with valuation := run.valuation }, run)

/-- Runs into a text table. -/
def execute (m : Model) (capacity : Option Nat) : Model × Run TextTable :=
  m.run (TextTable.empty capacity)

end Model

end EulerFlow
