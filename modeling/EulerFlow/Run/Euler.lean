import EulerFlow.Expr.Eval
import EulerFlow.Journal
import EulerFlow.OdeSystem
import EulerFlow.Run.RunError

namespace EulerFlow

/-- The explicit Euler method. It warns of the first non-finite value only. -/
structure Euler where
  policy : NonFinitePolicy
  warned : Bool := false

/-- Where the updates of a step have led, whether or not one of them failed. -/
structure Stepped where
  stepper : Euler
  valuation : Valuation
  notices : List Notice
  fault? : Option RunError

namespace Euler

/-- Moves one symbol along its derivative. A value that stops the run has been written. -/
def update (s : Euler) (v : Valuation) (t dt : Float) (ode : Ode) : Stepped :=
  match ode.equation.eval v with
  | .error cause => ⟨s, v, [], some (.eval ode.symbol t cause)⟩
  | .ok derivative =>
    match v.add ode.symbol (derivative * dt) with
    | .error cause => ⟨s, v, [], some (.eval ode.symbol t cause)⟩
    | .ok (v, value) =>
      if value.isFinite then ⟨s, v, [], none⟩
      else
        match s.policy with
        | .abort => ⟨s, v, [], some (.nonFinite ode.symbol (t + dt))⟩
        | .propagate =>
          if s.warned then ⟨s, v, [], none⟩
          else ⟨{ s with warned := true }, v, [.becameNonFinite ode.symbol value (t + dt)], none⟩

/-- The updates of a list of equations in order. Each derivative sees the values that
the updates before it have written, and the first fault ends the step. -/
def updates (s : Euler) (v : Valuation) (t dt : Float) : List Ode → Stepped
  | [] => ⟨s, v, [], none⟩
  | ode :: odes =>
    let first := s.update v t dt ode
    match first.fault? with
    | some _ => first
    | none =>
      let others := first.stepper.updates first.valuation t dt odes
      { others with notices := first.notices ++ others.notices }

/-- One step from `t` to `t + dt`. The clock is not moved. -/
def step (s : Euler) (system : OdeSystem) (v : Valuation) (t dt : Float) : Stepped :=
  s.updates v t dt system.entries

end Euler

end EulerFlow
