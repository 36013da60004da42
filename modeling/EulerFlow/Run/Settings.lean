import EulerFlow.Decimal.Written

namespace EulerFlow

/-- Whether a run takes a last step from a grid point that lies on the horizon. -/
inductive Boundary where
  | exclusive
  | inclusive
deriving DecidableEq

/-- What becomes of a run in which a value is no longer finite. -/
inductive NonFinitePolicy where
  | propagate
  | abort
deriving DecidableEq

/-- How far to integrate and in which steps, with the values that hold if nothing else is said. -/
structure Settings where
  maxtime : Float := 5
  dt : Float := 0.1
  boundary : Boundary := .exclusive
  nonFinite : NonFinitePolicy := .propagate

/-- What is wrong with settings that no run accepts. -/
inductive SettingsFault where
  | badStep (dt : Float)
  | badHorizon (maxtime : Float)
deriving DecidableEq

/-- The message of the fault, with the number that is not accepted. -/
def SettingsFault.message : SettingsFault → String
  | .badStep dt => "dt must be positive and finite, got " ++ Decimal.text dt
  | .badHorizon maxtime => "maxtime must be finite, got " ++ Decimal.text maxtime

/-- Why no run can use the settings. A bad step is found before a bad horizon. -/
def Settings.fault? (s : Settings) : Option SettingsFault :=
  if !s.dt.isFinite || s.dt ≤ 0 then some (.badStep s.dt)
  else if !s.maxtime.isFinite then some (.badHorizon s.maxtime)
  else none

end EulerFlow
