import EulerFlow.Run.Euler
import EulerFlow.Run.Horizon

namespace EulerFlow

/-- How far an integrator has come in its life. -/
inductive Phase where
  | idle
  | running
  | done
deriving DecidableEq

/-- What one run hands to the next: its settings, its stepper and how far it has come. -/
structure Integrator where
  settings : Settings
  stepper : Euler
  phase : Phase

/-- What a run that came to its end tells of itself. -/
structure Summary where
  /-- Rows behind the initial one. -/
  steps : Nat
  finalTime : Float

/-- What a run leaves behind. -/
structure Run (σ : Type) where
  integrator : Integrator
  valuation : Valuation
  receiver : σ
  notices : List Notice
  result : Except RunError Summary

/-- The values of the symbols of some equations; a symbol without a value has none to show at `t`. -/
def rowValues (v : Valuation) (t : Float) : List Ode → Except RunError (List Float)
  | [] => .ok []
  | ode :: odes =>
    match v.get ode.symbol with
    | .error cause => .error (.eval ode.symbol t cause)
    | .ok value => (rowValues v t odes).map (value :: ·)

/-- The row of a time: the time itself and the value of every symbol of the system. -/
def OdeSystem.row (s : OdeSystem) (v : Valuation) (t : Float) : Except RunError (List Float) :=
  (rowValues v t s.entries).map (t :: ·)

/-- A run between two rows. -/
structure Course (σ : Type) where
  stepper : Euler
  valuation : Valuation
  receiver : σ
  notices : Array Notice
  /-- Steps taken. -/
  steps : Nat
  /-- The time of the last row. -/
  time : Float

namespace Course

variable {σ : Type} [Receiver σ]

/-- One more step and its row. The row's time is counted from the start, so that
rounding does not add up; the clock follows once the row is accepted. -/
def advance (system : OdeSystem) (start dt : Float) (course : Course σ) : Course σ × Option RunError :=
  let ⟨stepper, valuation, receiver, notices, steps, time⟩ := course
  let next := start + Float.ofNat (steps + 1) * dt
  let ⟨stepper, valuation, warnings, fault?⟩ := stepper.step system (valuation.setTime time) time dt
  let notices := notices ++ warnings
  match fault? with
  | some fault => (⟨stepper, valuation, receiver, notices, steps, time⟩, some fault)
  | none =>
    match system.row valuation next with
    | .error fault => (⟨stepper, valuation, receiver, notices, steps, time⟩, some fault)
    | .ok row =>
      match Receiver.receive receiver (.row row) with
      | (receiver, some refusal) =>
        (⟨stepper, valuation, receiver, notices, steps, time⟩, some (.refused refusal))
      | (receiver, none) =>
        (⟨stepper, valuation.setTime next, receiver, notices.push (.delivered next row), steps + 1, next⟩,
          none)

/-- At most the given number of further steps. The first fault ends the run. -/
def drive (system : OdeSystem) (start dt : Float) : Nat → Course σ → Course σ × Option RunError
  | 0, course => (course, none)
  | remaining + 1, course =>
    match course.advance system start dt with
    | (course, some fault) => (course, some fault)
    | (course, none) => course.drive system start dt remaining

end Course

namespace Integrator

/-- An integrator that has not run yet. -/
def euler (settings : Settings) : Integrator where
  settings := settings
  stepper := { policy := settings.nonFinite }
  phase := .idle

/-- Runs from the clock of the valuation to the horizon. A run that does not get its
initial row accepted leaves the integrator and the valuation as they were; a later
failure keeps what the failing step had done. -/
def run {σ : Type} [Receiver σ] (integrator : Integrator) (system : OdeSystem) (v : Valuation)
    (receiver : σ) : Run σ :=
  let settings := integrator.settings
  match settings.fault? with
  | some fault => ⟨integrator, v, receiver, [], .error (.invalidSettings fault)⟩
  | none =>
    match Receiver.receive receiver (.header (clock :: system.symbols)) with
    | (receiver, some refusal) => ⟨integrator, v, receiver, [], .error (.refused refusal)⟩
    | (receiver, none) =>
      let start := v.time
      match system.row v start with
      | .error fault => ⟨integrator, v, receiver, [], .error fault⟩
      | .ok row =>
        match Receiver.receive receiver (.row row) with
        | (receiver, some refusal) => ⟨integrator, v, receiver, [], .error (.refused refusal)⟩
        | (receiver, none) =>
          let opening := Notice.started system.dimension start settings.maxtime settings.dt
          let total := settings.boundary.stepCount start settings.maxtime settings.dt
          let integrator := { integrator with phase := .running }
          let course : Course σ := ⟨integrator.stepper, v, receiver, #[opening], 0, start⟩
          let (course, fault?) := course.drive system start settings.dt total
          let integrator := { integrator with stepper := course.stepper, phase := .done }
          match fault? with
          | some fault =>
            ⟨integrator, course.valuation, course.receiver, course.notices.toList, .error fault⟩
          | none =>
            let closing := [.stopped course.time settings.maxtime, .finished course.steps course.time]
            ⟨integrator, course.valuation, course.receiver, course.notices.toList ++ closing,
              .ok ⟨course.steps, course.time⟩⟩

end Integrator

end EulerFlow
