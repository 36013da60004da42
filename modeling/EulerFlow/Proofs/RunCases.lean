import EulerFlow.Proofs.Sweep
import EulerFlow.Run.Integrator

namespace EulerFlow

variable {σ : Type}

namespace Course

/-- The step that a run takes next, from the time of its last row. -/
def stepped (system : OdeSystem) (dt : Float) (c : Course σ) : Stepped :=
  c.stepper.step system (c.valuation.setTime c.time) c.time dt

/-- A step sets the clock back to the time of the last row before it sweeps the equations. -/
theorem stepped_sweep (system : OdeSystem) (dt : Float) (c : Course σ) :
    ((c.stepped system dt).valuation, (c.stepped system dt).fault?) =
      sweep c.stepper.policy c.time dt (c.valuation.setTime c.time) system.entries :=
  c.stepper.step_sweep system (c.valuation.setTime c.time) c.time dt

/-- The time of the row that a run delivers next. -/
def next (start dt : Float) (c : Course σ) : Float :=
  start + Float.ofNat (c.steps + 1) * dt

/-- A run whose step was taken but led to no further row. -/
def stopped (system : OdeSystem) (dt : Float) (c : Course σ) (receiver : σ) : Course σ where
  stepper := (c.stepped system dt).stepper
  valuation := (c.stepped system dt).valuation
  receiver := receiver
  notices := c.notices ++ (c.stepped system dt).notices
  steps := c.steps
  time := c.time

/-- A run whose step was taken and whose row was accepted. -/
def moved (system : OdeSystem) (start dt : Float) (c : Course σ) (receiver : σ) (row : List Float) : Course σ where
  stepper := (c.stepped system dt).stepper
  valuation := (c.stepped system dt).valuation.setTime (c.next start dt)
  receiver := receiver
  notices := (c.notices ++ (c.stepped system dt).notices).push (.delivered (c.next start dt) row)
  steps := c.steps + 1
  time := c.next start dt

variable [Receiver σ]

/-- All that one step of a run can come to: a fault of the step itself, a row that cannot be
filled, a row that is refused, or one more row. -/
inductive Advance (system : OdeSystem) (start dt : Float) (c : Course σ) : Course σ → Option RunError → Prop
  | failed {fault} : (c.stepped system dt).fault? = some fault →
      Advance system start dt c (c.stopped system dt c.receiver) (some fault)
  | rowless {fault} : (c.stepped system dt).fault? = none →
      system.row (c.stepped system dt).valuation (c.next start dt) = .error fault →
      Advance system start dt c (c.stopped system dt c.receiver) (some fault)
  | refused {row receiver refusal} : (c.stepped system dt).fault? = none →
      system.row (c.stepped system dt).valuation (c.next start dt) = .ok row →
      Receiver.receive c.receiver (.row row) = (receiver, some refusal) →
      Advance system start dt c (c.stopped system dt receiver) (some (.refused refusal))
  | delivered {row receiver} : (c.stepped system dt).fault? = none →
      system.row (c.stepped system dt).valuation (c.next start dt) = .ok row →
      Receiver.receive c.receiver (.row row) = (receiver, none) →
      Advance system start dt c (c.moved system start dt receiver row) none

/-- The exits of a step one below the other. -/
theorem advance_eq (system : OdeSystem) (start dt : Float) (c : Course σ) :
    c.advance system start dt =
      match (c.stepped system dt).fault? with
      | some fault => (c.stopped system dt c.receiver, some fault)
      | none =>
        match system.row (c.stepped system dt).valuation (c.next start dt) with
        | .error fault => (c.stopped system dt c.receiver, some fault)
        | .ok row =>
          match Receiver.receive c.receiver (.row row) with
          | (receiver, some refusal) => (c.stopped system dt receiver, some (.refused refusal))
          | (receiver, none) => (c.moved system start dt receiver row, none) := rfl

theorem advance_cases (system : OdeSystem) (start dt : Float) (c : Course σ) :
    Advance system start dt c (c.advance system start dt).1 (c.advance system start dt).2 := by
  rw [advance_eq]
  split
  · rename_i fault failed
    exact .failed failed
  · rename_i went
    split
    · rename_i fault missing
      exact .rowless went missing
    · rename_i row filled
      split
      · rename_i receiver refusal answer
        exact .refused went filled answer
      · rename_i receiver answer
        exact .delivered went filled answer

/-- At most a number of steps, ended by the first fault. -/
inductive Drives (system : OdeSystem) (start dt : Float) : Nat → Course σ → Course σ → Option RunError → Prop
  | done {c} : Drives system start dt 0 c c none
  | fault {remaining c after fault} : Advance system start dt c after (some fault) →
      Drives system start dt (remaining + 1) c after (some fault)
  | next {remaining c middle after fault?} : Advance system start dt c middle none →
      Drives system start dt remaining middle after fault? →
      Drives system start dt (remaining + 1) c after fault?

theorem drive_cases {system : OdeSystem} {start dt : Float} {remaining : Nat} {c after : Course σ}
    {fault? : Option RunError} (run : c.drive system start dt remaining = (after, fault?)) :
    Drives system start dt remaining c after fault? := by
  induction remaining generalizing c with
  | zero =>
    cases run
    exact .done
  | succ remaining ih =>
    have step := c.advance_cases system start dt
    unfold drive at run
    split at run
    · rename_i middle fault advanced
      cases run
      rw [advanced] at step
      exact .fault step
    · rename_i middle advanced
      rw [advanced] at step
      exact .next step (ih run)

end Course

namespace Integrator

variable [Receiver σ]

/-- The number of steps that a run plans to take. -/
def total (integrator : Integrator) (v : Valuation) : Nat :=
  integrator.settings.boundary.stepCount v.time integrator.settings.maxtime integrator.settings.dt

/-- A run that ended before its first step: integrator and values are as before. -/
def rejected (integrator : Integrator) (v : Valuation) (receiver : σ) (fault : RunError) : Run σ :=
  ⟨integrator, v, receiver, [], .error fault⟩

/-- A run whose initial row was accepted. -/
def opened (integrator : Integrator) (system : OdeSystem) (v : Valuation) (receiver : σ) : Course σ where
  stepper := integrator.stepper
  valuation := v
  receiver := receiver
  notices := #[.started system.dimension v.time integrator.settings.maxtime integrator.settings.dt]
  steps := 0
  time := v.time

/-- A run that took steps, up to a fault or to the horizon. -/
def concluded (integrator : Integrator) (course : Course σ) : Option RunError → Run σ
  | some fault =>
    ⟨{ integrator with stepper := course.stepper, phase := .done }, course.valuation, course.receiver,
      course.notices.toList, .error fault⟩
  | none =>
    ⟨{ integrator with stepper := course.stepper, phase := .done }, course.valuation, course.receiver,
      course.notices.toList ++
        [.stopped course.time integrator.settings.maxtime, .finished course.steps course.time],
      .ok ⟨course.steps, course.time⟩⟩

/-- The exits of a run one below the other. -/
theorem run_eq (integrator : Integrator) (system : OdeSystem) (v : Valuation) (receiver : σ) :
    integrator.run system v receiver =
      match integrator.settings.fault? with
      | some fault => integrator.rejected v receiver (.invalidSettings fault)
      | none =>
        match Receiver.receive receiver (.header (clock :: system.symbols)) with
        | (after, some refusal) => integrator.rejected v after (.refused refusal)
        | (headed, none) =>
          match system.row v v.time with
          | .error fault => integrator.rejected v headed fault
          | .ok row =>
            match Receiver.receive headed (.row row) with
            | (after, some refusal) => integrator.rejected v after (.refused refusal)
            | (ready, none) =>
              match (integrator.opened system v ready).drive system v.time integrator.settings.dt
                (integrator.total v) with
              | (course, fault?) => integrator.concluded course fault? := rfl

/-- All that a run can come to. -/
inductive Runs (integrator : Integrator) (system : OdeSystem) (v : Valuation) (receiver : σ) : Run σ → Prop
  | invalid {fault} : integrator.settings.fault? = some fault →
      Runs integrator system v receiver (integrator.rejected v receiver (.invalidSettings fault))
  | headless {after refusal} : integrator.settings.fault? = none →
      Receiver.receive receiver (.header (clock :: system.symbols)) = (after, some refusal) →
      Runs integrator system v receiver (integrator.rejected v after (.refused refusal))
  | rowless {after fault} : integrator.settings.fault? = none →
      Receiver.receive receiver (.header (clock :: system.symbols)) = (after, none) →
      system.row v v.time = .error fault →
      Runs integrator system v receiver (integrator.rejected v after fault)
  | refused {headed after row refusal} : integrator.settings.fault? = none →
      Receiver.receive receiver (.header (clock :: system.symbols)) = (headed, none) →
      system.row v v.time = .ok row → Receiver.receive headed (.row row) = (after, some refusal) →
      Runs integrator system v receiver (integrator.rejected v after (.refused refusal))
  | driven {headed ready row course fault?} : integrator.settings.fault? = none →
      Receiver.receive receiver (.header (clock :: system.symbols)) = (headed, none) →
      system.row v v.time = .ok row → Receiver.receive headed (.row row) = (ready, none) →
      (integrator.opened system v ready).drive system v.time integrator.settings.dt (integrator.total v) =
        (course, fault?) →
      Runs integrator system v receiver (integrator.concluded course fault?)

theorem run_cases (integrator : Integrator) (system : OdeSystem) (v : Valuation) (receiver : σ) :
    Runs integrator system v receiver (integrator.run system v receiver) := by
  rw [run_eq]
  split
  · rename_i fault invalid
    exact .invalid invalid
  · rename_i valid
    split
    · rename_i after refusal answer
      exact .headless valid answer
    · rename_i headed answer
      split
      · rename_i fault missing
        exact .rowless valid answer missing
      · rename_i row filled
        split
        · rename_i after refusal rowAnswer
          exact .refused valid answer filled rowAnswer
        · rename_i ready rowAnswer
          exact .driven valid answer filled rowAnswer rfl

end Integrator

end EulerFlow
