import EulerFlow.Proofs.RunCases

namespace EulerFlow

/-- One receiver seen through another: the same answers, and states that keep in step. -/
def Mirrors {τ σ : Type} [Receiver τ] [Receiver σ] (view : τ → σ) : Prop :=
  ∀ (receiver : τ) (d : Delivery), Receiver.receive (view receiver) d =
    (view (Receiver.receive receiver d).1, (Receiver.receive receiver d).2)

/-- The course with its receiver seen in another way. -/
def Course.view {τ σ : Type} (view : τ → σ) (c : Course τ) : Course σ :=
  ⟨c.stepper, c.valuation, view c.receiver, c.notices, c.steps, c.time⟩

/-- The run with its receiver seen in another way. -/
def Run.view {τ σ : Type} (view : τ → σ) (run : Run τ) : Run σ :=
  ⟨run.integrator, run.valuation, view run.receiver, run.notices, run.result⟩

section

variable {τ σ : Type} [Receiver τ] [Receiver σ] {view : τ → σ} (mirrors : Mirrors view)

include mirrors

/-- A step treats two receivers alike that answer alike. -/
theorem Course.advance_view (system : OdeSystem) (start dt : Float) (c : Course τ) :
    (c.view view).advance system start dt =
      ((c.advance system start dt).1.view view, (c.advance system start dt).2) := by
  obtain ⟨stepper, valuation, receiver, notices, steps, time⟩ := c
  unfold Course.advance Course.view
  simp only
  cases (stepper.step system (valuation.setTime time) time dt).fault? with
  | some fault => rfl
  | none =>
    simp only
    cases system.row (stepper.step system (valuation.setTime time) time dt).valuation
      (start + Float.ofNat (steps + 1) * dt) with
    | error fault => rfl
    | ok row =>
      simp only [mirrors receiver (.row row)]
      cases Receiver.receive receiver (.row row) with
      | mk after refusal? => cases refusal? <;> rfl

theorem Course.drive_view (system : OdeSystem) (start dt : Float) (remaining : Nat) (c : Course τ) :
    (c.view view).drive system start dt remaining =
      ((c.drive system start dt remaining).1.view view, (c.drive system start dt remaining).2) := by
  induction remaining generalizing c with
  | zero => rfl
  | succ remaining ih =>
    unfold Course.drive
    rw [Course.advance_view mirrors]
    cases c.advance system start dt with
    | mk after fault? =>
      cases fault? with
      | some fault => rfl
      | none => exact ih after

/-- A run does not look at its receiver except through the answers. -/
theorem Integrator.run_view (integrator : Integrator) (system : OdeSystem) (v : Valuation) (receiver : τ) :
    integrator.run system v (view receiver) = (integrator.run system v receiver).view view := by
  rw [Integrator.run_eq, Integrator.run_eq]
  cases integrator.settings.fault? with
  | some fault => rfl
  | none =>
    simp only [mirrors receiver (.header (clock :: system.symbols))]
    rcases Receiver.receive receiver (.header (clock :: system.symbols)) with ⟨headed, _ | refusal⟩
    · cases system.row v v.time with
      | error fault => rfl
      | ok row =>
        simp only [mirrors headed (.row row)]
        rcases Receiver.receive headed (.row row) with ⟨ready, _ | refusal⟩
        · have opened : integrator.opened system v (view ready) = (integrator.opened system v ready).view view := rfl
          simp only [opened, Course.drive_view mirrors]
          rcases (integrator.opened system v ready).drive system v.time integrator.settings.dt
            (integrator.total v) with ⟨course, _ | fault⟩
          · rfl
          · rfl
        · rfl
    · rfl

end

/-- A receiver of any kind, so that runs into different kinds of receivers can stand in one list. -/
structure AnyReceiver : Type 1 where
  State : Type
  receiving : Receiver State
  state : State

attribute [instance] AnyReceiver.receiving

/-- A receiver together with everything that it was offered, accepted or not. -/
structure Recorder (σ : Type) where
  receiver : σ
  offered : List Delivery

instance {σ : Type} [Receiver σ] : Receiver (Recorder σ) where
  receive recorder d :=
    let (receiver, refusal?) := Receiver.receive recorder.receiver d
    (⟨receiver, recorder.offered ++ [d]⟩, refusal?)

theorem Recorder.mirrors {σ : Type} [Receiver σ] : Mirrors (Recorder.receiver : Recorder σ → σ) :=
  fun _ _ => rfl

end EulerFlow
