import EulerFlow.Proofs.Outcome

namespace EulerFlow

theorem Orbit.Outcome.ok {o : Orbit} {total : Nat} {ds : List Delivery} {summary : Summary} {after : Valuation}
    (outcome : o.Outcome total ds (.ok summary) after) :
    (∀ j < total, o.fault? j = none) ∧ after = (o.state total).setTime (o.time total) ∧
      summary = ⟨total, o.time total⟩ := by
  cases outcome with
  | reached faultless => exact ⟨faultless, rfl, rfl⟩

namespace Integrator

variable {σ : Type} [Receiver σ]

/-- Nothing but a refusal can keep the run from its horizon. -/
structure Reaches (integrator : Integrator) (system : OdeSystem) (v : Valuation) : Prop where
  valid : integrator.settings.fault? = none
  defined : ∀ symbol ∈ system.symbols, symbol ∈ v.names
  faultless : ∀ j < integrator.total v, (integrator.orbit system v).fault? j = none

/-- What a run to the horizon leaves: its result and the values. -/
structure Arrived (integrator : Integrator) (system : OdeSystem) (v : Valuation) (run : Run σ) : Prop where
  result : run.result = .ok ⟨integrator.total v, (integrator.orbit system v).time (integrator.total v)⟩
  valuation : run.valuation =
    ((integrator.orbit system v).state (integrator.total v)).setTime
      ((integrator.orbit system v).time (integrator.total v))

variable {integrator : Integrator} {system : OdeSystem} {v : Valuation}

theorem Reaches.tape (reaches : integrator.Reaches system v) :
    integrator.deliveries system v = (integrator.orbit system v).deliveries (integrator.total v) ∧
      integrator.Arrived system v (integrator.run system v Tape.empty) := by
  have outcome := integrator.run_outcome reaches.valid reaches.defined
  obtain ⟨calls, result, values⟩ := outcome.unique (.reached reaches.faultless)
  exact ⟨calls, result, values⟩

/-- What comes to its end on a tape does so into every receiver that accepts all. -/
theorem Reaches.run (reaches : integrator.Reaches system v) (accepting : Accepting σ) (receiver : σ) :
    integrator.Arrived system v (integrator.run system v receiver) ∧
      (integrator.run system v receiver).receiver = deliverAll receiver (integrator.deliveries system v) := by
  obtain ⟨received, result, values⟩ := integrator.run_accepting accepting system v receiver
  obtain ⟨_, arrived⟩ := reaches.tape
  exact ⟨⟨result.trans arrived.result, values.trans arrived.valuation⟩, received⟩

/-- A run that succeeds was refused nothing, and none of its steps failed. -/
theorem reaches_of_ok {receiver : σ} {summary : Summary}
    (succeeded : (integrator.run system v receiver).result = .ok summary) :
    integrator.Reaches system v ∧ integrator.Arrived system v (integrator.run system v receiver) := by
  obtain ⟨valid, row, filled⟩ : integrator.settings.fault? = none ∧ ∃ row, system.row v v.time = .ok row := by
    have reached := integrator.run_cases system v receiver
    generalize integrator.run system v receiver = run at reached succeeded
    cases reached with
    | invalid => cases succeeded
    | headless => cases succeeded
    | rowless => cases succeeded
    | refused => cases succeeded
    | driven valid _ filled => exact ⟨valid, _, filled⟩
  have defined := OdeSystem.row_defined filled
  obtain ⟨_, refused, whole⟩ := integrator.run_cut system v receiver
  cases answer : (offer receiver (integrator.deliveries system v)).2 with
  | some refusal =>
    obtain ⟨failed, _⟩ := refused refusal answer
    cases succeeded.symm.trans failed
  | none =>
    obtain ⟨result, values⟩ := whole answer
    have outcome : (integrator.orbit system v).Outcome (integrator.total v) (integrator.deliveries system v)
      (integrator.run system v Tape.empty).result (integrator.run system v Tape.empty).valuation :=
      integrator.run_outcome valid defined
    rw [← result, ← values, succeeded] at outcome
    obtain ⟨faultless, after, same⟩ := outcome.ok
    exact ⟨⟨valid, defined, faultless⟩, succeeded.trans (congrArg Except.ok same), after⟩

end Integrator

end EulerFlow
