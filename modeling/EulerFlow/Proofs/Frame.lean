import EulerFlow.Proofs.Agreement
import EulerFlow.Proofs.EvalFailure
import EulerFlow.Proofs.Updates

namespace EulerFlow

/-- The names that a run reads: the clock, the symbols, and what their equations mention. -/
def OdeSystem.Mentions (system : OdeSystem) (name : String) : Prop :=
  name = clock ∨ name ∈ system.symbols ∨ ∃ ode ∈ system.entries, name ∈ ode.equation.symbols

/-- Whatever a system reads or writes it mentions. -/
theorem OdeSystem.within_mentions (system : OdeSystem) : ∀ ode ∈ system.entries, ode.Within system.Mentions :=
  fun ode member =>
    ⟨.inr (.inl (List.mem_map_of_mem member)), fun _ mentioned => .inr (.inr ⟨ode, member, mentioned⟩)⟩

/-- The names that a run does not write: all but the clock and the symbols. -/
def OdeSystem.Spares (system : OdeSystem) (name : String) : Prop :=
  name ≠ clock ∧ name ∉ system.symbols

theorem Valuation.Agree.trans {shared : String → Prop} {u v w : Valuation} (agree : u.Agree shared v)
    (further : v.Agree shared w) : u.Agree shared w :=
  fun name member => (agree name member).trans (further name member)

variable {σ : Type} {system : OdeSystem} {start dt : Float}

theorem Valuation.setTime_spares (v : Valuation) (t : Float) : (v.setTime t).Agree system.Spares v :=
  fun name spared => (v.get?_setTime t name).trans (if_neg spared.1)

namespace Course

theorem stepped_spares (c : Course σ) : (c.stepped system dt).valuation.Agree system.Spares c.valuation := by
  refine Valuation.Agree.trans ?_ (c.valuation.setTime_spares c.time)
  intro name spared
  have still := sweep_get? c.stepper.policy c.time dt (c.valuation.setTime c.time) spared.2
  rwa [← c.stepped_sweep] at still

variable [Receiver σ]

/-- Whatever a step comes to, it has written to the clock and the symbols only. -/
theorem Advance.spares {c after : Course σ} {fault? : Option RunError} (step : Advance system start dt c after fault?) :
    after.valuation.Agree system.Spares c.valuation := by
  cases step with
  | failed => exact c.stepped_spares
  | rowless => exact c.stepped_spares
  | refused => exact c.stepped_spares
  | delivered => exact (Valuation.setTime_spares _ _).trans c.stepped_spares

/-- None of the steps of a run writes a name that the system spares. -/
theorem Drives.spares {remaining : Nat} {c after : Course σ} {fault? : Option RunError}
    (drives : Drives system start dt remaining c after fault?) : after.valuation.Agree system.Spares c.valuation := by
  induction drives with
  | done => exact fun _ _ => rfl
  | fault step => exact step.spares
  | next step _ ih => exact ih.trans step.spares

end Course

namespace Integrator

variable [Receiver σ] {integrator : Integrator} {v : Valuation} {receiver : σ}

theorem run_spares (integrator : Integrator) (system : OdeSystem) (v : Valuation) (receiver : σ) :
    (integrator.run system v receiver).valuation.Agree system.Spares v := by
  have reached := integrator.run_cases system v receiver
  generalize integrator.run system v receiver = run at reached ⊢
  cases reached with
  | invalid => exact fun _ _ => rfl
  | headless => exact fun _ _ => rfl
  | rowless => exact fun _ _ => rfl
  | refused => exact fun _ _ => rfl
  | @driven _ _ _ course fault? _ _ _ _ drive =>
    rw [(integrator.concluded_view course fault?).2]
    exact (Course.drive_cases drive).spares

/-- What keeps a run from taking any step: its settings, its header, its initial row, or a horizon
that is reached at the start. -/
inductive Rests (integrator : Integrator) (system : OdeSystem) (v : Valuation) (receiver : σ) : Prop
  | invalid {fault} : integrator.settings.fault? = some fault → Rests integrator system v receiver
  | headless {after refusal} : Receiver.receive receiver (.header (clock :: system.symbols)) = (after, some refusal) →
      Rests integrator system v receiver
  | rowless {fault} : system.row v v.time = .error fault → Rests integrator system v receiver
  | refused {headed after row refusal} :
      Receiver.receive receiver (.header (clock :: system.symbols)) = (headed, none) →
      system.row v v.time = .ok row → Receiver.receive headed (.row row) = (after, some refusal) →
      Rests integrator system v receiver
  | stepless : integrator.total v = 0 → Rests integrator system v receiver

theorem Rests.run_valuation (rests : integrator.Rests system v receiver) :
    (integrator.run system v receiver).valuation = v := by
  have reached := integrator.run_cases system v receiver
  generalize integrator.run system v receiver = run at reached ⊢
  cases reached with
  | invalid => rfl
  | headless => rfl
  | rowless => rfl
  | refused => rfl
  | @driven headed ready row course fault? valid header filled answer drive =>
    -- the start was accepted, so only a horizon without steps is left
    cases rests with
    | invalid invalid => cases valid.symm.trans invalid
    | headless refused => cases header.symm.trans refused
    | rowless missing => cases filled.symm.trans missing
    | refused header' filled' refused =>
      cases header.symm.trans header'
      cases filled.symm.trans filled'
      cases answer.symm.trans refused
    | stepless none =>
      rw [none] at drive
      cases drive
      rfl

end Integrator

/-- A run reads and writes no names but those of its system. From valuations that agree on the clock, the
symbols and the variables of the equations it offers the same deliveries to its receiver, comes to the same
result and leaves valuations that agree as well. However it ends it has defined no name and taken none back, and
all values but those of the clock and the symbols are as before; if it took no step, all of them are. -/
theorem run_keeps_to_names [Receiver σ] (integrator : Integrator) (system : OdeSystem) (v : Valuation)
    (receiver : σ) :
    let offers (v : Valuation) := (integrator.run system v (⟨receiver, []⟩ : Recorder σ)).receiver.offered
    let run := integrator.run system v receiver
    (∀ w : Valuation, v.Agree system.Mentions w →
      let other := integrator.run system w receiver
      offers v = offers w ∧ run.receiver = other.receiver ∧ run.result = other.result ∧
        run.valuation.Agree system.Mentions other.valuation) ∧
      run.valuation.names = v.names ∧
      (∀ name, name ≠ clock → name ∉ system.symbols → run.valuation.get? name = v.get? name) ∧
      (integrator.Rests system v receiver → run.valuation = v) := by
  intro offers run
  refine ⟨fun w agree => ?_, integrator.run_names system v receiver, ?_, fun rests => rests.run_valuation⟩
  · have within := system.within_mentions
    obtain ⟨recorded, _⟩ := integrator.run_agree within (.inl rfl) agree (⟨receiver, []⟩ : Recorder σ)
    exact ⟨congrArg Recorder.offered recorded, integrator.run_agree within (.inl rfl) agree receiver⟩
  · intro name notClock notSymbol
    exact integrator.run_spares system v receiver name ⟨notClock, notSymbol⟩

end EulerFlow
