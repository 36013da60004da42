import EulerFlow.Proofs.Faults
import EulerFlow.Proofs.Orbit
import EulerFlow.Proofs.Recorder

namespace EulerFlow

/-- A row fails for a symbol without a value, which keeps its equation from being applied as well. -/
theorem OdeSystem.row_error {system : OdeSystem} {v : Valuation} {t : Float} {fault : RunError}
    (missing : system.row v t = .error fault) :
    ∃ ode ∈ system.entries, ∃ cause ∈ ode.faults v.names, fault = .eval ode.symbol t cause := by
  unfold OdeSystem.row at missing
  generalize system.entries = odes at missing
  induction odes with
  | nil => cases missing
  | cons ode odes ih =>
    unfold rowValues Valuation.get at missing
    cases found : v.get? ode.symbol with
    | none =>
      simp only [found] at missing
      cases missing
      refine ⟨ode, List.mem_cons_self .., .undefinedVariable ode.symbol, ?_, rfl⟩
      rw [Ode.faults, if_neg (Valuation.get?_eq_none_iff.mp found)]
      exact List.mem_append_right _ (List.mem_singleton_self _)
    | some value =>
      simp only [found] at missing
      cases others : rowValues v t odes with
      | ok values =>
        rw [others] at missing
        cases missing
      | error other =>
        rw [others] at missing
        cases missing
        obtain ⟨earlier, member, faulty⟩ := ih (by rw [others]; rfl)
        exact ⟨earlier, List.mem_cons_of_mem _ member, faulty⟩

variable {σ : Type} {system : OdeSystem} {start dt : Float}

namespace Course

theorem stepped_names (c : Course σ) : (c.stepped system dt).valuation.names = c.valuation.names := by
  have names := sweep_names c.stepper.policy c.time dt (c.valuation.setTime c.time) system.entries
  rw [← c.stepped_sweep, Valuation.names_setTime] at names
  exact names

/-- A step that goes through shows that the equations can be applied, now and ever after. -/
theorem stepped_evaluable {c : Course σ} (went : (c.stepped system dt).fault? = none) :
    Evaluable c.valuation.names system.entries := by
  have evaluable := sweep_none ((congrArg Prod.snd (c.stepped_sweep system dt)).symm.trans went)
  rwa [Valuation.names_setTime] at evaluable

variable [Receiver σ]

theorem Advance.names {c after : Course σ} {fault? : Option RunError} (step : Advance system start dt c after fault?) :
    after.valuation.names = c.valuation.names := by
  cases step with
  | failed => exact c.stepped_names
  | rowless => exact c.stepped_names
  | refused => exact c.stepped_names
  | delivered => exact (Valuation.names_setTime _ _).trans c.stepped_names

theorem Advance.evaluable {c after : Course σ} (step : Advance system start dt c after none) :
    Evaluable after.valuation.names system.entries := by
  rw [step.names]
  cases step with
  | delivered went _ _ => exact stepped_evaluable went

/-- A step fails to evaluate before it offers a row. -/
theorem Advance.eval {c after : Course σ} {symbol : String} {time : Float} {cause : EvalError}
    (step : Advance system start dt c after (some (.eval symbol time cause))) :
    time = c.time ∧ after.receiver = c.receiver ∧
      ∃ ode ∈ system.entries, ode.symbol = symbol ∧ cause ∈ ode.faults c.valuation.names := by
  cases step with
  | failed failed =>
    obtain ⟨same, faulty⟩ := sweep_eval ((congrArg Prod.snd (c.stepped_sweep system dt)).symm.trans failed)
    rw [Valuation.names_setTime] at faulty
    exact ⟨same, rfl, faulty⟩
  | rowless went missing =>
    obtain ⟨ode, member, other, faulty, _⟩ := OdeSystem.row_error missing
    rw [c.stepped_names, stepped_evaluable went ode member] at faulty
    cases faulty

theorem Drives.names {remaining : Nat} {c after : Course σ} {fault? : Option RunError}
    (drives : Drives system start dt remaining c after fault?) : after.valuation.names = c.valuation.names := by
  induction drives with
  | done => rfl
  | fault step => exact step.names
  | next step _ ih => exact ih.trans step.names

theorem Drives.evaluable {remaining : Nat} {c after : Course σ} {fault? : Option RunError}
    (drives : Drives system start dt remaining c after fault?)
    (evaluable : Evaluable c.valuation.names system.entries) (symbol : String) (time : Float)
    (cause : EvalError) : fault? ≠ some (.eval symbol time cause) := by
  induction drives with
  | done => nofun
  | fault step =>
    rintro same
    cases same
    obtain ⟨_, _, ode, member, _, faulty⟩ := step.eval
    rw [evaluable ode member] at faulty
    cases faulty
  | next step _ ih => exact ih step.evaluable

/-- Only the first step of a drive can fail to evaluate. -/
theorem Drives.eval {remaining : Nat} {c after : Course σ} {symbol : String} {time : Float} {cause : EvalError}
    (drives : Drives system start dt remaining c after (some (.eval symbol time cause))) :
    time = c.time ∧ after.receiver = c.receiver ∧
      ∃ ode ∈ system.entries, ode.symbol = symbol ∧ cause ∈ ode.faults c.valuation.names := by
  cases drives with
  | fault step => exact step.eval
  -- a step that went through rules out that any later one fails like this
  | next step further => exact absurd rfl (further.evaluable step.evaluable symbol time cause)

/-- Faults of settings belong to the time before a run. -/
theorem Drives.settled {remaining : Nat} {c after : Course σ} {fault? : Option RunError}
    (drives : Drives system start dt remaining c after fault?) (cause : SettingsFault) :
    fault? ≠ some (.invalidSettings cause) := by
  induction drives with
  | done => nofun
  | @fault remaining c after fault step =>
    rintro same
    cases same
    cases step with
    | failed failed =>
      exact sweep_settled cause ((congrArg Prod.snd (c.stepped_sweep system dt)).symm.trans failed)
    | rowless _ missing =>
      obtain ⟨_, _, _, _, same⟩ := OdeSystem.row_error missing
      cases same
  | next _ _ ih => exact ih

end Course

variable [Receiver σ]

/-- A run defines no name and takes none back. -/
theorem Integrator.run_names (integrator : Integrator) (system : OdeSystem) (v : Valuation) (receiver : σ) :
    (integrator.run system v receiver).valuation.names = v.names := by
  have reached := integrator.run_cases system v receiver
  generalize integrator.run system v receiver = run at reached ⊢
  cases reached with
  | invalid => rfl
  | headless => rfl
  | rowless => rfl
  | refused => rfl
  | @driven _ _ _ course fault? _ _ _ _ drive =>
    have names := (Course.drive_cases drive).names
    cases fault? with
    | none => exact names
    | some fault => exact names

/-- The receivers that a run can leave behind before its first step. -/
inductive Unmoved (system : OdeSystem) (receiver : σ) : σ → Prop
  | header : Unmoved system receiver (Receiver.receive receiver (.header (clock :: system.symbols))).1
  | row {row} : Unmoved system receiver
      (Receiver.receive (Receiver.receive receiver (.header (clock :: system.symbols))).1 (.row row)).1

/-- A run fails to evaluate at its start or never. -/
theorem Integrator.run_eval {integrator : Integrator} {v : Valuation} {receiver : σ}
    {symbol : String} {time : Float} {cause : EvalError}
    (failed : (integrator.run system v receiver).result = .error (.eval symbol time cause)) :
    time = v.time ∧ Unmoved system receiver (integrator.run system v receiver).receiver ∧
      ∃ ode ∈ system.entries, ode.symbol = symbol ∧ cause ∈ ode.faults v.names := by
  have reached := integrator.run_cases system v receiver
  generalize integrator.run system v receiver = run at reached failed ⊢
  cases reached with
  | invalid => cases failed
  | headless => cases failed
  | refused => cases failed
  | @rowless headed fault _ answer missing =>
    cases failed
    obtain ⟨ode, member, other, faulty, same⟩ := OdeSystem.row_error missing
    cases same
    refine ⟨rfl, ?_, ode, member, rfl, faulty⟩
    have after : Unmoved system receiver _ := .header
    rwa [answer] at after
  | @driven headed ready row course fault? _ answer filled rowAnswer drive =>
    cases fault? with
    | none => cases failed
    | some fault =>
      cases failed
      obtain ⟨same, received, faulty⟩ := (Course.drive_cases drive).eval
      refine ⟨same, ?_, faulty⟩
      have after : Unmoved system receiver (Receiver.receive _ (.row row)).1 := .row
      rw [answer, rowAnswer] at after
      change Unmoved system receiver course.receiver
      rw [received]
      exact after

theorem Integrator.run_invalid {integrator : Integrator} {v : Valuation} {receiver : σ} {cause : SettingsFault}
    (failed : (integrator.run system v receiver).result = .error (.invalidSettings cause)) :
    (integrator.run system v receiver).receiver = receiver := by
  have reached := integrator.run_cases system v receiver
  generalize integrator.run system v receiver = run at reached failed ⊢
  cases reached with
  | invalid => rfl
  | headless => cases failed
  | refused => cases failed
  | rowless _ _ missing =>
    cases failed
    obtain ⟨_, _, _, _, same⟩ := OdeSystem.row_error missing
    cases same
  | @driven _ _ _ course fault? _ _ _ _ drive =>
    cases fault? with
    | none => cases failed
    | some fault =>
      cases failed
      exact absurd rfl ((Course.drive_cases drive).settled cause)

/-- It is a row and no header. -/
def Delivery.isRow : Delivery → Bool
  | .header _ => false
  | .row _ => true

theorem Unmoved.rows_le {receiver : σ} {after : Recorder σ}
    (unmoved : Unmoved system (⟨receiver, []⟩ : Recorder σ) after) : after.offered.countP Delivery.isRow ≤ 1 := by
  cases unmoved with
  | header => exact Nat.zero_le 1
  | row => exact Nat.le_refl 1

/-- A run fails to evaluate at its start time with at most its initial row delivered, or never. Once
the row of its first step is out, only a value that is not finite or a refusal can end it early. -/
theorem eval_failure_at_start (integrator : Integrator) (system : OdeSystem) (v : Valuation) (receiver : σ) :
    let run := integrator.run system v receiver
    let recorded := integrator.run system v (⟨receiver, []⟩ : Recorder σ)
    let rows := recorded.receiver.offered.countP Delivery.isRow
    run = recorded.view Recorder.receiver ∧
      (∀ symbol time cause, run.result = .error (.eval symbol time cause) → time = v.time ∧ rows ≤ 1) ∧
      (2 ≤ rows → (∃ summary, run.result = .ok summary) ∨
        (∃ symbol time, run.result = .error (.nonFinite symbol time)) ∨
        ∃ refusal, run.result = .error (.refused refusal)) := by
  intro run recorded rows
  have same : run = recorded.view Recorder.receiver :=
    integrator.run_view Recorder.mirrors system v ⟨receiver, []⟩
  have result : run.result = recorded.result := by rw [same]; rfl
  have atStart (symbol : String) (time : Float) (cause : EvalError)
      (failed : run.result = .error (.eval symbol time cause)) : time = v.time ∧ rows ≤ 1 := by
    obtain ⟨time, unmoved, _⟩ := Integrator.run_eval (result.symm.trans failed)
    exact ⟨time, unmoved.rows_le⟩
  refine ⟨same, atStart, fun moved => ?_⟩
  cases outcome : run.result with
  | ok summary => exact .inl ⟨summary, rfl⟩
  | error fault =>
    cases fault with
    | invalidSettings cause =>
      have unsent : recorded.receiver = ⟨receiver, []⟩ := Integrator.run_invalid (result.symm.trans outcome)
      have none : rows = 0 := by simp only [rows, unsent, List.countP_nil]
      omega
    | eval symbol time cause => have := atStart symbol time cause outcome; omega
    | nonFinite symbol time => exact .inr (.inl ⟨symbol, time, rfl⟩)
    | refused refusal => exact .inr (.inr ⟨refusal, rfl⟩)

end EulerFlow
