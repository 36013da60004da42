import EulerFlow.Proofs.Orbit
import EulerFlow.Proofs.RunCases
import EulerFlow.Table.Trajectory

namespace EulerFlow

variable {σ : Type} [Receiver σ]

/-- A run after row `k` of its orbit has been accepted. -/
structure Course.Follows (o : Orbit) (receiver : σ) (k : Nat) (c : Course σ) : Prop where
  policy : c.stepper.policy = o.policy
  steps : c.steps = k
  time : c.time = o.time k
  valuation : c.valuation = (o.state k).setTime (o.time k)
  received : c.receiver = deliverAll receiver (o.deliveries k)
  faultless : ∀ j < k, o.fault? j = none

/-- A run that came to its last row, or to the first fault of its orbit before. -/
inductive Orbit.Ended (o : Orbit) (receiver : σ) (total : Nat) (c : Course σ) : Option RunError → Prop
  | reached : c.Follows o receiver total → Ended o receiver total c none
  | failed {k fault} : k < total → (∀ j < k, o.fault? j = none) → o.fault? k = some fault →
      c.receiver = deliverAll receiver (o.deliveries k) → c.valuation = o.state (k + 1) →
      Ended o receiver total c (some fault)

namespace Course.Follows

variable {o : Orbit} {receiver : σ} {k : Nat} {c after : Course σ}

theorem stepped (follows : c.Follows o receiver k) :
    ((c.stepped o.system o.dt).valuation, (c.stepped o.system o.dt).fault?) = (o.state (k + 1), o.fault? k) := by
  rw [c.stepped_sweep, follows.policy, follows.time, follows.valuation, Valuation.setTime_setTime]
  rfl

theorem next (follows : c.Follows o receiver k) : c.next o.start.time o.dt = o.time (k + 1) := by
  rw [Course.next, follows.steps, Orbit.time]

/-- A step whose row is accepted is a step of the orbit, whatever the receiver may refuse later. -/
theorem delivered (follows : c.Follows o receiver k) (defined : ∀ symbol ∈ o.system.symbols, symbol ∈ o.start.names)
    (step : Advance o.system o.start.time o.dt c after none) : o.fault? k = none ∧ after.Follows o receiver (k + 1) := by
  obtain ⟨values, outcome⟩ := Prod.mk.inj follows.stepped
  have row : o.system.row (o.state (k + 1)) (o.time (k + 1)) = .ok (o.row (k + 1)) :=
    OdeSystem.row_eq (by rwa [o.state_names]) _
  cases step with
  | @delivered shown ready went filled answer =>
    rw [values, follows.next, row] at filled
    cases filled
    have faultless : o.fault? k = none := by rw [← outcome, went]
    refine ⟨faultless, ?_⟩
    constructor
    · exact (c.stepper.updates_policy _ _ _ _).trans follows.policy
    · rw [Course.moved, follows.steps]
    · exact follows.next
    · rw [Course.moved, values, follows.next]
    · rw [o.deliveries_succ, deliverAll_append, ← follows.received, answer]
      rfl
    · intro j before
      rcases Nat.lt_succ_iff_lt_or_eq.mp before with earlier | rfl
      · exact follows.faultless j earlier
      · exact faultless

/-- One step of a run is one step of its orbit. -/
theorem advance (follows : c.Follows o receiver k) (accepting : Accepting σ)
    (defined : ∀ symbol ∈ o.system.symbols, symbol ∈ o.start.names) {fault? : Option RunError}
    (step : Advance o.system o.start.time o.dt c after fault?) :
    fault? = o.fault? k ∧
      match fault? with
      | none => after.Follows o receiver (k + 1)
      | some _ => after.receiver = c.receiver ∧ after.valuation = o.state (k + 1) := by
  obtain ⟨values, outcome⟩ := Prod.mk.inj follows.stepped
  have row : o.system.row (o.state (k + 1)) (o.time (k + 1)) = .ok (o.row (k + 1)) :=
    OdeSystem.row_eq (by rwa [o.state_names]) _
  cases step with
  | failed failed => exact ⟨by rw [← outcome, failed], rfl, values⟩
  -- steps keep all names, so their rows can be filled
  | rowless went missing =>
    rw [values, follows.next, row] at missing
    cases missing
  | @refused shown ready refusal went filled answer =>
    have accepted := accepting c.receiver (.row shown)
    rw [answer] at accepted
    cases accepted
  | delivered went filled answer =>
    obtain ⟨faultless, further⟩ := follows.delivered defined (.delivered went filled answer)
    exact ⟨faultless.symm, further⟩

/-- A drive follows the orbit from row to row until the steps are done or one of them fails. -/
theorem drive (follows : c.Follows o receiver k) (accepting : Accepting σ)
    (defined : ∀ symbol ∈ o.system.symbols, symbol ∈ o.start.names) {remaining : Nat}
    {fault? : Option RunError} (drives : Drives o.system o.start.time o.dt remaining c after fault?) :
    o.Ended receiver (k + remaining) after fault? := by
  induction drives generalizing k with
  | done => exact .reached follows
  | @fault remaining c after fault step =>
    obtain ⟨outcome, received, values⟩ := follows.advance accepting defined step
    exact .failed (by omega) follows.faultless outcome.symm (received.trans follows.received) values
  | @next remaining c middle after fault? step _ ih =>
    obtain ⟨_, further⟩ := follows.advance accepting defined step
    have ended := ih further
    rwa [Nat.add_right_comm] at ended

end Course.Follows

/-- The orbit that an integrator sets out on. -/
def Integrator.orbit (integrator : Integrator) (system : OdeSystem) (v : Valuation) : Orbit where
  system := system
  policy := integrator.stepper.policy
  dt := integrator.settings.dt
  start := v

theorem Integrator.opened_follows (integrator : Integrator) (system : OdeSystem) (v : Valuation)
    {receiver ready : σ} (received : ready = deliverAll receiver ((integrator.orbit system v).deliveries 0)) :
    (integrator.opened system v ready).Follows (integrator.orbit system v) receiver 0 where
  policy := rfl
  steps := rfl
  time := rfl
  valuation := v.setTime_time.symm
  received := received
  faultless := fun j before => absurd before (Nat.not_lt_zero j)

/-- Into a receiver that never refuses, a run that may start at all gets past its initial row. -/
theorem Integrator.run_driven (accepting : Accepting σ) {integrator : Integrator} {system : OdeSystem}
    {v : Valuation} (valid : integrator.settings.fault? = none)
    (defined : ∀ symbol ∈ system.symbols, symbol ∈ v.names) (receiver : σ) :
    ∃ course fault?, (integrator.orbit system v).Ended receiver (integrator.total v) course fault? ∧
      integrator.run system v receiver = integrator.concluded course fault? := by
  have row := OdeSystem.row_eq defined v.time
  have reached := integrator.run_cases system v receiver
  generalize integrator.run system v receiver = run at reached ⊢
  cases reached with
  | invalid invalid =>
    rw [valid] at invalid
    cases invalid
  | @headless after refusal _ answer =>
    have accepted := accepting receiver (.header (clock :: system.symbols))
    rw [answer] at accepted
    cases accepted
  | rowless _ _ missing =>
    rw [row] at missing
    cases missing
  | @refused headed after shown refusal _ _ _ answer =>
    have accepted := accepting headed (.row shown)
    rw [answer] at accepted
    cases accepted
  | @driven headed ready shown course fault? _ header filled answer drive =>
    rw [row] at filled
    cases filled
    refine ⟨course, fault?, ?_, rfl⟩
    have received : ready = deliverAll receiver ((integrator.orbit system v).deliveries 0) := by
      simp only [Orbit.deliveries_zero, Integrator.orbit, deliverAll, List.foldl_cons, List.foldl_nil,
        header, answer]
    have begun := integrator.opened_follows system v received
    have ended := begun.drive accepting defined (Course.drive_cases drive)
    rwa [Nat.zero_add] at ended

/-- A run is the orbit of its integrator: it delivers the header and the rows of the orbit up to the
first step that fails or to the horizon, and leaves what the orbit left there. -/
theorem run_follows_orbit (accepting : Accepting σ) (integrator : Integrator) (system : OdeSystem)
    (v : Valuation) (receiver : σ) (valid : integrator.settings.fault? = none)
    (defined : ∀ symbol ∈ system.symbols, v.contains symbol = true) :
    let o := integrator.orbit system v
    let total := integrator.total v
    let run := integrator.run system v receiver
    ∃ k ≤ total, (∀ j < k, o.fault? j = none) ∧ run.receiver = deliverAll receiver (o.deliveries k) ∧
      ((k = total ∧ run.result = .ok ⟨total, o.time total⟩ ∧
          run.valuation = (o.state total).setTime (o.time total) ∧ run.valuation.time = o.time total ∧
          ∀ i symbol, system.symbols[i]? = some symbol → symbol ≠ clock →
            (o.row total)[i + 1]? = run.valuation.get? symbol) ∨
        (k < total ∧ ∃ fault, o.fault? k = some fault ∧ run.result = .error fault ∧
          run.valuation = o.state (k + 1))) := by
  intro o total run
  have named : ∀ symbol ∈ system.symbols, symbol ∈ v.names :=
    fun symbol member => Valuation.contains_iff.mp (defined symbol member)
  obtain ⟨course, fault?, ended, same⟩ := Integrator.run_driven accepting valid named receiver
  change run = integrator.concluded course fault? at same
  clear_value run
  subst same
  cases ended with
  | reached follows =>
    refine ⟨total, Nat.le_refl _, follows.faultless, follows.received, Or.inl ⟨rfl, ?_, ?_, ?_, ?_⟩⟩
    · rw [Integrator.concluded, follows.steps, follows.time]
    · exact follows.valuation
    · rw [Integrator.concluded, follows.valuation, Valuation.time_setTime]
    · intro i symbol here other
      have still : ∀ name ∈ system.symbols, name ∈ (o.state total).names := by rwa [o.state_names]
      have column := Valuation.filterMap_getElem? still i
      rw [here] at column
      rw [Integrator.concluded, follows.valuation, Valuation.get?_setTime, if_neg other]
      exact column
  | @failed k fault before faultless atStep received values =>
    exact ⟨k, Nat.le_of_lt before, faultless, received, Or.inr ⟨before, fault, atStep, rfl, values⟩⟩

/-- Exponential decay from one. -/
def decay : OdeSystem :=
  OdeSystem.empty.insert "y" (.unary "-" (.symbol "y"))

/-- The start of exponential decay. -/
def decayStart : Valuation :=
  Valuation.initial.set "y" 1

theorem run_follows_orbit_decay :
    let integrator := Integrator.euler { maxtime := 1, dt := 0.5 }
    let run := integrator.run decay decayStart Trajectory.empty
    integrator.settings.fault? = none ∧ (∀ symbol ∈ decay.symbols, decayStart.contains symbol = true) ∧
      run.receiver = ⟨["t", "y"], #[[0, 1], [0.5, 0.5], [1, 0.25]]⟩ ∧ run.result = .ok ⟨2, 1⟩ ∧
      run.valuation.get? "y" = some 0.25 := by
  intro integrator run
  have valid : integrator.settings.fault? = none := by decide
  have defined : ∀ symbol ∈ decay.symbols, decayStart.contains symbol = true := by decide
  refine ⟨valid, defined, ?_⟩
  obtain ⟨k, bound, _, received, outcome⟩ :=
    run_follows_orbit (fun _ _ => rfl) integrator decay decayStart Trajectory.empty valid defined
  have total : integrator.total decayStart = 2 := by decide +kernel
  have sound : ∀ j < 2, (integrator.orbit decay decayStart).fault? j = none := by decide +kernel
  rw [total] at bound outcome
  rcases outcome with ⟨rfl, result, _, _, columns⟩ | ⟨before, fault, atStep, _⟩
  · refine ⟨received.trans (by decide +kernel), result.trans ?_, ?_⟩
    · have final : (integrator.orbit decay decayStart).time 2 = 1 := by decide +kernel
      rw [final]
    · exact (columns 0 "y" (by decide) (by decide)).symm.trans (by decide +kernel)
  · rw [sound k before] at atStep
    cases atStep

end EulerFlow
