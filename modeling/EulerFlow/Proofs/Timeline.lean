import EulerFlow.Proofs.Receivers

namespace EulerFlow

/-- A moment of a run: the values right after one of them was written, or the values at the time at which a row is
handed over, with that row. -/
structure Moment where
  values : Valuation
  row? : Option (List Float) := none

/-- The values of a row. -/
def Delivery.row? : Delivery → Option (List Float)
  | .header _ => none
  | .row values => some values

/-- The rows that are handed over, in order. -/
def Moment.rows (moments : List Moment) : List (List Float) :=
  moments.filterMap Moment.row?

/-- All that can happen to the values between two moments of a run: nothing, a new time on the clock, or the
application of one equation. -/
inductive Writes (system : OdeSystem) (v : Valuation) : Valuation → Prop
  | nothing : Writes system v v
  | time (t : Float) : Writes system v (v.setTime t)
  | equation {ode : Ode} (policy : NonFinitePolicy) (t dt : Float) : ode ∈ system.entries →
      Writes system v (ode.apply policy t dt v).1

/-- Moments that lead from some values to others. A row that is handed over shows the values of its moment. -/
inductive Passes (system : OdeSystem) : Valuation → List Moment → Valuation → Prop
  | done {v} : Passes system v [] v
  | next {v w moment moments} : Writes system v moment.values →
      (∀ row, moment.row? = some row → ∃ t, system.row moment.values t = .ok row) →
      Passes system moment.values moments w → Passes system v (moment :: moments) w

theorem Moment.rows_append (moments others : List Moment) : rows (moments ++ others) = rows moments ++ rows others :=
  List.filterMap_append

section

variable {system : OdeSystem} {u v w : Valuation} {moments others : List Moment}

theorem Passes.append (first : Passes system u moments v) (second : Passes system v others w) :
    Passes system u (moments ++ others) w := by
  induction first with
  | done => exact second
  | next written shown _ ih => exact .next written shown (ih second)

theorem Passes.silent (written : Writes system u v) (passes : Passes system v moments w) :
    Passes system u (⟨v, none⟩ :: moments) w :=
  .next written nofun passes

theorem Passes.written (written : Writes system v w) : Passes system v [⟨w, none⟩] w :=
  .silent written .done

end

/-- The moments of the updates of a list of equations, up to the first that fails. -/
def Euler.moments (s : Euler) (v : Valuation) (t dt : Float) : List Ode → List Moment
  | [] => []
  | ode :: odes =>
    let first := s.update v t dt ode
    { values := first.valuation } ::
      match first.fault? with
      | some _ => []
      | none => first.stepper.moments first.valuation t dt odes

namespace Euler

variable {s : Euler} {v : Valuation} {t dt : Float} {ode : Ode}

theorem moments_of_fault {fault : RunError} (failed : (s.update v t dt ode).fault? = some fault) (odes : List Ode) :
    s.moments v t dt (ode :: odes) = [{ values := (s.update v t dt ode).valuation }] := by
  simp only [moments, failed]

theorem moments_of_none (applied : (s.update v t dt ode).fault? = none) (odes : List Ode) :
    s.moments v t dt (ode :: odes) = { values := (s.update v t dt ode).valuation } ::
      (s.update v t dt ode).stepper.moments (s.update v t dt ode).valuation t dt odes := by
  simp only [moments, applied]

theorem moments_passes {system : OdeSystem} {odes : List Ode} (within : ∀ ode ∈ odes, ode ∈ system.entries)
    (s : Euler) (v : Valuation) (t dt : Float) :
    Passes system v (s.moments v t dt odes) (s.updates v t dt odes).valuation := by
  induction odes generalizing s v with
  | nil => exact .done
  | cons ode odes ih =>
    obtain ⟨member, behind⟩ := List.forall_mem_cons.mp within
    have written : Writes system v (s.update v t dt ode).valuation := by
      have applied : (s.update v t dt ode).valuation = _ := congrArg Prod.fst (s.update_apply v t dt ode)
      rw [applied]
      exact .equation s.policy t dt member
    cases outcome : (s.update v t dt ode).fault? with
    | some fault =>
      rw [moments_of_fault outcome, updates_of_fault outcome]
      exact .written written
    | none =>
      rw [moments_of_none outcome, updates_of_none outcome]
      exact .silent written (ih behind _ _)

/-- No row is handed over before a step is done. -/
theorem moments_rows (s : Euler) (v : Valuation) (t dt : Float) (odes : List Ode) :
    Moment.rows (s.moments v t dt odes) = [] := by
  induction odes generalizing s v with
  | nil => rfl
  | cons ode odes ih =>
    cases outcome : (s.update v t dt ode).fault? with
    | some fault =>
      rw [moments_of_fault outcome]
      rfl
    | none =>
      rw [moments_of_none outcome]
      exact ih _ _

end Euler

namespace Course

variable {σ : Type}

/-- The row that the next step offers, if it comes to one. -/
def row? (system : OdeSystem) (start dt : Float) (c : Course σ) : Option (List Float) :=
  match (c.stepped system dt).fault?, system.row (c.stepped system dt).valuation (c.next start dt) with
  | none, .ok row => some row
  | _, _ => none

/-- The moments of the next step: the clock is set, the equations are applied, and a row is offered. -/
def moments (system : OdeSystem) (start dt : Float) (c : Course σ) : List Moment :=
  { values := c.valuation.setTime c.time } ::
    c.stepper.moments (c.valuation.setTime c.time) c.time dt system.entries ++
      ((c.row? system start dt).map fun row => ⟨(c.stepped system dt).valuation, some row⟩).toList

theorem moments_passes (system : OdeSystem) (start dt : Float) (c : Course σ) :
    Passes system c.valuation (c.moments system start dt) (c.stepped system dt).valuation := by
  have begun : Passes system c.valuation [_] _ := .written (.time c.time)
  have swept : Passes system _ (c.stepper.moments (c.valuation.setTime c.time) c.time dt system.entries) _ :=
    c.stepper.moments_passes (fun _ member => member) (c.valuation.setTime c.time) c.time dt
  refine (begun.append swept).append ?_
  unfold row?
  split
  · rename_i row _ filled
    refine .next .nothing (fun shown same => ?_) .done
    cases same
    exact ⟨_, filled⟩
  · exact .done

theorem moments_rows (system : OdeSystem) (start dt : Float) (c : Course σ) :
    Moment.rows (c.moments system start dt) = (c.row? system start dt).toList := by
  have silent := c.stepper.moments_rows (c.valuation.setTime c.time) c.time dt system.entries
  have begun : Moment.rows ({ values := c.valuation.setTime c.time } ::
    c.stepper.moments (c.valuation.setTime c.time) c.time dt system.entries) = [] := silent
  rw [moments, Moment.rows_append, begun]
  cases c.row? system start dt <;> rfl

variable [Receiver σ]

/-- The moments of at most so many steps. The clock is moved on once a row is accepted. -/
def timeline (system : OdeSystem) (start dt : Float) : Nat → Course σ → List Moment
  | 0, _ => []
  | remaining + 1, c =>
    c.moments system start dt ++
      match c.advance system start dt with
      | (_, some _) => []
      | (next, none) => { values := next.valuation } :: next.timeline system start dt remaining

section

variable {system : OdeSystem} {start dt : Float} {c after : Course σ}

/-- Whatever a step comes to, the receiver has got the row that was offered, if there was one. -/
theorem Advance.received {fault? : Option RunError} (step : Advance system start dt c after fault?) :
    after.receiver = deliverAll c.receiver ((c.row? system start dt).toList.map .row) := by
  unfold row?
  cases step with
  | failed failed =>
    simp only [failed]
    rfl
  | rowless went missing =>
    simp only [went, missing]
    rfl
  | refused went filled answer =>
    simp only [went, filled]
    exact (congrArg Prod.fst answer).symm
  | delivered went filled answer =>
    simp only [went, filled]
    exact (congrArg Prod.fst answer).symm

theorem Advance.stopped {fault : RunError} (step : Advance system start dt c after (some fault)) :
    after.valuation = (c.stepped system dt).valuation := by
  cases step <;> rfl

theorem Advance.moved (step : Advance system start dt c after none) :
    after.valuation = (c.stepped system dt).valuation.setTime (c.next start dt) := by
  cases step
  rfl

theorem timeline_of_fault {fault : RunError} (stopped : c.advance system start dt = (after, some fault))
    (remaining : Nat) : c.timeline system start dt (remaining + 1) = c.moments system start dt := by
  simp only [timeline, stopped, List.append_nil]

theorem timeline_of_none (moved : c.advance system start dt = (after, none)) (remaining : Nat) :
    c.timeline system start dt (remaining + 1) =
      c.moments system start dt ++ { values := after.valuation } :: after.timeline system start dt remaining := by
  simp only [timeline, moved]

end

theorem timeline_passes (system : OdeSystem) (start dt : Float) (remaining : Nat) (c : Course σ) :
    Passes system c.valuation (c.timeline system start dt remaining)
      (c.drive system start dt remaining).1.valuation := by
  induction remaining generalizing c with
  | zero => exact .done
  | succ remaining ih =>
    have step := c.advance_cases system start dt
    have moments := c.moments_passes system start dt
    unfold drive
    rcases advanced : c.advance system start dt with ⟨after, _ | fault⟩
    · rw [advanced] at step
      have moved : Writes system (c.stepped system dt).valuation after.valuation := step.moved ▸ .time _
      rw [timeline_of_none advanced]
      exact moments.append (.silent moved (ih after))
    · rw [advanced] at step
      rw [timeline_of_fault advanced, step.stopped]
      exact moments

/-- The receiver gets the rows of the timeline one by one. -/
theorem timeline_received (system : OdeSystem) (start dt : Float) (remaining : Nat) (c : Course σ) :
    (c.drive system start dt remaining).1.receiver =
      deliverAll c.receiver ((Moment.rows (c.timeline system start dt remaining)).map .row) := by
  induction remaining generalizing c with
  | zero => rfl
  | succ remaining ih =>
    have step := c.advance_cases system start dt
    have rows := c.moments_rows system start dt
    unfold drive
    rcases advanced : c.advance system start dt with ⟨after, _ | fault⟩
    · rw [advanced] at step
      have further := ih after
      rw [step.received] at further
      rw [timeline_of_none advanced, Moment.rows_append, rows, List.map_append, deliverAll, List.foldl_append]
      exact further
    · rw [advanced] at step
      rw [timeline_of_fault advanced, rows]
      exact step.received

theorem timeline_view {τ : Type} [Receiver τ] {view : τ → σ} (mirrors : Mirrors view) (system : OdeSystem)
    (start dt : Float) (remaining : Nat) (c : Course τ) :
    (c.view view).timeline system start dt remaining = c.timeline system start dt remaining := by
  induction remaining generalizing c with
  | zero => rfl
  | succ remaining ih =>
    have seen := c.advance_view mirrors system start dt
    rcases advanced : c.advance system start dt with ⟨after, _ | fault⟩
    · rw [advanced] at seen
      rw [timeline_of_none advanced, timeline_of_none seen, ih]
      rfl
    · rw [advanced] at seen
      rw [timeline_of_fault advanced, timeline_of_fault seen]
      rfl

end Course

namespace Integrator

variable {σ : Type} [Receiver σ]

/-- The moments of a run, from its initial row on. -/
def timeline (integrator : Integrator) (system : OdeSystem) (v : Valuation) (receiver : σ) : List Moment :=
  match integrator.settings.fault?, Receiver.receive receiver (.header (clock :: system.symbols)),
    system.row v v.time with
  | none, (headed, none), .ok row =>
    ⟨v, some row⟩ ::
      match Receiver.receive headed (.row row) with
      | (_, some _) => []
      | (ready, none) =>
        (integrator.opened system v ready).timeline system v.time integrator.settings.dt (integrator.total v)
  | _, _, _ => []

theorem timeline_invalid {integrator : Integrator} {fault : SettingsFault} (invalid : integrator.settings.fault? = some fault)
    (system : OdeSystem) (v : Valuation) (receiver : σ) : integrator.timeline system v receiver = [] := by
  simp only [timeline, invalid]

/-- The moments of a run lead from the values at its start to those that it leaves. -/
theorem timeline_passes (integrator : Integrator) (system : OdeSystem) (v : Valuation) (receiver : σ) :
    Passes system v (integrator.timeline system v receiver) (integrator.run system v receiver).valuation := by
  have reached := integrator.run_cases system v receiver
  generalize integrator.run system v receiver = run at reached ⊢
  unfold timeline
  cases reached with
  | invalid invalid =>
    simp only [invalid]
    exact .done
  | headless valid answer =>
    simp only [valid, answer]
    exact .done
  | rowless valid answer missing =>
    simp only [valid, answer, missing]
    exact .done
  | refused valid answer filled rowAnswer =>
    simp only [valid, answer, filled, rowAnswer]
    exact .next .nothing (fun _ same => ⟨_, Option.some.inj same ▸ filled⟩) .done
  | @driven headed ready row course fault? valid answer filled rowAnswer drive =>
    simp only [valid, answer, filled, rowAnswer]
    have driven := (integrator.opened system v ready).timeline_passes system v.time integrator.settings.dt
      (integrator.total v)
    rw [drive] at driven
    rw [(integrator.concluded_view course fault?).2]
    exact .next .nothing (fun _ same => ⟨_, Option.some.inj same ▸ filled⟩) driven

/-- The receiver gets the header and the rows of the timeline one by one. -/
theorem timeline_received {integrator : Integrator} (valid : integrator.settings.fault? = none) (system : OdeSystem)
    (v : Valuation) (receiver : σ) :
    (integrator.run system v receiver).receiver = deliverAll receiver
      (.header (clock :: system.symbols) :: (Moment.rows (integrator.timeline system v receiver)).map .row) := by
  have reached := integrator.run_cases system v receiver
  generalize integrator.run system v receiver = run at reached ⊢
  unfold timeline deliverAll
  cases reached with
  | invalid invalid => cases valid.symm.trans invalid
  | headless _ answer =>
    simp only [valid, answer, List.foldl_cons]
    rfl
  | rowless _ answer missing =>
    simp only [valid, answer, missing, List.foldl_cons]
    rfl
  | refused _ answer filled rowAnswer =>
    simp only [valid, answer, filled, rowAnswer, List.foldl_cons]
    exact (congrArg Prod.fst rowAnswer).symm
  | @driven headed ready row course fault? _ answer filled rowAnswer drive =>
    simp only [valid, answer, filled, rowAnswer, List.foldl_cons]
    have driven := (integrator.opened system v ready).timeline_received system v.time integrator.settings.dt
      (integrator.total v)
    rw [drive] at driven
    rw [(integrator.concluded_view course fault?).1, driven]
    have begun : (integrator.opened system v ready).receiver = (Receiver.receive headed (.row row)).1 := by
      rw [rowAnswer]
      rfl
    rw [begun]
    rfl

/-- What a receiver is seen through has no say in the moments. -/
theorem timeline_view {τ : Type} [Receiver τ] {view : τ → σ} (mirrors : Mirrors view) (integrator : Integrator)
    (system : OdeSystem) (v : Valuation) (receiver : τ) :
    integrator.timeline system v (view receiver) = integrator.timeline system v receiver := by
  unfold timeline
  cases integrator.settings.fault? with
  | some fault => rfl
  | none =>
    simp only [mirrors receiver (.header (clock :: system.symbols))]
    rcases Receiver.receive receiver (.header (clock :: system.symbols)) with ⟨headed, _ | refusal⟩
    · cases system.row v v.time with
      | error fault => rfl
      | ok row =>
        simp only [mirrors headed (.row row)]
        rcases Receiver.receive headed (.row row) with ⟨ready, _ | refusal⟩
        · have opened : integrator.opened system v (view ready) = (integrator.opened system v ready).view view := rfl
          simp only [opened, Course.timeline_view mirrors]
        · rfl
    · rfl

/-- The rows of the timeline are those that the receiver is offered, accepted or not. -/
theorem timeline_offered (integrator : Integrator) (system : OdeSystem) (v : Valuation) (receiver : σ) :
    (integrator.run system v (⟨receiver, []⟩ : Recorder σ)).receiver.offered.filterMap Delivery.row? =
      Moment.rows (integrator.timeline system v receiver) := by
  have same : integrator.timeline system v receiver = integrator.timeline system v (⟨receiver, []⟩ : Recorder σ) :=
    timeline_view Recorder.mirrors integrator system v ⟨receiver, []⟩
  rw [same]
  cases valid : integrator.settings.fault? with
  | some fault =>
    rw [timeline_invalid valid, run_eq, valid]
    rfl
  | none =>
    rw [timeline_received valid, Recorder.deliverAll_offered, List.nil_append, List.filterMap_cons_none rfl,
      List.filterMap_map]
    exact List.filterMap_some

end Integrator

end EulerFlow
