import EulerFlow.Model.Basic
import EulerFlow.Proofs.Alarms
import EulerFlow.Proofs.RunCases

namespace EulerFlow

/-- The warnings among some notices. -/
def warnings (notices : List Notice) : List Notice :=
  notices.filter (·.level = .warn)

/-- All notices that are not warnings. -/
def quiet (notices : List Notice) : List Notice :=
  notices.filter (·.level ≠ .warn)

theorem warnings_append (notices others : List Notice) :
    warnings (notices ++ others) = warnings notices ++ warnings others :=
  List.filter_append ..

theorem quiet_append (notices others : List Notice) : quiet (notices ++ others) = quiet notices ++ quiet others :=
  List.filter_append ..

namespace Euler

/-- The stepper as it is once it has given its warning. -/
def silenced (s : Euler) : Euler :=
  { s with warned := true }

theorem silenced_updates (s : Euler) (v : Valuation) (t dt : Float) (odes : List Ode) :
    s.silenced.updates v t dt odes =
      ⟨(s.updates v t dt odes).stepper.silenced, (s.updates v t dt odes).valuation, [],
        (s.updates v t dt odes).fault?⟩ := by
  have silent : s.silenced.warningsLeft = 0 := by cases policy : s.policy <;> simp [silenced, warningsLeft, policy]
  obtain ⟨notices, same⟩ := updates_silent silent v t dt odes
  have swept := (s.silenced.updates_sweep v t dt odes).trans (s.updates_sweep v t dt odes).symm
  obtain ⟨values, fault⟩ := Prod.mk.inj swept
  have stepper : (s.silenced.updates v t dt odes).stepper = (s.updates v t dt odes).stepper.silenced := by
    rw [same, silenced, silenced, s.updates_policy]
  rw [← stepper, ← values, ← notices, ← fault]

end Euler

namespace Course

variable {σ : Type}

/-- The call by which a run makes its next step. -/
def call (system : OdeSystem) (dt : Float) (c : Course σ) : StepCall where
  system := system
  valuation := c.valuation.setTime c.time
  time := c.time
  dt := dt

theorem stepped_level (system : OdeSystem) (dt : Float) (c : Course σ) :
    ∀ notice ∈ (c.stepped system dt).notices, notice.level = .warn :=
  c.stepper.updates_level _ _ _ _

theorem warnings_stepped (system : OdeSystem) (dt : Float) (c : Course σ) :
    warnings (c.stepped system dt).notices = (c.stepped system dt).notices :=
  List.filter_eq_self.mpr fun notice member => decide_eq_true (c.stepped_level system dt notice member)

theorem quiet_stepped (system : OdeSystem) (dt : Float) (c : Course σ) : quiet (c.stepped system dt).notices = [] :=
  List.filter_eq_nil_iff.mpr fun notice member => by simp [c.stepped_level system dt notice member]

/-- The run as it would be if its stepper had given its warning before. -/
def silenced (c : Course σ) : Course σ :=
  { c with stepper := c.stepper.silenced, notices := (quiet c.notices.toList).toArray }

/-- A stepper that has warned before does the same and says nothing. -/
theorem silenced_stepped (system : OdeSystem) (dt : Float) (c : Course σ) :
    c.silenced.stepped system dt =
      ⟨(c.stepped system dt).stepper.silenced, (c.stepped system dt).valuation, [], (c.stepped system dt).fault?⟩ :=
  c.stepper.silenced_updates _ _ _ _

theorem silenced_notices (system : OdeSystem) (dt : Float) (c : Course σ) :
    c.silenced.notices ++ ([] : List Notice) = (quiet (c.notices ++ (c.stepped system dt).notices).toList).toArray := by
  rw [Array.toList_appendList, quiet_append, quiet_stepped, List.append_nil, Array.appendList_nil]
  rfl

theorem silenced_stopped (system : OdeSystem) (dt : Float) (c : Course σ) (receiver : σ) :
    c.silenced.stopped system dt receiver = (c.stopped system dt receiver).silenced := by
  rw [stopped, silenced_stepped, c.silenced_notices system dt]
  rfl

theorem silenced_moved (system : OdeSystem) (start dt : Float) (c : Course σ) (receiver : σ) (row : List Float) :
    c.silenced.moved system start dt receiver row = (c.moved system start dt receiver row).silenced := by
  have notices : (quiet (c.moved system start dt receiver row).notices.toList).toArray =
      (c.silenced.notices ++ ([] : List Notice)).push (.delivered (c.next start dt) row) := by
    rw [c.silenced_notices system dt, moved, Array.toList_push, quiet_append, List.push_toArray]
    rfl
  have silent : c.silenced.moved system start dt receiver row = { (c.moved system start dt receiver row).silenced with
      notices := (c.silenced.notices ++ ([] : List Notice)).push (.delivered (c.next start dt) row) } := by
    rw [moved, silenced_stepped]
    rfl
  rw [silent, ← notices]
  rfl

variable [Receiver σ]

/-- The calls of at most so many steps, up to the one that ends the run. -/
def calls (system : OdeSystem) (start dt : Float) : Nat → Course σ → List StepCall
  | 0, _ => []
  | remaining + 1, c =>
    c.call system dt ::
      match c.advance system start dt with
      | (_, some _) => []
      | (next, none) => next.calls system start dt remaining

/-- Whatever a step comes to, the warnings that it adds are those of the stepper. -/
theorem advance_stepped (system : OdeSystem) (start dt : Float) (c : Course σ) :
    let after := (c.advance system start dt).1
    after.stepper = (c.stepped system dt).stepper ∧
      warnings after.notices.toList = warnings c.notices.toList ++ (c.stepped system dt).notices := by
  have step := c.advance_cases system start dt
  generalize (c.advance system start dt).1 = after, (c.advance system start dt).2 = fault? at step
  have rest : warnings (c.notices ++ (c.stepped system dt).notices).toList =
      warnings c.notices.toList ++ (c.stepped system dt).notices := by
    rw [Array.toList_appendList, warnings_append, warnings_stepped]
  cases step with
  | failed => exact ⟨rfl, rest⟩
  | rowless => exact ⟨rfl, rest⟩
  | refused => exact ⟨rfl, rest⟩
  | delivered =>
    refine ⟨rfl, ?_⟩
    rw [moved, Array.toList_push, warnings_append, rest]
    exact List.append_nil _

/-- What a course warns of is what its calls of the stepper warn of, in order. -/
theorem drive_heeds (system : OdeSystem) (start dt : Float) (remaining : Nat) (c : Course σ) :
    ∃ given, warnings (c.drive system start dt remaining).1.notices.toList = warnings c.notices.toList ++ given ∧
      c.stepper.Heeds ((c.calls system start dt remaining).flatMap StepCall.alarms) given
        (c.drive system start dt remaining).1.stepper := by
  -- on the steps, for all courses: what one step has left of the warnings is what the next one starts with
  induction remaining generalizing c with
  | zero => exact ⟨[], (List.append_nil _).symm, .nil _⟩
  | succ remaining ih =>
    obtain ⟨stepper, notices⟩ := c.advance_stepped system start dt
    have first := (c.call system dt).answer_heeds c.stepper
    change c.stepper.Heeds _ (c.stepped system dt).notices (c.stepped system dt).stepper at first
    unfold drive calls
    rw [List.flatMap_cons]
    rcases advanced : c.advance system start dt with ⟨next, _ | fault⟩
    · rw [advanced] at stepper notices
      obtain ⟨given, others, further⟩ := ih next
      rw [stepper] at further
      exact ⟨_, by rw [others, notices, List.append_assoc], first.append further⟩
    · rw [advanced] at stepper notices
      rw [List.flatMap_nil, List.append_nil]
      exact ⟨_, notices, stepper ▸ first⟩

/-- The warning of the stepper has no say in what a step comes to. -/
theorem silenced_advance (system : OdeSystem) (start dt : Float) (c : Course σ) :
    c.silenced.advance system start dt =
      ((c.advance system start dt).1.silenced, (c.advance system start dt).2) := by
  rw [advance_eq, advance_eq, silenced_stepped]
  have next : c.silenced.next start dt = c.next start dt := rfl
  have receiver : c.silenced.receiver = c.receiver := rfl
  simp only [next, receiver, silenced_stopped, silenced_moved]
  repeat' split
  all_goals rfl

theorem silenced_drive (system : OdeSystem) (start dt : Float) (remaining : Nat) (c : Course σ) :
    c.silenced.drive system start dt remaining =
      ((c.drive system start dt remaining).1.silenced, (c.drive system start dt remaining).2) := by
  induction remaining generalizing c with
  | zero => rfl
  | succ remaining ih =>
    unfold drive
    rw [silenced_advance]
    rcases c.advance system start dt with ⟨next, _ | fault⟩
    · exact ih next
    · rfl

end Course

/-- All of a run but its warnings and its integrator. -/
def Run.seen {σ : Type} (run : Run σ) : Valuation × σ × Except RunError Summary × List Notice :=
  (run.valuation, run.receiver, run.result, quiet run.notices)

namespace Integrator

variable {σ : Type}

theorem concluded_warnings (integrator : Integrator) (course : Course σ) (fault? : Option RunError) :
    warnings (integrator.concluded course fault?).notices = warnings course.notices.toList := by
  cases fault? with
  | some fault => rfl
  | none => exact (warnings_append ..).trans (List.append_nil _)

theorem concluded_stepper (integrator : Integrator) (course : Course σ) (fault? : Option RunError) :
    (integrator.concluded course fault?).integrator.stepper = course.stepper := by
  cases fault? <;> rfl

theorem concluded_settings (integrator : Integrator) (course : Course σ) (fault? : Option RunError) :
    (integrator.concluded course fault?).integrator.settings = integrator.settings := by
  cases fault? <;> rfl

/-- The integrator as it is once its stepper has given its warning, but for its phase. -/
def silenced (integrator : Integrator) : Integrator where
  settings := integrator.settings
  stepper := integrator.stepper.silenced
  phase := .idle

theorem concluded_silenced (integrator : Integrator) (course : Course σ) (fault? : Option RunError) :
    (integrator.silenced.concluded course.silenced fault?).seen = (integrator.concluded course fault?).seen := by
  have still : quiet (quiet course.notices.toList) = quiet course.notices.toList := by
    simp only [quiet, List.filter_filter, Bool.and_self]
  cases fault? with
  | some fault => simp only [Run.seen, concluded, Course.silenced, still]
  | none =>
    simp only [Run.seen, concluded, Course.silenced, quiet_append, still]
    rfl

variable [Receiver σ]

/-- What becomes of a receiver up to the initial row, and what keeps a run from its first step, if anything. -/
def opening (settings : Settings) (system : OdeSystem) (v : Valuation) (receiver : σ) : σ × Option RunError :=
  match settings.fault? with
  | some fault => (receiver, some (.invalidSettings fault))
  | none =>
    match Receiver.receive receiver (.header (clock :: system.symbols)) with
    | (after, some refusal) => (after, some (.refused refusal))
    | (headed, none) =>
      match system.row v v.time with
      | .error fault => (headed, some fault)
      | .ok row =>
        match Receiver.receive headed (.row row) with
        | (after, some refusal) => (after, some (.refused refusal))
        | (ready, none) => (ready, none)

/-- The course of a run whose initial row was accepted, up to a fault or to the horizon. -/
def driven (integrator : Integrator) (system : OdeSystem) (v : Valuation) (ready : σ) : Course σ × Option RunError :=
  (integrator.opened system v ready).drive system v.time integrator.settings.dt (integrator.total v)

theorem silenced_driven (integrator : Integrator) (system : OdeSystem) (v : Valuation) (ready : σ) :
    integrator.silenced.driven system v ready =
      ((integrator.driven system v ready).1.silenced, (integrator.driven system v ready).2) :=
  Course.silenced_drive system v.time integrator.settings.dt (integrator.total v) (integrator.opened system v ready)

/-- A run is the opening, and what it does when nothing was wrong with that. -/
theorem run_opening (integrator : Integrator) (system : OdeSystem) (v : Valuation) (receiver : σ) :
    integrator.run system v receiver =
      match opening integrator.settings system v receiver with
      | (after, some fault) => integrator.rejected v after fault
      | (ready, none) =>
        integrator.concluded (integrator.driven system v ready).1 (integrator.driven system v ready).2 := by
  rw [run_eq, opening]
  repeat' split
  all_goals simp_all [driven]

end Integrator

/-- A run that is asked of an integrator. -/
structure RunCall (σ : Type) where
  system : OdeSystem
  valuation : Valuation
  receiver : σ

namespace RunCall

variable {σ : Type} [Receiver σ]

/-- The run that the call asks for, with an integrator. -/
def answer (call : RunCall σ) (integrator : Integrator) : Run σ :=
  integrator.run call.system call.valuation call.receiver

/-- The calls by which a run makes its steps. A run that does not get its initial row accepted makes none. -/
def calls (call : RunCall σ) (integrator : Integrator) : List StepCall :=
  match Integrator.opening integrator.settings call.system call.valuation call.receiver with
  | (_, some _) => []
  | (ready, none) =>
    (integrator.opened call.system call.valuation ready).calls call.system call.valuation.time
      integrator.settings.dt (integrator.total call.valuation)

theorem answer_heeds (call : RunCall σ) (integrator : Integrator) :
    integrator.stepper.Heeds ((call.calls integrator).flatMap StepCall.alarms)
      (warnings (call.answer integrator).notices) (call.answer integrator).integrator.stepper := by
  rw [answer, Integrator.run_opening, calls]
  rcases Integrator.opening integrator.settings call.system call.valuation call.receiver with ⟨ready, _ | fault⟩
  · obtain ⟨given, notices, heeds⟩ := Course.drive_heeds call.system call.valuation.time integrator.settings.dt
      (integrator.total call.valuation) (integrator.opened call.system call.valuation ready)
    simp only [Integrator.concluded_warnings, Integrator.concluded_stepper]
    rw [Integrator.driven, notices]
    exact heeds
  · exact .nil _

/-- The warning of the stepper has no say in what a run comes to. -/
theorem answer_silenced (call : RunCall σ) (integrator : Integrator) :
    (call.answer integrator.silenced).seen = (call.answer integrator).seen := by
  have same : integrator.silenced.settings = integrator.settings := rfl
  rw [answer, answer, Integrator.run_opening, Integrator.run_opening, same]
  rcases Integrator.opening integrator.settings call.system call.valuation call.receiver with ⟨ready, _ | fault⟩
  · simp only [Integrator.silenced_driven]
    exact Integrator.concluded_silenced ..
  · rfl

/-- Integrators of the same settings whose steppers have the same policy make the same runs, but for warnings. -/
theorem answer_congr (call : RunCall σ) {integrator other : Integrator} (settings : integrator.settings = other.settings)
    (policy : integrator.stepper.policy = other.stepper.policy) :
    (call.answer integrator).seen = (call.answer other).seen := by
  have same : integrator.silenced = other.silenced := by
    simp only [Integrator.silenced, Euler.silenced, settings, policy]
  rw [← call.answer_silenced integrator, same, call.answer_silenced]

theorem answer_settings (call : RunCall σ) (integrator : Integrator) :
    (call.answer integrator).integrator.settings = integrator.settings := by
  rw [answer, Integrator.run_opening]
  split
  · rfl
  · exact Integrator.concluded_settings ..

end RunCall

namespace Integrator

variable {σ : Type} [Receiver σ]

/-- Runs one after the other, failed or not, all by one integrator. -/
def runs (integrator : Integrator) : List (RunCall σ) → Integrator × List (Run σ)
  | [] => (integrator, [])
  | call :: calls =>
    let first := call.answer integrator
    let (after, others) := first.integrator.runs calls
    (after, first :: others)

/-- The calls by which these runs make their steps. -/
def history (integrator : Integrator) : List (RunCall σ) → List StepCall
  | [] => []
  | call :: calls => call.calls integrator ++ (call.answer integrator).integrator.history calls

/-- The warnings of several runs are those of one stepper, which every run hands to the next. -/
theorem runs_heeds (integrator : Integrator) (calls : List (RunCall σ)) :
    integrator.stepper.Heeds ((integrator.history calls).flatMap StepCall.alarms)
      ((integrator.runs calls).2.flatMap fun run => warnings run.notices) (integrator.runs calls).1.stepper := by
  induction calls generalizing integrator with
  | nil => exact .nil _
  | cons call calls ih =>
    rw [history, List.flatMap_append]
    exact (call.answer_heeds integrator).append (ih (call.answer integrator).integrator)

/-- Runs by one integrator, but for their warnings, are runs by one integrator each. -/
theorem runs_alone {integrator fresh : Integrator} (settings : integrator.settings = fresh.settings)
    (policy : integrator.stepper.policy = fresh.stepper.policy) (calls : List (RunCall σ)) :
    (integrator.runs calls).2.map Run.seen = calls.map fun call => (call.answer fresh).seen := by
  induction calls generalizing integrator with
  | nil => rfl
  | cons call calls ih =>
    have others := ih ((call.answer_settings integrator).trans settings)
      ((call.answer_heeds integrator).policy.trans policy)
    rw [List.map_cons, ← call.answer_congr settings policy, ← others]
    rfl

end Integrator

/-- A stepper gives at most one warning, whatever it is used for: that of the first of its updates whose value is not
finite. But for the warnings every step and every run is as a stepper of its own would have made it. -/
theorem one_warning_per_stepper {σ : Type} [Receiver σ] (policy : NonFinitePolicy) (calls : List StepCall)
    (settings : Settings) (runs : List (RunCall σ)) :
    let fresh : Euler := { policy := policy }
    let stepped := fresh.steps calls
    let kept : Integrator := ⟨settings, stepped.1, .idle⟩
    let ran := kept.runs runs
    let given := stepped.2.flatMap Stepped.notices ++ ran.2.flatMap fun run => warnings run.notices
    let called := (calls ++ kept.history runs).flatMap StepCall.alarms
    given = (match policy with
      | .propagate => called.take 1
      | .abort => []) ∧
    stepped.2.map (fun step => (step.valuation, step.fault?)) =
      calls.map (fun call => ((call.answer fresh).valuation, (call.answer fresh).fault?)) ∧
    ran.2.map Run.seen = runs.map (fun call => (call.answer ⟨settings, fresh, .idle⟩).seen) ∧
    ((Integrator.euler settings).runs runs).2.map Run.seen =
      runs.map fun call => (Model.run ⟨call.valuation, call.system, settings⟩ call.receiver).2.seen := by
  intro fresh stepped kept ran given called
  have steps := fresh.steps_heeds calls
  have heeds := steps.append (kept.runs_heeds runs)
  rw [← List.flatMap_append] at heeds
  let alone : Integrator := ⟨settings, fresh, .idle⟩
  have settled : kept.settings = alone.settings := rfl
  have apart : ran.2.map Run.seen = runs.map fun call => (call.answer alone).seen :=
    Integrator.runs_alone settled steps.policy runs
  refine ⟨?_, Euler.steps_alone rfl calls, apart, Integrator.runs_alone rfl rfl runs⟩
  cases policy with
  | propagate => exact heeds.given
  | abort => exact heeds.given.trans List.take_zero

end EulerFlow
