import EulerFlow.Model.Basic
import EulerFlow.Proofs.Frame
import EulerFlow.Proofs.Horizon
import EulerFlow.Proofs.Success

namespace EulerFlow

open Float.Model Float.Model.UnpackedFloat

/-- More than the tolerance is left of the way to the horizon, as doubles have it. -/
def Settings.Unfinished (s : Settings) (t : Float) : Prop :=
  ((s.maxtime - t) / s.dt).isFinite ∧ 1e-9 < (s.maxtime - t) / s.dt

/-- A way of less than one step is judged by the tolerance itself, and the slack of a longer one is less than it. -/
theorem le_slack_iff {q : Float} (finite : q.isFinite) :
    rational q ≤ rational (HorizonNumber.tolerance * HorizonNumber.magnitude q) ↔
      rational q ≤ rational HorizonNumber.tolerance := by
  obtain ⟨toleranceLow, toleranceHigh⟩ := abs_le.mp tolerance_rational.2
  rcases le_or_gt |rational q| 1 with short | long
  · obtain ⟨sizeFinite, size⟩ := abs_rational finite
    have one : HorizonNumber.magnitude q = 1 := by
      refine if_neg fun long => ?_
      rw [lt_iff_rational one_rational.1 sizeFinite, one_rational.2, size] at long
      exact not_lt.mpr short long
    have slack : HorizonNumber.tolerance * (1 : Float) = HorizonNumber.tolerance := by decide +kernel
    rw [one, slack]
  · have slack := (slack_rational finite).2
    rw [max_eq_right long.le] at slack
    obtain ⟨low, high⟩ := abs_le.mp slack
    rcases abs_cases (rational q) with ⟨size, sign⟩ | ⟨size, sign⟩
    · rw [size] at low high long
      exact iff_of_false (by linarith) (by linarith)
    · rw [size] at low high long
      exact iff_of_true (by linarith) (by linarith)

/-- Exclusive runs take no step from where at most the tolerance is left, and where the way cannot be told. -/
theorem Settings.stepCount_eq_zero_iff (s : Settings) (t : Float) :
    Boundary.exclusive.stepCount t s.maxtime s.dt = 0 ↔ ¬ s.Unfinished t := by
  unfold Settings.Unfinished
  change HorizonNumber.count (HorizonNumber.ceil (_ - HorizonNumber.tolerance * HorizonNumber.magnitude _)) = 0 ↔ _
  generalize (s.maxtime - t) / s.dt = q
  cases finite : q.isFinite with
  | true =>
    have tolerance : 1e-9 < q ↔ rational HorizonNumber.tolerance < rational q :=
      lt_iff_rational tolerance_rational.1 finite
    rw [count_sub_eq_zero finite (slack_rational finite).1, le_slack_iff finite, tolerance]
    simp
  | false =>
    refine iff_of_true ?_ (by simp)
    change q.toModel.unpack.isFinite = false at finite
    cases unpacked : q.toModel.unpack with
    | zero s =>
      rw [unpacked] at finite
      cases finite
    | finite s m e positive =>
      rw [unpacked] at finite
      cases finite
    | infinity s =>
      rw [← eq_of_unpack unpacked]
      cases s <;> decide +kernel
    | notANumber =>
      rw [← eq_of_unpack unpacked]
      decide

theorem Settings.Unfinished.finite {s : Settings} (valid : s.fault? = none) {t : Float} (unfinished : s.Unfinished t) :
    t.isFinite := by
  obtain ⟨_, stepFinite, _⟩ := Settings.of_fault?_none valid
  exact (finite_of_sub (finite_of_div stepFinite unfinished.1)).2

/-- What doubles take for more than the tolerance is all but as much. -/
theorem Settings.Unfinished.distance {s : Settings} (valid : s.fault? = none) {t : Float}
    (unfinished : s.Unfinished t) : 9.9e-10 < s.distance t := by
  obtain ⟨horizonFinite, stepFinite, positive⟩ := Settings.of_fault?_none valid
  obtain ⟨within, past⟩ := unfinished
  have start := Settings.Unfinished.finite valid ⟨within, past⟩
  have near := ratio_rational start horizonFinite stepFinite positive within
  change |_ - s.distance t| ≤ max 1 |s.distance t| / 2 ^ 50 at near
  have tolerance := (abs_le.mp tolerance_rational.2).1
  have above : rational HorizonNumber.tolerance < _ := (lt_iff_rational tolerance_rational.1 within).mp past
  generalize s.distance t = r at near ⊢
  obtain ⟨low, high⟩ := abs_le.mp near
  by_contra close
  rw [not_lt] at close
  rcases le_or_gt (-1) r with short | long
  · have size : max 1 |r| = 1 := max_eq_left (abs_le.mpr ⟨short, by linarith⟩)
    rw [size] at high
    linarith
  · rw [abs_of_neg (by linarith), max_eq_right (by linarith)] at high
    linarith

/-- The sum of a start and a way is rounded to what is no further from it than the horizon. -/
theorem shortfall_le {horizon first way last dt : ℚ} {n : Nat} (positive : 0 < dt)
    (off : |way - n * dt| ≤ n * dt / 2 ^ 53) (nearest : |last - (first + way)| ≤ |horizon - (first + way)|) :
    (horizon - last) / dt ≤ 2 * max 0 ((horizon - first) / dt - n + n / 2 ^ 53) := by
  have share : ((horizon - first) / dt - n + n / 2 ^ 53) * dt = horizon - first - n * dt + n * dt / 2 ^ 53 := by
    field_simp
  have grown := mul_le_mul_of_nonneg_right (le_max_right 0 ((horizon - first) / dt - n + n / 2 ^ 53)) positive.le
  have nonnegative := mul_nonneg (le_max_left 0 ((horizon - first) / dt - n + n / 2 ^ 53)) positive.le
  rw [share] at grown
  rw [div_le_iff₀ positive, mul_assoc]
  have offLow := (abs_le.mp off).1
  have low := (abs_le.mp nearest).1
  -- a sum before the horizon is rounded back by no more than it misses, and one behind it to nothing before it
  rcases abs_cases (horizon - (first + way)) with ⟨size, sign⟩ | ⟨size, sign⟩
  · rw [size] at low
    linarith
  · rw [size] at low
    linarith

/-- What is left of the way after `n` steps, wherever rounding has put their end. -/
theorem Orbit.distance_time {o : Orbit} {s : Settings} (valid : s.fault? = none) (step : o.dt = s.dt) {n : Nat}
    (short : n < 2 ^ 53) (finite : (o.time n).isFinite) :
    s.distance (o.time n) ≤ 2 * max 0 (s.distance o.start.time - n + n / 2 ^ 53) := by
  cases n with
  | zero =>
    have zero := le_max_left 0 (s.distance o.start.time)
    have self := le_max_right 0 (s.distance o.start.time)
    rw [Orbit.time, Nat.cast_zero, zero_div, sub_zero, add_zero]
    linarith
  | succ k =>
    obtain ⟨horizonFinite, stepFinite, positive⟩ := Settings.of_fault?_none valid
    unfold Settings.distance
    rw [Orbit.time, step] at finite ⊢
    generalize k + 1 = n at short finite ⊢
    obtain ⟨start, wayFinite⟩ := finite_of_add finite
    have off := ofNat_mul_relative short stepFinite wayFinite
    rw [abs_of_nonneg (by positivity : 0 ≤ (n : ℚ) * rational s.dt)] at off
    have nearest := ((add_rounds start wayFinite).near finite).nearest (unpack_normalized horizonFinite)
    exact shortfall_le positive off nearest

theorem Settings.stepCount_near {s : Settings} (valid : s.fault? = none) {t : Float} (unfinished : s.Unfinished t)
    (reach : s.distance t ≤ 2 ^ 52) :
    s.distance t - 1.00001e-9 * max 1 (s.distance t) ≤ Boundary.exclusive.stepCount t s.maxtime s.dt ∧
      Boundary.exclusive.stepCount t s.maxtime s.dt < s.distance t + 1 := by
  obtain ⟨horizonFinite, stepFinite, positive⟩ := Settings.of_fault?_none valid
  have near := ratio_rational (unfinished.finite valid) horizonFinite stepFinite positive unfinished.1
  have ahead : 0 ≤ s.distance t := by linarith [unfinished.distance valid]
  exact count_ceil_sub_bounds unfinished.1 near ahead reach

theorem Settings.stepCount_short {s : Settings} (valid : s.fault? = none) {t : Float} (reach : s.distance t ≤ 2 ^ 52) :
    Boundary.exclusive.stepCount t s.maxtime s.dt < 2 ^ 53 := by
  by_cases begun : s.Unfinished t
  · have high := (Settings.stepCount_near valid begun reach).2
    generalize Boundary.exclusive.stepCount t s.maxtime s.dt = n at high ⊢
    exact_mod_cast (by linarith : (n : ℚ) < 2 ^ 53)
  · rw [(s.stepCount_eq_zero_iff t).mpr begun]
    decide

namespace Orbit

variable {o : Orbit} {s : Settings} (valid : s.fault? = none) (step : o.dt = s.dt)

include valid step

/-- So little is left after `n` steps that rounding cannot make it more than the tolerance. -/
theorem finished {n : Nat} (short : n < 2 ^ 53) (near : s.distance o.start.time - n + n / 2 ^ 53 ≤ 4.9e-10) :
    ¬ s.Unfinished (o.time n) := by
  intro unfinished
  have left := o.distance_time valid step short (unfinished.finite valid)
  have far := unfinished.distance valid
  have little : max 0 (s.distance o.start.time - n + n / 2 ^ 53) ≤ 4.9e-10 := max_le (by norm_num) near
  linarith

/-- What the tolerance of a run has left over is less than a step and two parts in a billion. -/
theorem steps_again (reach : s.distance o.start.time ≤ 2 ^ 52) {n : Nat}
    (count : Boundary.exclusive.stepCount o.start.time s.maxtime s.dt = n) :
    Boundary.exclusive.stepCount (o.time n) s.maxtime s.dt < 1 + 2.0001e-9 * max 1 (s.distance o.start.time) := by
  have one : 1 ≤ max 1 (s.distance o.start.time) := le_max_left _ _
  have size : s.distance o.start.time ≤ max 1 (s.distance o.start.time) := le_max_right _ _
  have large : max 1 (s.distance o.start.time) ≤ 2 ^ 52 := max_le (by norm_num) reach
  by_cases unfinished : s.Unfinished (o.time n)
  · have begun : s.Unfinished o.start.time := by
      by_contra finished
      rw [← count, (s.stepCount_eq_zero_iff o.start.time).mpr finished] at unfinished
      exact finished unfinished
    obtain ⟨low, high⟩ := Settings.stepCount_near valid begun reach
    have short := Settings.stepCount_short valid reach
    rw [count] at low high short
    have left := o.distance_time valid step short (unfinished.finite valid)
    have most : max 0 (s.distance o.start.time - n + n / 2 ^ 53) ≤ 1.00003e-9 * max 1 (s.distance o.start.time) :=
      max_le (by positivity) (by linarith)
    generalize max 1 (s.distance o.start.time) = size at one size large most ⊢
    have bound : s.distance (o.time n) ≤ 2 ^ 52 := by linarith
    have again := (Settings.stepCount_near valid unfinished bound).2
    linarith
  · rw [(s.stepCount_eq_zero_iff (o.time n)).mpr unfinished, Nat.cast_zero]
    positivity

end Orbit

/-- A run without a step to take shows its start and nothing else. -/
theorem Integrator.run_stepless {σ : Type} [Receiver σ] (integrator : Integrator) {system : OdeSystem} {v : Valuation}
    (valid : integrator.settings.fault? = none) (defined : ∀ symbol ∈ system.symbols, symbol ∈ v.names)
    (none : integrator.total v = 0) (receiver : σ) :
    let calls := [.header (clock :: system.symbols), .row (v.time :: system.symbols.filterMap v.get?)]
    let run := integrator.run system v receiver
    run.valuation = v ∧ run.receiver = (offer receiver calls).1 ∧
      run.result = match (offer receiver calls).2 with
        | .none => .ok ⟨0, v.time⟩
        | some refusal => .error (.refused refusal) := by
  intro calls run
  have reaches : integrator.Reaches system v := by
    refine ⟨valid, defined, ?_⟩
    rw [none]
    exact fun j before => absurd before (Nat.not_lt_zero j)
  obtain ⟨delivered, arrived⟩ := reaches.tape
  rw [none, Orbit.deliveries_zero] at delivered
  change _ = calls at delivered
  obtain ⟨received, refused, whole⟩ := integrator.run_cut system v receiver
  rw [delivered] at received refused whole
  refine ⟨(Integrator.Rests.stepless none).run_valuation, received, ?_⟩
  cases answer : (offer receiver calls).2 with
  | some refusal => exact (refused refusal answer).1
  | none =>
    have result := arrived.result
    rw [none] at result
    exact (whole answer).1.trans result

/-- Run again, a model with an exclusive horizon takes no step, shows where it stands and stays as it is, unless more
than the tolerance is left of the way. That is never so if rounding can have taken no more than the tolerance from the
steps of the first run, and what is left never takes more than a step and two in a billion of the way. -/
theorem finished_model_stays_finished {σ τ : Type} [Receiver σ] [Receiver τ] (m : Model) (receiver : σ) (other : τ)
    (exclusive : m.settings.boundary = .exclusive) {n : Nat} {last : Float}
    (succeeded : (m.run receiver).2.result = .ok ⟨n, last⟩) :
    let s := m.settings
    let way := s.distance m.valuation.time
    let after := (m.run receiver).1
    let again := after.run other
    let calls := [.header (clock :: m.system.symbols), .row (last :: m.system.symbols.filterMap after.valuation.get?)]
    (¬ s.Unfinished last → again.1 = after ∧ again.2.receiver = (offer other calls).1 ∧
      again.2.result = match (offer other calls).2 with
        | none => .ok ⟨0, last⟩
        | some refusal => .error (.refused refusal)) ∧
    (s.Unfinished last → ∀ summary, again.2.result = .ok summary → 1 ≤ summary.steps) ∧
    (way ≤ 2 ^ 52 →
      (way - n + n / 2 ^ 53 ≤ 4.9e-10 → ¬ s.Unfinished last) ∧
      ∀ summary, again.2.result = .ok summary → summary.steps < 1 + 2.0001e-9 * max 1 way) := by
  intro s way after again calls
  obtain ⟨reaches, arrived⟩ := Integrator.reaches_of_ok succeeded
  let o := (Integrator.euler s).orbit m.system m.valuation
  have total (v : Valuation) : (Integrator.euler s).total v = Boundary.exclusive.stepCount v.time s.maxtime s.dt :=
    congrArg (fun boundary : Boundary => boundary.stepCount v.time s.maxtime s.dt) exclusive
  obtain ⟨count, ends⟩ : Boundary.exclusive.stepCount o.start.time s.maxtime s.dt = n ∧ o.time n = last := by
    rw [← total]
    cases arrived.result.symm.trans succeeded
    exact ⟨rfl, rfl⟩
  have values : after.valuation = (o.state n).setTime last := by
    rw [← ends, ← count, ← total]
    exact arrived.valuation
  have time : after.valuation.time = last := by rw [values, Valuation.time_setTime]
  have defined : ∀ symbol ∈ m.system.symbols, symbol ∈ after.valuation.names := by
    rw [values, Valuation.names_setTime, Orbit.state_names]
    exact reaches.defined
  have none := s.stepCount_eq_zero_iff last
  rw [← time, ← total, time] at none
  have further (summary : Summary) (more : again.2.result = .ok summary) :
      summary.steps = (Integrator.euler s).total after.valuation := by
    obtain ⟨_, arrivedAgain⟩ := Integrator.reaches_of_ok more
    cases arrivedAgain.result.symm.trans more
    rfl
  refine ⟨fun finished => ?_, fun unfinished summary more => ?_, fun reach => ⟨fun near => ?_, fun summary more => ?_⟩⟩
  · obtain ⟨still, received, result⟩ :=
      (Integrator.euler s).run_stepless reaches.valid defined (none.mpr finished) other
    rw [time] at received result
    exact ⟨congrArg (fun v => { after with valuation := v }) still, received, result⟩
  · rw [further summary more]
    have some : ¬ (Integrator.euler s).total after.valuation = 0 := fun zero => none.mp zero unfinished
    omega
  · have short : Boundary.exclusive.stepCount o.start.time s.maxtime s.dt < 2 ^ 53 :=
      Settings.stepCount_short reaches.valid reach
    rw [count] at short
    rw [← ends]
    exact Orbit.finished (o := o) reaches.valid rfl short near
  · have most := Orbit.steps_again (o := o) (s := s) reaches.valid rfl reach count
    rw [ends, ← time, ← total] at most
    rw [further summary more]
    exact most

deriving instance DecidableEq for Summary

/-- One symbol that grows by one in every unit of time. -/
def growth (settings : Settings) : Model :=
  ((Model.new settings).ode "y" (.constant 1)).1

theorem finished_growth_stays_finished :
    let m := growth { maxtime := 1, dt := 0.5 }
    let after := (m.run Trajectory.empty).1
    let again := after.run Trajectory.empty
    m.settings.boundary = .exclusive ∧ (m.run Trajectory.empty).2.result = .ok ⟨2, 1⟩ ∧ again.1 = after ∧
      again.2.result = .ok ⟨0, 1⟩ ∧ again.2.receiver = ⟨["t", "y"], #[[1, 1]]⟩ := by
  intro m after again
  have succeeded : (m.run Trajectory.empty).2.result = .ok ⟨2, 1⟩ := by decide +kernel
  obtain ⟨resting, _, near⟩ := finished_model_stays_finished m Trajectory.empty Trajectory.empty rfl succeeded
  have half : rational 0.5 = (4503599627370496 : Nat) * 2 ^ (-53 : Int) := rfl
  have step : rational m.settings.dt = _ := half
  have way : m.settings.distance m.valuation.time = 2 := by
    have horizon : rational m.settings.maxtime = 1 := one_rational.2
    have start : rational m.valuation.time = 0 := zero_rational.2
    rw [Settings.distance, horizon, start, step]
    norm_num
  rw [way] at near
  have finished : ¬ m.settings.Unfinished 1 := (near (by norm_num)).1 (by norm_num)
  obtain ⟨still, received, result⟩ := resting finished
  exact ⟨rfl, succeeded, still, result.trans rfl, received.trans (by decide +kernel)⟩

/-- Within the tolerance of the first run, but not of the second: the way of the second is shorter, and less slack
comes with it. -/
theorem shortfall_is_run_again : ¬ ∀ (m : Model) (n : Nat) (last : Float), m.settings.boundary = .exclusive →
    (m.run Trajectory.empty).2.result = .ok ⟨n, last⟩ →
    ((m.run Trajectory.empty).1.run Trajectory.empty).2.result = .ok ⟨0, last⟩ := by
  intro claim
  let m := growth { maxtime := 1.000000001, dt := 1 }
  have first : (m.run Trajectory.empty).2.result = .ok ⟨1, 1⟩ := by decide +kernel
  have second : ((m.run Trajectory.empty).1.run Trajectory.empty).2.result = .ok ⟨1, 2⟩ := by decide +kernel
  have none := claim m 1 1 rfl first
  rw [second] at none
  cases none

end EulerFlow
