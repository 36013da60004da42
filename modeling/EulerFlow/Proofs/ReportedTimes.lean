import EulerFlow.Proofs.Clock
import EulerFlow.Proofs.EvalFailure
import EulerFlow.Proofs.FailedStep
import EulerFlow.Proofs.FinishedRun
import EulerFlow.Proofs.Warnings

namespace EulerFlow

open Float.Model Float.Model.UnpackedFloat

/-- One times a double is that double, to the bit. -/
theorem one_mul_double {x : Float} (finite : x.isFinite) : Float.ofNat 1 * x = x := by
  have one : (Float.ofNat 1).toModel.unpack = .finite .positive (2 ^ 52) (-52) (by decide) := rfl
  change Float.ofModel (.pack (UnpackedFloat.mul .binary64 (Float.ofNat 1).toModel.unpack x.toModel.unpack)) = x
  rw [one]
  have normalized := unpack_normalized finite
  cases unpacked : x.toModel.unpack with
  | infinity s =>
    rw [unpacked] at normalized
    cases normalized
  | notANumber =>
    rw [unpacked] at normalized
    cases normalized
  | zero s =>
    rw [← eq_of_unpack unpacked]
    cases s <;> rfl
  | finite s m e positive =>
    rw [unpacked] at normalized
    cases normalized with
    | finite _ _ target =>
      have shifted := shiftToTargetExponent_exact positive target 52
      rw [← eq_of_unpack unpacked]
      change Float.ofModel (.pack (roundWithAccuracy .binary64 (.positive * s) (2 ^ 52 * m) (-52 + e) .exact)) = _
      rw [Nat.cast_ofNat] at shifted
      rw [Nat.mul_comm, neg_add_eq_sub, roundWithAccuracy_eq_carried shifted]
      change Float.ofModel (.pack (carried (.positive * s) m e)) = _
      rw [carried_target positive target]
      cases s <;> rfl

/-- Two ways to the same time, each with its own rounding: a step on from the end of `n` steps, and `n + 1` steps from
the start. -/
theorem rounded_ways {s d p q t r u : ℚ} {n : Nat} (way : |p - n * d| ≤ |n * d| / 2 ^ 53)
    (last : |t - (s + p)| ≤ |s + p| / 2 ^ 53) (step : |r - (t + d)| ≤ |t + d| / 2 ^ 53)
    (whole : |q - (n + 1) * d| ≤ |(n + 1) * d| / 2 ^ 53) (next : |u - (s + q)| ≤ |s + q| / 2 ^ 53) :
    |r - u| ≤ (|s| + (n + 1) * |d|) / 2 ^ 50 := by
  have positive : 0 ≤ n * |d| := mul_nonneg (Nat.cast_nonneg n) (abs_nonneg d)
  have single := abs_nonneg d
  have started := abs_nonneg s
  have size (k : Nat) : |(k : ℚ) * d| = k * |d| := by rw [abs_mul, abs_of_nonneg (Nat.cast_nonneg k)]
  have succ : |((n : ℚ) + 1) * d| = (n + 1) * |d| := by exact_mod_cast size (n + 1)
  rw [succ] at whole
  rw [size] at way
  have sum (a b : ℚ) : |a| ≤ |a - b| + |b| := by
    have split := abs_add_le (a - b) b
    rwa [sub_add_cancel] at split
  have first : |s + p| ≤ |s| + (n * |d| / 2 ^ 53 + n * |d|) := by
    linarith [abs_add_le s p, sum p (n * d), size n]
  have second : |t + d| ≤ |s + p| / 2 ^ 53 + |s + p| + |d| := by
    linarith [abs_add_le t d, sum t (s + p)]
  have third : |s + q| ≤ |s| + ((n + 1) * |d| / 2 ^ 53 + (n + 1) * |d|) := by
    linarith [abs_add_le s q, sum q ((n + 1) * d)]
  obtain ⟨wayLow, wayHigh⟩ := abs_le.mp way
  obtain ⟨lastLow, lastHigh⟩ := abs_le.mp last
  obtain ⟨stepLow, stepHigh⟩ := abs_le.mp step
  obtain ⟨wholeLow, wholeHigh⟩ := abs_le.mp whole
  obtain ⟨nextLow, nextHigh⟩ := abs_le.mp next
  exact abs_le.mpr ⟨by linarith, by linarith⟩

namespace Orbit

theorem time_one (o : Orbit) (finite : o.dt.isFinite) : o.time 0 + o.dt = o.time 1 := by
  rw [time, time, one_mul_double finite]

theorem time_succ_near (o : Orbit) {k : Nat} (short : k + 1 < 2 ^ 53) (reported : (o.time k + o.dt).isFinite)
    (shown : (o.time (k + 1)).isFinite) :
    |rational (o.time k + o.dt) - rational (o.time (k + 1))| ≤
      (|rational o.start.time| + (k + 1) * |rational o.dt|) / 2 ^ 50 := by
  obtain ⟨lastFinite, stepFinite⟩ := finite_of_add reported
  obtain ⟨start, wholeFinite⟩ := finite_of_add shown
  have whole := ofNat_mul_relative short stepFinite wholeFinite
  rw [Nat.cast_succ] at whole
  have next := add_relative start wholeFinite shown
  have step := add_relative lastFinite stepFinite reported
  cases k with
  -- the time of the initial row is the start itself, and one step is rounded only once
  | zero =>
    rw [o.time_one stepFinite, sub_self, abs_zero]
    positivity
  | succ n =>
    obtain ⟨_, wayFinite⟩ := finite_of_add lastFinite
    have way := ofNat_mul_relative (by omega) stepFinite wayFinite
    have last := add_relative start wayFinite lastFinite
    exact rounded_ways way last step whole next

/-- A time by which a run names the step behind row `k`: it is counted from that row, while the row that the step leads
to has its time counted from the start. In the first step that is the same, and later all but the same. -/
structure Dates (o : Orbit) (k : Nat) (time : Float) : Prop where
  sum : time = o.time k + o.dt
  first : k = 0 → time = o.time 1
  near : k + 1 < 2 ^ 53 → time.isFinite → (o.time (k + 1)).isFinite →
    |rational time - rational (o.time (k + 1))| ≤ (|rational o.start.time| + (k + 1) * |rational o.dt|) / 2 ^ 50

theorem dates (o : Orbit) (finite : o.dt.isFinite) (k : Nat) : o.Dates k (o.time k + o.dt) where
  sum := rfl
  first := by
    rintro rfl
    exact o.time_one finite
  near := o.time_succ_near

end Orbit

theorem sweep_nonFinite {policy : NonFinitePolicy} {t dt : Float} {v : Valuation} {odes : List Ode} {symbol : String}
    {time : Float} (failed : (sweep policy t dt v odes).2 = some (.nonFinite symbol time)) : time = t + dt := by
  obtain ⟨u, swept⟩ : ∃ u, sweep policy t dt v odes = (u, some (.nonFinite symbol time)) := ⟨_, Prod.ext rfl failed⟩
  obtain ⟨_, _, _, _, _, _, fails⟩ := sweep_some_iff.mp swept
  cases fails
  rfl

/-- The updates of a step are the same whichever step it is. -/
theorem updates_reindex (k : Nat) (t dt : Float) (v : Valuation) (odes : List Ode) :
    updates k t dt v odes = (updates 0 t dt v odes).map fun u => { u with step := k } := by
  induction odes generalizing v with
  | nil => rfl
  | cons ode odes ih =>
    cases outcome : (ode.apply .propagate t dt v).2 with
    | none => rw [updates_cons_of_none k outcome, updates_cons_of_none 0 outcome, ih, List.map_cons]
    | some fault => rw [updates_cons_of_some k outcome, updates_cons_of_some 0 outcome, List.map_nil]

/-- What a warning is about: an update of the step, and a value that is not finite. -/
theorem mem_alarms (k : Nat) {t dt : Float} {v : Valuation} {odes : List Ode} {symbol : String} {value time : Float}
    (called : .becameNonFinite symbol value time ∈ alarms t dt v odes) :
    time = t + dt ∧ ∃ u ∈ updates k t dt v odes, u.symbol = symbol ∧ u.after.get? symbol = some value ∧
      value.isFinite = false := by
  obtain ⟨u, member, called⟩ := List.mem_filterMap.mp called
  unfold Update.warning? at called
  split at called
  · rename_i written found
    split at called
    · cases called
    · rename_i infinite
      cases called
      rw [updates_reindex]
      exact ⟨rfl, _, List.mem_map_of_mem member, rfl, found, by simpa using infinite⟩
  · cases called

section

variable {σ : Type} [Receiver σ] {system : OdeSystem} {start dt : Float}

namespace Course

theorem Follows.call {o : Orbit} {receiver : σ} {k : Nat} {c : Course σ} (follows : c.Follows o receiver k) :
    c.call o.system o.dt = ⟨o.system, (o.state k).setTime (o.time k), o.time k, o.dt⟩ := by
  rw [Course.call, follows.time, follows.valuation, Valuation.setTime_setTime]

/-- A drive that fails has come to the course from which the failing step was taken. -/
theorem Visits.of_fault {remaining : Nat} {c after : Course σ} {fault : RunError}
    (failed : c.drive system start dt remaining = (after, some fault)) :
    ∃ visited, Visits system start dt remaining c visited ∧ visited.advance system start dt = (after, some fault) := by
  induction remaining generalizing c with
  | zero => cases failed
  | succ remaining ih =>
    unfold Course.drive at failed
    rcases advanced : c.advance system start dt with ⟨middle, _ | other⟩
    · rw [advanced] at failed
      obtain ⟨visited, visits, last⟩ := ih failed
      exact ⟨visited, .later advanced visits, last⟩
    · rw [advanced] at failed
      cases failed
      exact ⟨c, .now, advanced⟩

/-- The calls of a drive are the steps from the courses that it comes to. -/
theorem Visits.of_call {remaining : Nat} {c : Course σ} {call : StepCall}
    (member : call ∈ c.calls system start dt remaining) :
    ∃ visited, Visits system start dt remaining c visited ∧ call = visited.call system dt := by
  induction remaining generalizing c with
  | zero => cases member
  | succ remaining ih =>
    unfold calls at member
    rcases List.mem_cons.mp member with rfl | later
    · exact ⟨c, .now, rfl⟩
    · rcases advanced : c.advance system start dt with ⟨middle, _ | fault⟩
      · rw [advanced] at later
        obtain ⟨visited, visits, same⟩ := ih later
        exact ⟨visited, .later advanced visits, same⟩
      · rw [advanced] at later
        cases later

theorem Visits.steps {remaining : Nat} {c visited : Course σ} (visits : Visits system start dt remaining c visited) :
    visited.steps < c.steps + remaining := by
  induction visits with
  | now => omega
  | @later remaining c middle visited advanced _ ih =>
    have step := c.advance_cases system start dt
    rw [advanced] at step
    cases step with
    | delivered =>
      change _ < c.steps + 1 + remaining at ih
      omega

end Course

namespace Integrator

theorem opening_none {settings : Settings} {v : Valuation} {receiver ready : σ}
    (opened : opening settings system v receiver = (ready, none)) :
    settings.fault? = none ∧ ∃ headed row, Receiver.receive receiver (.header (clock :: system.symbols)) = (headed, none) ∧
      system.row v v.time = .ok row ∧ Receiver.receive headed (.row row) = (ready, none) := by
  unfold opening at opened
  split at opened
  · cases opened
  · rename_i valid
    split at opened
    · cases opened
    · rename_i headed header
      split at opened
      · cases opened
      · rename_i row filled
        split at opened
        · cases opened
        · rename_i answer
          cases opened
          exact ⟨valid, headed, row, header, filled, answer⟩

variable {integrator : Integrator} {v : Valuation} {receiver : σ}

/-- A run in which a value is no longer finite has come to the step of which that is the fault. -/
theorem visits_of_nonFinite {symbol : String} {time : Float}
    (ended : (integrator.run system v receiver).result = .error (.nonFinite symbol time)) :
    ∃ c, integrator.Visits system v receiver c ∧ c.steps < integrator.total v ∧
      (c.stepped system integrator.settings.dt).fault? = some (.nonFinite symbol time) ∧
      (integrator.run system v receiver).receiver = c.receiver := by
  have reached := integrator.run_cases system v receiver
  generalize integrator.run system v receiver = run at reached ended
  cases reached with
  | invalid => cases ended
  | headless => cases ended
  | rowless _ _ missing =>
    obtain ⟨_, _, _, _, rfl⟩ := OdeSystem.row_error missing
    cases ended
  | refused => cases ended
  | @driven headed ready row course fault? valid header filled answer drive =>
    cases fault? with
    | none => cases ended
    | some fault =>
      cases ended
      obtain ⟨c, visits, last⟩ := Course.Visits.of_fault drive
      have step := c.advance_cases system v.time integrator.settings.dt
      rw [last] at step
      have before := visits.steps
      rw [opened, Nat.zero_add] at before
      refine ⟨c, ⟨valid, headed, ready, row, header, filled, answer, visits⟩, before, ?_⟩
      cases step with
      | failed failed => exact ⟨failed, rfl⟩
      | rowless _ missing =>
        obtain ⟨_, _, _, _, other⟩ := OdeSystem.row_error missing
        cases other

/-- A run that warns of a value has come to the step that calls for the warning. -/
theorem visits_of_warning {symbol : String} {value time : Float}
    (warned : .becameNonFinite symbol value time ∈ (integrator.run system v receiver).notices) :
    ∃ c, integrator.Visits system v receiver c ∧ c.steps < integrator.total v ∧
      .becameNonFinite symbol value time ∈ (c.call system integrator.settings.dt).alarms := by
  let call : RunCall σ := ⟨system, v, receiver⟩
  have given : .becameNonFinite symbol value time ∈ warnings (call.answer integrator).notices :=
    List.mem_filter.mpr ⟨warned, rfl⟩
  rw [(call.answer_heeds integrator).given] at given
  obtain ⟨step, member, called⟩ := List.mem_flatMap.mp (List.mem_of_mem_take given)
  unfold RunCall.calls at member
  rcases opened : opening integrator.settings system v receiver with ⟨ready, _ | fault⟩
  · rw [opened] at member
    obtain ⟨valid, headed, row, header, filled, answer⟩ := opening_none opened
    obtain ⟨c, visits, rfl⟩ := Course.Visits.of_call member
    have before := visits.steps
    rw [Integrator.opened, Nat.zero_add] at before
    exact ⟨c, ⟨valid, headed, ready, row, header, filled, answer, visits⟩, before, called⟩
  · rw [opened] at member
    cases member

end Integrator

end

/-- The time by which a run names a value that is not finite, as it fails or as it warns, is that of the last row before
it and one step. -/
theorem nonFinite_time_from_last_row {σ : Type} [Receiver σ] (integrator : Integrator) (system : OdeSystem)
    (v : Valuation) (receiver : σ) :
    let o := integrator.orbit system v
    let run := integrator.run system v receiver
    (∀ symbol time, run.result = .error (.nonFinite symbol time) →
      ∃ k < integrator.total v, (∀ j < k, o.fault? j = none) ∧ o.fault? k = some (.nonFinite symbol time) ∧
        run.receiver = deliverAll receiver (o.deliveries k) ∧ o.Dates k time) ∧
    ∀ symbol value time, .becameNonFinite symbol value time ∈ run.notices →
      ∃ k < integrator.total v, (∀ j < k, o.fault? j = none) ∧
        (∃ u ∈ o.updates k, u.symbol = symbol ∧ u.after.get? symbol = some value ∧ value.isFinite = false) ∧
        o.Dates k time := by
  intro o run
  have dates {c : Course σ} (visits : integrator.Visits system v receiver c) (k : Nat) : o.Dates k (o.time k + o.dt) :=
    o.dates (Settings.of_fault?_none visits.1).2.1 k
  constructor
  · intro symbol time ended
    obtain ⟨c, visits, before, failed, received⟩ := Integrator.visits_of_nonFinite ended
    have follows := visits.follows
    have atStep : o.fault? c.steps = some (.nonFinite symbol time) :=
      (congrArg Prod.snd follows.stepped).symm.trans failed
    obtain rfl := sweep_nonFinite atStep
    exact ⟨c.steps, before, follows.faultless, atStep, received.trans follows.received, dates visits c.steps⟩
  · intro symbol value time warned
    obtain ⟨c, visits, before, called⟩ := Integrator.visits_of_warning warned
    have follows := visits.follows
    change _ ∈ (c.call o.system o.dt).alarms at called
    rw [follows.call] at called
    obtain ⟨rfl, update⟩ := mem_alarms c.steps called
    exact ⟨c.steps, before, follows.faultless, update, dates visits c.steps⟩

/-- A growth that has a pole halfway through the first unit of time. -/
def pole : OdeSystem :=
  OdeSystem.empty.insert "y" (.binary (.constant 1) "/" (.binary (.symbol "t") "-" (.constant 0.5)))

/-- The start of a run whose equation has a pole on its way. -/
def poleStart : Valuation :=
  Valuation.initial.set "y" 0

/-- Not every run that aborts names the time of the row that it owes, and not every warning names that of a row that is
delivered: at the pole both name 0.6, where the row has 0.6000000000000001. -/
theorem nonFinite_time_misses_row :
    (¬ ∀ (settings : Settings) (system : OdeSystem) (v : Valuation) (symbol : String) (time : Float),
      let integrator := Integrator.euler settings
      let run := integrator.run system v Trajectory.empty
      run.result = .error (.nonFinite symbol time) → time = (integrator.orbit system v).time run.receiver.rows.size) ∧
    ¬ ∀ (settings : Settings) (system : OdeSystem) (v : Valuation) (symbol : String) (value time : Float),
      let run := (Integrator.euler settings).run system v Trajectory.empty
      .becameNonFinite symbol value time ∈ run.notices → run.receiver.rows.any (·.head? = some time) := by
  let settings : Settings := { maxtime := 1, dt := 0.1 }
  constructor
  · intro claim
    have aborted : ((Integrator.euler { settings with nonFinite := .abort }).run pole poleStart Trajectory.empty).result =
        .error (.nonFinite "y" 0.6) := by decide +kernel
    exact absurd (claim _ _ _ _ _ aborted) (by decide +kernel)
  · intro claim
    let run := (Integrator.euler settings).run pole poleStart Trajectory.empty
    have warned : run.notices.any (fun notice =>
        match notice with
        | .becameNonFinite symbol _ time => symbol = "y" ∧ time = 0.6
        | _ => false) = true := by decide +kernel
    obtain ⟨notice, member, same⟩ := List.any_eq_true.mp warned
    split at same
    · obtain ⟨rfl, rfl⟩ := of_decide_eq_true same
      exact absurd (claim settings pole poleStart _ _ _ member) (by decide +kernel)
    · cases same

end EulerFlow
