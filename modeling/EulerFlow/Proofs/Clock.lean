import EulerFlow.Proofs.RunOrbit
import EulerFlow.Proofs.Updates

namespace EulerFlow

/-- In the updates of a step the derivative of an equation is evaluated on some values, behind the
equations that were applied before it. -/
inductive Euler.Evaluates (t dt : Float) :
    Euler → Valuation → List Ode → List Ode → Ode → Valuation → Prop
  | here {s v ode odes} : Evaluates t dt s v (ode :: odes) [] ode v
  | later {s v ode odes before other w} : (s.update v t dt ode).fault? = none →
      Evaluates t dt (s.update v t dt ode).stepper (s.update v t dt ode).valuation odes before other w →
      Evaluates t dt s v (ode :: odes) (ode :: before) other w

namespace Euler.Evaluates

variable {t dt : Float} {s : Euler} {v w : Valuation} {odes before : List Ode} {ode : Ode}

/-- A derivative is evaluated on what the sweep of the equations before it has left. -/
theorem swept (evaluates : Evaluates t dt s v odes before ode w) : sweep s.policy t dt v before = (w, none) := by
  induction evaluates with
  | here => rfl
  | @later s v first odes before other w applied _ ih =>
    have same := s.update_apply v t dt first
    have values : (s.update v t dt first).valuation = (first.apply s.policy t dt v).1 := congrArg Prod.fst same
    have outcome : (s.update v t dt first).fault? = (first.apply s.policy t dt v).2 := congrArg Prod.snd same
    rw [sweep_cons_of_none (outcome.symm.trans applied), ← values, ← s.update_policy v t dt first]
    exact ih

theorem split (evaluates : Evaluates t dt s v odes before ode w) : ∃ after, odes = before ++ ode :: after := by
  induction evaluates with
  | here => exact ⟨_, rfl⟩
  | later _ _ ih =>
    obtain ⟨after, rfl⟩ := ih
    exact ⟨after, rfl⟩

/-- The derivatives of the equations before it were evaluated earlier. -/
theorem earlier {first : List Ode} {other : Ode} {others : List Ode}
    (evaluates : Evaluates t dt s v odes before ode w) (behind : before = first ++ other :: others) :
    ∃ u, Evaluates t dt s v odes first other u := by
  induction evaluates generalizing first with
  | here => cases first <;> cases behind
  | @later s v head odes before _ w applied _ ih =>
    cases first with
    | nil =>
      cases behind
      exact ⟨v, .here⟩
    | cons same first =>
      cases behind
      obtain ⟨u, evaluated⟩ := ih rfl
      exact ⟨u, .later applied evaluated⟩

/-- The turn of an equation comes once those before it have been applied. -/
theorem of_applied (applied : (s.updates v t dt before).fault? = none) (ode : Ode) (after : List Ode) :
    ∃ w, Evaluates t dt s v (before ++ ode :: after) before ode w := by
  induction before generalizing s v with
  | nil => exact ⟨v, .here⟩
  | cons first before ih =>
    cases outcome : (s.update v t dt first).fault? with
    | some fault =>
      rw [updates_of_fault outcome, outcome] at applied
      cases applied
    | none =>
      rw [updates_of_none outcome] at applied
      obtain ⟨w, evaluates⟩ := ih applied
      exact ⟨w, .later outcome evaluates⟩

/-- A derivative that cannot be evaluated on its values ends the step with that fault. -/
theorem fault {cause : EvalError} (evaluates : Evaluates t dt s v odes before ode w)
    (failed : ode.equation.eval w = .error cause) : (s.updates v t dt odes).fault? = some (.eval ode.symbol t cause) := by
  induction evaluates with
  | @here s v ode odes =>
    have outcome : (s.update v t dt ode).fault? = some (.eval ode.symbol t cause) := by
      simp only [update, failed]
    rw [updates_of_fault outcome, outcome]
  | later applied _ ih =>
    rw [updates_of_none applied]
    exact ih failed

end Euler.Evaluates

/-- An equation that was applied has moved its symbol along its derivative. -/
theorem Ode.apply_moved {policy : NonFinitePolicy} {t dt : Float} {v : Valuation} {ode : Ode}
    (applied : (ode.apply policy t dt v).2 = none) :
    ∃ derivative value, ode.equation.eval v = .ok derivative ∧ v.get? ode.symbol = some value ∧
      (ode.apply policy t dt v).1.get? ode.symbol = some (value + derivative * dt) := by
  unfold Ode.apply at applied ⊢
  split at applied
  · cases applied
  · cases applied
  · rename_i derivative value found old
    exact ⟨derivative, value, found, old, (Valuation.get?_set ..).trans (if_pos rfl)⟩

theorem Valuation.eval_clock {v : Valuation} {t : Float} (shown : v.get? clock = some t) :
    (Expr.symbol clock).eval v = .ok t := by
  rw [Expr.eval, Valuation.get, shown]

/-- Until the clock's own equation is applied, if there is one, the clock shows what it showed at
the start of the step. Behind it the clock has moved along the derivative of that equation. -/
theorem Euler.Evaluates.clock_shown {t dt : Float} {s : Euler} {v w : Valuation} {odes before : List Ode} {ode : Ode}
    (evaluates : Evaluates t dt s v odes before ode w) (distinct : (odes.map Ode.symbol).Nodup) :
    (clock ∉ before.map Ode.symbol → (Expr.symbol clock).eval w = .ok v.time) ∧
      ∀ first other others, before = first ++ other :: others → other.symbol = clock →
        ∃ u derivative, Evaluates t dt s v odes first other u ∧ other.equation.eval u = .ok derivative ∧
          (Expr.symbol clock).eval w = .ok (v.time + derivative * dt) := by
  have swept := evaluates.swept
  refine ⟨fun absent => ?_, fun first other others behind named => ?_⟩
  · have still := sweep_get? s.policy t dt v absent
    rw [swept, v.get?_clock] at still
    exact Valuation.eval_clock still
  · obtain ⟨u, evaluated⟩ := evaluates.earlier behind
    obtain ⟨after, rfl⟩ := evaluates.split
    have begun := evaluated.swept
    subst behind
    simp only [List.map_append, List.map_cons, List.append_assoc, List.cons_append] at distinct
    obtain ⟨_, behind, apart⟩ := List.nodup_append.mp distinct
    -- no symbol occurs twice, so nothing but this equation writes to the clock
    have fresh : clock ∉ first.map Ode.symbol :=
      fun member => apart clock member other.symbol (List.mem_cons_self ..) named.symm
    have last : clock ∉ others.map Ode.symbol := by
      have once := (List.nodup_cons.mp behind).1
      rw [named, List.mem_append, not_or] at once
      exact once.1
    rw [sweep_append_of_none (by rw [begun]), begun] at swept
    have applied := apply_of_sweep_cons (congrArg Prod.snd swept)
    obtain ⟨derivative, value, found, old, moved⟩ := Ode.apply_moved applied
    rw [sweep_cons_of_none applied] at swept
    have started := sweep_get? s.policy t dt v fresh
    have ended := sweep_get? s.policy t dt (other.apply s.policy t dt u).1 last
    rw [begun, v.get?_clock, ← named, old] at started
    rw [swept, ← named, moved, named] at ended
    cases started
    exact ⟨u, derivative, evaluated, found, Valuation.eval_clock ended⟩

section

variable {σ : Type} [Receiver σ]

namespace Course

/-- In the next step of a run the derivative of an equation is evaluated on some values. -/
def Evaluates (system : OdeSystem) (dt : Float) (c : Course σ) : List Ode → Ode → Valuation → Prop :=
  Euler.Evaluates c.time dt c.stepper (c.valuation.setTime c.time) system.entries

/-- A drive of so many steps comes to take a step from a course. -/
inductive Visits (system : OdeSystem) (start dt : Float) : Nat → Course σ → Course σ → Prop
  | now {remaining c} : Visits system start dt (remaining + 1) c c
  | later {remaining c middle visited} : c.advance system start dt = (middle, none) →
      Visits system start dt remaining middle visited → Visits system start dt (remaining + 1) c visited

/-- From a course that it comes to, a drive goes on as it would have started there. -/
theorem Visits.drive {system : OdeSystem} {start dt : Float} {remaining : Nat} {c visited : Course σ}
    (visits : Visits system start dt remaining c visited) :
    ∃ rest, c.drive system start dt remaining = visited.drive system start dt (rest + 1) := by
  induction visits with
  | @now remaining => exact ⟨remaining, rfl⟩
  | later advanced _ ih =>
    obtain ⟨rest, same⟩ := ih
    refine ⟨rest, ?_⟩
    rw [Course.drive, advanced]
    exact same

theorem Visits.follows {o : Orbit} {receiver : σ} {k remaining : Nat} {c visited : Course σ}
    (visits : Visits o.system o.start.time o.dt remaining c visited) (follows : c.Follows o receiver k)
    (defined : ∀ symbol ∈ o.system.symbols, symbol ∈ o.start.names) :
    visited.Follows o receiver visited.steps := by
  induction visits generalizing k with
  | now => rwa [follows.steps]
  | @later remaining c middle visited advanced _ ih =>
    have step := c.advance_cases o.system o.start.time o.dt
    rw [advanced] at step
    exact ih (follows.delivered defined step).2

end Course

/-- A run comes to take a step from a course. -/
def Integrator.Visits (integrator : Integrator) (system : OdeSystem) (v : Valuation) (receiver : σ)
    (c : Course σ) : Prop :=
  integrator.settings.fault? = none ∧ ∃ headed ready row,
    Receiver.receive receiver (.header (clock :: system.symbols)) = (headed, none) ∧
      system.row v v.time = .ok row ∧ Receiver.receive headed (.row row) = (ready, none) ∧
      Course.Visits system v.time integrator.settings.dt (integrator.total v) (integrator.opened system v ready) c

theorem Integrator.Visits.follows {integrator : Integrator} {system : OdeSystem} {v : Valuation} {receiver : σ}
    {c : Course σ} (visits : integrator.Visits system v receiver c) :
    c.Follows (integrator.orbit system v) receiver c.steps := by
  obtain ⟨_, headed, ready, row, header, filled, answer, visits⟩ := visits
  have defined := OdeSystem.row_defined filled
  rw [OdeSystem.row_eq defined] at filled
  cases filled
  have received : ready = deliverAll receiver ((integrator.orbit system v).deliveries 0) := by
    simp only [Orbit.deliveries_zero, Integrator.orbit, deliverAll, List.foldl_cons, List.foldl_nil, header, answer]
  have begun := integrator.opened_follows system v received
  exact visits.follows (o := integrator.orbit system v) begun defined

/-- In every step of a run the derivatives read the time of the row that was delivered last, unless
the system has an equation for the clock itself and that equation is applied before them. -/
theorem derivatives_read_row_time {integrator : Integrator} {system : OdeSystem} {v : Valuation} {receiver : σ}
    {c : Course σ} (visits : integrator.Visits system v receiver c) :
    let dt := integrator.settings.dt
    let t := if c.steps = 0 then v.time else v.time + Float.ofNat c.steps * dt
    (∃ earlier values, c.receiver = deliverAll receiver (earlier ++ [.row (t :: values)])) ∧
      ∀ before ode w, c.Evaluates system dt before ode w →
        (clock ∉ before.map Ode.symbol → (Expr.symbol clock).eval w = .ok t) ∧
          ∀ first other others, before = first ++ other :: others → other.symbol = clock →
            ∃ u derivative, c.Evaluates system dt first other u ∧ other.equation.eval u = .ok derivative ∧
              (Expr.symbol clock).eval w = .ok (t + derivative * dt) := by
  intro dt t
  have follows := visits.follows
  let o := integrator.orbit system v
  have time : o.time c.steps = t := by
    by_cases start : c.steps = 0
    · simp only [t, start, if_true]
      rfl
    · obtain ⟨k, here⟩ := Nat.exists_eq_succ_of_ne_zero start
      simp only [t, here]
      rfl
  refine ⟨?_, fun before ode w evaluates => ?_⟩
  · refine ⟨.header (clock :: system.symbols) :: (List.range c.steps).map fun j => .row (o.row j),
      system.symbols.filterMap (o.state c.steps).get?, ?_⟩
    have received : c.receiver = deliverAll receiver (o.deliveries c.steps) := follows.received
    rw [received, Orbit.deliveries, List.range_succ, List.map_append, ← List.cons_append, List.map_singleton,
      Orbit.row, time]
    rfl
  · have reads := evaluates.clock_shown system.distinct
    have clocked : c.time = t := follows.time.trans time
    rw [Valuation.time_setTime, clocked] at reads
    rwa [Course.Evaluates, clocked]

end

/-- The quadratic `y' = t` from zero. -/
def parabola : OdeSystem :=
  OdeSystem.empty.insert "y" (.symbol "t")

theorem derivatives_read_row_time_parabola :
    let integrator := Integrator.euler { maxtime := 1, dt := 0.5 }
    let start := Valuation.initial.set "y" 0
    ∃ c : Course Trajectory, integrator.Visits parabola start Trajectory.empty c ∧ c.steps = 1 ∧
      (∃ earlier values, c.receiver = deliverAll Trajectory.empty (earlier ++ [.row (0.5 :: values)])) ∧
      ∃ w, c.Evaluates parabola 0.5 [] ⟨"y", .symbol "t"⟩ w ∧ (Expr.symbol clock).eval w = .ok 0.5 := by
  intro integrator start
  let opened := integrator.opened parabola start (⟨["t", "y"], #[[0, 0]]⟩ : Trajectory)
  let c := (opened.advance parabola start.time 0.5).1
  have total : integrator.total start = 2 := by decide +kernel
  have advanced : opened.advance parabola start.time 0.5 = (c, none) := Prod.ext rfl (by decide +kernel)
  have steps : c.steps = 1 := by decide +kernel
  have visits : integrator.Visits parabola start Trajectory.empty c := by
    have filled := @OdeSystem.row_eq parabola start (by decide) start.time
    refine ⟨by decide, ⟨["t", "y"], #[]⟩, ⟨["t", "y"], #[[0, 0]]⟩, _, rfl, filled, rfl, ?_⟩
    rw [total]
    exact .later advanced .now
  obtain ⟨⟨earlier, values, delivered⟩, reads⟩ := derivatives_read_row_time visits
  have time :
      (if c.steps = 0 then start.time else start.time + Float.ofNat c.steps * integrator.settings.dt) = 0.5 := by
    rw [steps]
    decide +kernel
  have evaluates : c.Evaluates parabola 0.5 [] ⟨"y", .symbol "t"⟩ (c.valuation.setTime c.time) := .here
  obtain ⟨read, _⟩ := reads [] _ _ evaluates
  refine ⟨c, visits, steps, ⟨earlier, values, ?_⟩, _, evaluates, ?_⟩
  · rwa [time] at delivered
  · exact (read List.not_mem_nil).trans (congrArg Except.ok time)

/-- An equation for the clock, and one for a symbol behind it that reads the clock. -/
def clockEquation : OdeSystem :=
  (OdeSystem.empty.insert "t" (.constant 1)).insert "y" (.symbol "t")

/-- Nothing keeps an equation for the clock from moving it within a step: the initial row shows zero, but
behind that equation the clock reads a half. -/
theorem clock_equation_moves_clock :
    let integrator := Integrator.euler { maxtime := 0.5, dt := 0.5 }
    let start := Valuation.initial.set "y" 0
    (∃ c : Course Trajectory, integrator.Visits clockEquation start Trajectory.empty c ∧
      c.receiver = ⟨["t", "t", "y"], #[[0, 0, 0]]⟩ ∧
      ∃ w, c.Evaluates clockEquation 0.5 [⟨"t", .constant 1⟩] ⟨"y", .symbol "t"⟩ w ∧
        (Expr.symbol clock).eval w = .ok 0.5) ∧
      (integrator.run clockEquation start Trajectory.empty).receiver =
        ⟨["t", "t", "y"], #[[0, 0, 0], [0.5, 0.5, 0.25]]⟩ := by
  intro integrator start
  let opened := integrator.opened clockEquation start (⟨["t", "t", "y"], #[[0, 0, 0]]⟩ : Trajectory)
  have total : integrator.total start = 1 := by decide +kernel
  have visits : integrator.Visits clockEquation start Trajectory.empty opened := by
    have filled := @OdeSystem.row_eq clockEquation start (by decide) start.time
    refine ⟨by decide, ⟨["t", "t", "y"], #[]⟩, ⟨["t", "t", "y"], #[[0, 0, 0]]⟩, _, rfl, filled, rfl, ?_⟩
    rw [total]
    exact .now
  have applied : (opened.stepper.update (opened.valuation.setTime opened.time) opened.time 0.5
    ⟨"t", .constant 1⟩).fault? = none := by decide +kernel
  refine ⟨⟨opened, visits, rfl, _, .later applied .here, ?_⟩, ?_⟩
  · exact Valuation.eval_clock (by decide +kernel)
  · decide +kernel

end EulerFlow
