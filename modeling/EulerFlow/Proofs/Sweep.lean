import EulerFlow.Proofs.ValuationLaws
import EulerFlow.Run.Euler

namespace EulerFlow

/-- `value += derivative * dt` for the symbol of one equation, and what is wrong with it, if
anything. A value that is not finite is written before it is found fault with. -/
def Ode.apply (policy : NonFinitePolicy) (t dt : Float) (v : Valuation) (ode : Ode) : Valuation × Option RunError :=
  match ode.equation.eval v, v.get? ode.symbol with
  | .error cause, _ => (v, some (.eval ode.symbol t cause))
  | .ok _, none => (v, some (.eval ode.symbol t (.undefinedVariable ode.symbol)))
  | .ok derivative, some value =>
    let moved := value + derivative * dt
    (v.set ode.symbol moved,
      if policy = .abort ∧ !moved.isFinite then some (.nonFinite ode.symbol (t + dt)) else none)

/-- Applies equations one by one, each to what those before it have left, up to the first fault. -/
def sweep (policy : NonFinitePolicy) (t dt : Float) (v : Valuation) : List Ode → Valuation × Option RunError
  | [] => (v, none)
  | ode :: odes =>
    match ode.apply policy t dt v with
    | (v, none) => sweep policy t dt v odes
    | (v, some fault) => (v, some fault)

theorem Ode.apply_names (policy : NonFinitePolicy) (t dt : Float) (v : Valuation) (ode : Ode) :
    (ode.apply policy t dt v).1.names = v.names := by
  unfold Ode.apply
  split
  · rfl
  · rfl
  · rename_i found
    exact Valuation.names_set (Valuation.mem_names_iff.mpr ⟨_, found⟩) _

theorem sweep_names (policy : NonFinitePolicy) (t dt : Float) (v : Valuation) (odes : List Ode) :
    (sweep policy t dt v odes).1.names = v.names := by
  induction odes generalizing v with
  | nil => rfl
  | cons ode odes ih =>
    have first := ode.apply_names policy t dt v
    unfold sweep
    split
    · rename_i w applied
      rw [ih w, ← first, applied]
    · rename_i w fault applied
      rw [← first, applied]

section

variable {policy : NonFinitePolicy} {t dt : Float} {v : Valuation}

/-- An equation that is applied hands its valuation to the next one. -/
theorem sweep_cons_of_none {ode : Ode} (applied : (ode.apply policy t dt v).2 = none) (odes : List Ode) :
    sweep policy t dt v (ode :: odes) = sweep policy t dt (ode.apply policy t dt v).1 odes := by
  rw [sweep]
  split
  · rename_i after outcome
    rw [outcome]
  · rename_i after fault outcome
    rw [outcome] at applied
    cases applied

/-- An equation that fails is the last one. -/
theorem sweep_cons_of_some {ode : Ode} {fault : RunError} (failed : (ode.apply policy t dt v).2 = some fault)
    (odes : List Ode) : sweep policy t dt v (ode :: odes) = ode.apply policy t dt v := by
  rw [sweep]
  split
  · rename_i after outcome
    rw [outcome] at failed
    cases failed
  · rename_i after other outcome
    exact outcome.symm

theorem apply_of_sweep_cons {ode : Ode} {odes : List Ode} (went : (sweep policy t dt v (ode :: odes)).2 = none) :
    (ode.apply policy t dt v).2 = none := by
  cases outcome : (ode.apply policy t dt v).2 with
  | none => rfl
  | some fault =>
    rw [sweep_cons_of_some outcome, outcome] at went
    cases went

theorem sweep_append_of_none {odes : List Ode} (went : (sweep policy t dt v odes).2 = none) (others : List Ode) :
    sweep policy t dt v (odes ++ others) = sweep policy t dt (sweep policy t dt v odes).1 others := by
  induction odes generalizing v with
  | nil => rfl
  | cons ode odes ih =>
    have applied := apply_of_sweep_cons went
    rw [sweep_cons_of_none applied] at went
    rw [List.cons_append, sweep_cons_of_none applied, sweep_cons_of_none applied]
    exact ih went

/-- A sweep that goes through has gone through all its beginnings. -/
theorem sweep_of_sweep_append {odes others : List Ode} (went : (sweep policy t dt v (odes ++ others)).2 = none) :
    (sweep policy t dt v odes).2 = none := by
  induction odes generalizing v with
  | nil => rfl
  | cons ode odes ih =>
    have applied := apply_of_sweep_cons went
    rw [List.cons_append, sweep_cons_of_none applied] at went
    rw [sweep_cons_of_none applied]
    exact ih went

end

namespace Euler

theorem update_policy (s : Euler) (v : Valuation) (t dt : Float) (ode : Ode) :
    (s.update v t dt ode).stepper.policy = s.policy := by
  unfold update
  repeat' split
  all_goals rfl

/-- The stepper's memory of a warning has no say in values and faults. -/
theorem update_apply (s : Euler) (v : Valuation) (t dt : Float) (ode : Ode) :
    ((s.update v t dt ode).valuation, (s.update v t dt ode).fault?) = ode.apply s.policy t dt v := by
  unfold update Ode.apply
  cases ode.equation.eval v with
  | error cause => rfl
  | ok derivative =>
    cases found : v.get? ode.symbol with
    | none => simp only [Valuation.add_undefined (Valuation.get?_eq_none_iff.mp found)]
    | some value =>
      simp only [Valuation.add_eq found]
      cases (value + derivative * dt).isFinite with
      | true => simp
      | false =>
        cases s.policy with
        | abort => simp
        | propagate => cases s.warned <;> simp

theorem updates_of_fault {s : Euler} {v : Valuation} {t dt : Float} {ode : Ode} {fault : RunError}
    (failed : (s.update v t dt ode).fault? = some fault) (odes : List Ode) :
    s.updates v t dt (ode :: odes) = s.update v t dt ode := by
  simp only [updates, failed]

theorem updates_of_none {s : Euler} {v : Valuation} {t dt : Float} {ode : Ode}
    (applied : (s.update v t dt ode).fault? = none) (odes : List Ode) :
    s.updates v t dt (ode :: odes) =
      let first := s.update v t dt ode
      let others := first.stepper.updates first.valuation t dt odes
      { others with notices := first.notices ++ others.notices } := by
  simp only [updates, applied]

theorem updates_policy (s : Euler) (v : Valuation) (t dt : Float) (odes : List Ode) :
    (s.updates v t dt odes).stepper.policy = s.policy := by
  induction odes generalizing s v with
  | nil => rfl
  | cons ode odes ih =>
    have first := s.update_policy v t dt ode
    cases outcome : (s.update v t dt ode).fault? with
    | some fault => rw [updates_of_fault outcome, first]
    | none =>
      rw [updates_of_none outcome]
      exact (ih _ _).trans first

/-- What a step does to the values, and how it fails, is what the sweep says. -/
theorem updates_sweep (s : Euler) (v : Valuation) (t dt : Float) (odes : List Ode) :
    ((s.updates v t dt odes).valuation, (s.updates v t dt odes).fault?) = sweep s.policy t dt v odes := by
  -- for all steppers, since an update may leave a warning in its own
  induction odes generalizing s v with
  | nil => rfl
  | cons ode odes ih =>
    unfold sweep
    rw [← s.update_apply v t dt ode]
    cases outcome : (s.update v t dt ode).fault? with
    | some fault => simp only [updates_of_fault outcome, outcome]
    | none =>
      rw [updates_of_none outcome]
      simp only [ih, s.update_policy v t dt ode]

/-- A step is a sweep, and does not look at what was warned of before. -/
theorem step_sweep (s : Euler) (system : OdeSystem) (v : Valuation) (t dt : Float) :
    ((s.step system v t dt).valuation, (s.step system v t dt).fault?) = sweep s.policy t dt v system.entries :=
  s.updates_sweep v t dt system.entries

end Euler

end EulerFlow
