import EulerFlow.Proofs.Updates

namespace EulerFlow

/-- How an equation fails on some values: the error, and the values that it leaves. Only a value that is not finite
has been written by then. -/
inductive Ode.Fails (policy : NonFinitePolicy) (t dt : Float) (v : Valuation) (ode : Ode) :
    RunError → Valuation → Prop
  | unevaluated {cause} : ode.equation.eval v = .error cause →
      Fails policy t dt v ode (.eval ode.symbol t cause) v
  | undefined {derivative} : ode.equation.eval v = .ok derivative → v.get? ode.symbol = none →
      Fails policy t dt v ode (.eval ode.symbol t (.undefinedVariable ode.symbol)) v
  | nonFinite {derivative value} : policy = .abort → ode.equation.eval v = .ok derivative →
      v.get? ode.symbol = some value → (value + derivative * dt).isFinite = false →
      Fails policy t dt v ode (.nonFinite ode.symbol (t + dt)) (v.set ode.symbol (value + derivative * dt))

/-- Equations that are applied one by one, each to what those before it have left, and of which none fails. -/
inductive Applied (policy : NonFinitePolicy) (t dt : Float) : Valuation → List Ode → Valuation → Prop
  | done {v} : Applied policy t dt v [] v
  | next {v w ode odes derivative value} : (∀ fault u, ¬ ode.Fails policy t dt v fault u) →
      ode.equation.eval v = .ok derivative → v.get? ode.symbol = some value →
      Applied policy t dt (v.set ode.symbol (value + derivative * dt)) odes w →
      Applied policy t dt v (ode :: odes) w

section

variable {policy : NonFinitePolicy} {t dt : Float} {v w u : Valuation} {ode : Ode} {odes : List Ode} {fault : RunError}

theorem Ode.fails_iff : ode.Fails policy t dt v fault u ↔ ode.apply policy t dt v = (u, some fault) := by
  constructor
  · rintro (unevaluated | ⟨evaluated, undefined⟩ | ⟨strict, evaluated, found, infinite⟩)
    · simp only [apply, unevaluated]
    · simp only [apply, evaluated, undefined]
    · simp [apply, evaluated, found, strict, infinite]
  · intro failed
    unfold apply at failed
    split at failed
    · rename_i unevaluated
      cases failed
      exact .unevaluated unevaluated
    · rename_i evaluated undefined
      cases failed
      exact .undefined evaluated undefined
    · rename_i evaluated found
      obtain ⟨rfl, escaped⟩ := Prod.mk.inj failed
      split at escaped
      · rename_i infinite
        cases escaped
        exact .nonFinite infinite.1 evaluated found (by simpa using infinite.2)
      · cases escaped

/-- An equation that does not fail moves its symbol along its derivative. -/
theorem Ode.apply_none_iff : ode.apply policy t dt v = (w, none) ↔
    (∀ fault u, ¬ ode.Fails policy t dt v fault u) ∧ ∃ derivative value, ode.equation.eval v = .ok derivative ∧
      v.get? ode.symbol = some value ∧ w = v.set ode.symbol (value + derivative * dt) := by
  constructor
  · intro went
    refine ⟨fun fault u fails => ?_, ?_⟩
    · cases went.symm.trans (fails_iff.mp fails)
    · unfold apply at went
      split at went
      · cases went
      · cases went
      · rename_i derivative value evaluated found
        exact ⟨derivative, value, evaluated, found, (congrArg Prod.fst went).symm⟩
  · rintro ⟨sound, derivative, value, evaluated, found, rfl⟩
    cases outcome : (ode.apply policy t dt v).2 with
    | some fault => exact absurd (fails_iff.mpr (Prod.ext rfl outcome)) (sound fault _)
    | none =>
      refine Prod.ext ?_ outcome
      simp only [apply, evaluated, found]

theorem applied_iff : Applied policy t dt v odes w ↔ sweep policy t dt v odes = (w, none) := by
  constructor
  · intro applied
    induction applied with
    | done => rfl
    | next sound evaluated found _ ih =>
      have went := Ode.apply_none_iff.mpr ⟨sound, _, _, evaluated, found, rfl⟩
      rw [sweep_cons_of_none (congrArg Prod.snd went), went]
      exact ih
  · intro went
    induction odes generalizing v with
    | nil =>
      cases went
      exact .done
    | cons ode odes ih =>
      have applied := apply_of_sweep_cons (congrArg Prod.snd went)
      have outcome : ode.apply policy t dt v = ((ode.apply policy t dt v).1, none) := Prod.ext rfl applied
      obtain ⟨sound, derivative, value, evaluated, found, moved⟩ := Ode.apply_none_iff.mp outcome
      rw [sweep_cons_of_none applied, moved] at went
      exact .next sound evaluated found (ih went)

/-- A sweep that fails has gone through all equations before the one that fails, and none behind it. -/
theorem sweep_some_iff : sweep policy t dt v odes = (u, some fault) ↔ ∃ before ode after w,
    odes = before ++ ode :: after ∧ Applied policy t dt v before w ∧ ode.Fails policy t dt w fault u := by
  simp only [applied_iff, Ode.fails_iff]
  constructor
  · intro failed
    induction odes generalizing v with
    | nil => cases failed
    | cons first odes ih =>
      cases outcome : (first.apply policy t dt v).2 with
      | some other =>
        rw [sweep_cons_of_some outcome] at failed
        exact ⟨[], first, odes, v, rfl, rfl, failed⟩
      | none =>
        rw [sweep_cons_of_none outcome] at failed
        obtain ⟨before, ode, after, w, rfl, went, fails⟩ := ih failed
        exact ⟨first :: before, ode, after, w, rfl, (sweep_cons_of_none outcome before).trans went, fails⟩
  · rintro ⟨before, ode, after, w, rfl, went, fails⟩
    rw [sweep_append_of_none (congrArg Prod.snd went), went,
      sweep_cons_of_some (congrArg Prod.snd fails)]
    exact fails

theorem Applied.get? (applied : Applied policy t dt v odes w) {name : String} (other : name ∉ odes.map Ode.symbol) :
    w.get? name = v.get? name := by
  have still := sweep_get? policy t dt v other
  rwa [applied_iff.mp applied] at still

theorem Ode.Fails.get? (fails : ode.Fails policy t dt v fault u) {name : String}
    (other : name = ode.symbol → ∃ cause, fault = .eval ode.symbol t cause) : u.get? name = v.get? name := by
  cases fails with
  | unevaluated => rfl
  | undefined => rfl
  | nonFinite =>
    rw [Valuation.get?_set, if_neg]
    intro same
    obtain ⟨cause, evaluation⟩ := other same
    cases evaluation

theorem Ode.Fails.names (fails : ode.Fails policy t dt v fault u) : u.names = v.names := by
  have names := ode.apply_names policy t dt v
  rwa [Ode.fails_iff.mp fails] at names

theorem Applied.names (applied : Applied policy t dt v odes w) : w.names = v.names := by
  have names := sweep_names policy t dt v odes
  rwa [applied_iff.mp applied] at names

end

/-- A step fails if and only if one of its equations fails on what those before it have left, and it stops at the
first. Those before it have been applied. Its own symbol has moved only if the new value is what the step failed for,
and everything else is as it was. -/
theorem failed_step_stops (s : Euler) (system : OdeSystem) (v : Valuation) (t dt : Float) :
    let stepped := s.step system v t dt
    (stepped.fault? = none ↔ ∃ w, Applied s.policy t dt v system.entries w) ∧
      ∀ fault, stepped.fault? = some fault ↔ ∃ before ode after w, system.entries = before ++ ode :: after ∧
        Applied s.policy t dt v before w ∧ ode.Fails s.policy t dt w fault stepped.valuation ∧
        (∀ earlier ∈ before, stepped.valuation.get? earlier.symbol = w.get? earlier.symbol) ∧
        (∀ later ∈ after, stepped.valuation.get? later.symbol = v.get? later.symbol) ∧
        (∀ name, name ∉ before.map Ode.symbol → (name = ode.symbol → ∃ cause, fault = .eval ode.symbol t cause) →
          stepped.valuation.get? name = v.get? name) ∧
        stepped.valuation.names = v.names := by
  intro stepped
  have swept : (stepped.valuation, stepped.fault?) = sweep s.policy t dt v system.entries := s.step_sweep system v t dt
  refine ⟨?_, fun fault => ⟨fun failed => ?_, ?_⟩⟩
  · simp only [applied_iff, ← swept, Prod.mk.injEq, exists_and_right, exists_eq', true_and]
  · rw [failed] at swept
    obtain ⟨before, ode, after, w, split, applied, fails⟩ := sweep_some_iff.mp swept.symm
    have distinct := system.distinct
    rw [split, List.map_append, List.map_cons] at distinct
    obtain ⟨_, behind, apart⟩ := List.nodup_append.mp distinct
    have rest (name : String) (unmoved : name ∉ before.map Ode.symbol)
        (unwritten : name = ode.symbol → ∃ cause, fault = .eval ode.symbol t cause) :
        stepped.valuation.get? name = v.get? name :=
      (fails.get? unwritten).trans (applied.get? unmoved)
    refine ⟨before, ode, after, w, split, applied, fails, fun earlier member => ?_, fun later member => ?_, rest,
      fails.names.trans applied.names⟩
    · have differs := apart earlier.symbol (List.mem_map_of_mem member) ode.symbol (List.mem_cons_self ..)
      exact fails.get? fun same => absurd same differs
    · have written : later.symbol ∈ after.map Ode.symbol := List.mem_map_of_mem member
      refine rest later.symbol (fun moved => ?_) fun same => ?_
      · exact apart _ moved _ (List.mem_cons_of_mem _ written) rfl
      · exact absurd (same ▸ written) (List.nodup_cons.mp behind).1
  · rintro ⟨before, ode, after, w, split, applied, fails, _⟩
    have failed := sweep_some_iff.mpr ⟨before, ode, after, w, split, applied, fails⟩
    exact congrArg Prod.snd (swept.trans failed)

end EulerFlow
