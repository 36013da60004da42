import EulerFlow.Proofs.Agreement
import EulerFlow.Proofs.RunOrbit

namespace EulerFlow

/-- Where one step takes the symbol of an equation if it starts from the given values. -/
def Ode.target (dt : Float) (v : Valuation) (ode : Ode) : Except EvalError Float :=
  match ode.equation.eval v with
  | .error cause => .error cause
  | .ok derivative => (v.get ode.symbol).map (· + derivative * dt)

/-- The symbols of several equations with their targets, all computed from the same values. -/
def targets (dt : Float) (v : Valuation) : List Ode → Except EvalError (List (String × Float))
  | [] => .ok []
  | ode :: odes =>
    match ode.target dt v, targets dt v odes with
    | .error cause, _ => .error cause
    | .ok _, .error cause => .error cause
    | .ok value, .ok others => .ok ((ode.symbol, value) :: others)

/-- The valuation after some writes in order. -/
def Valuation.setAll (v : Valuation) (writes : List (String × Float)) : Valuation :=
  writes.foldl (fun v write => v.set write.1 write.2) v

/-- The step in which all derivatives are taken at its start, and no value is written before they are. -/
def OdeSystem.simultaneousStep (system : OdeSystem) (dt : Float) (v : Valuation) : Except EvalError Valuation :=
  (targets dt v system.entries).map v.setAll

/-- No equation mentions the symbol of one registered before it. -/
def OdeSystem.Triangular (system : OdeSystem) : Prop :=
  system.entries.Pairwise fun earlier later => earlier.symbol ∉ later.equation.symbols

section

variable {dt : Float} {v : Valuation} {name : String}

theorem Ode.target_set {ode : Ode} (unread : name ∉ ode.equation.symbols) (other : name ≠ ode.symbol) (value : Float) :
    ode.target dt (v.set name value) = ode.target dt v := by
  have derivative : ode.equation.eval (v.set name value) = ode.equation.eval v := by
    refine Expr.eval_agree fun mentioned member => ?_
    have differs : mentioned ≠ name := fun same => unread (same ▸ member)
    rw [Valuation.get?_set, if_neg differs]
  have start : (v.set name value).get ode.symbol = v.get ode.symbol := by
    rw [Valuation.get, Valuation.get, Valuation.get?_set, if_neg other.symm]
  rw [target, target, derivative, start]

/-- A write to a name that the equations neither read nor move leaves their targets where they were. -/
theorem targets_set {odes : List Ode} (unread : ∀ ode ∈ odes, name ∉ ode.equation.symbols)
    (other : name ∉ odes.map Ode.symbol) (value : Float) : targets dt (v.set name value) odes = targets dt v odes := by
  induction odes with
  | nil => rfl
  | cons ode odes ih =>
    obtain ⟨unreadHere, unread⟩ := List.forall_mem_cons.mp unread
    rw [List.map_cons, List.mem_cons, not_or] at other
    rw [targets, targets, Ode.target_set unreadHere other.1, ih unread other.2]

/-- An equation that is applied takes its symbol to its target. -/
theorem Ode.apply_target {ode : Ode} {policy : NonFinitePolicy} {t : Float}
    (applied : (ode.apply policy t dt v).2 = none) :
    ∃ value, ode.target dt v = .ok value ∧ (ode.apply policy t dt v).1 = v.set ode.symbol value := by
  unfold Ode.apply at applied ⊢
  split at applied
  · cases applied
  · cases applied
  · rename_i derivative value found old
    refine ⟨value + derivative * dt, ?_, rfl⟩
    rw [target, found, Valuation.get, old]
    rfl

/-- What an equation writes is neither read nor moved by those behind it, so that for them the values are
still those of the start. -/
theorem sweep_targets {policy : NonFinitePolicy} {t : Float} {odes : List Ode}
    (triangular : odes.Pairwise fun earlier later => earlier.symbol ∉ later.equation.symbols)
    (distinct : (odes.map Ode.symbol).Nodup) (went : (sweep policy t dt v odes).2 = none) :
    ∃ writes, targets dt v odes = .ok writes ∧ (sweep policy t dt v odes).1 = v.setAll writes := by
  induction odes generalizing v with
  | nil => exact ⟨[], rfl, rfl⟩
  | cons ode odes ih =>
    obtain ⟨unread, triangular⟩ := List.pairwise_cons.mp triangular
    obtain ⟨fresh, distinct⟩ := List.nodup_cons.mp distinct
    have applied := apply_of_sweep_cons went
    obtain ⟨value, target, moved⟩ := Ode.apply_target applied
    rw [sweep_cons_of_none applied, moved] at went ⊢
    obtain ⟨writes, others, after⟩ := ih triangular distinct went
    rw [targets_set unread fresh] at others
    refine ⟨(ode.symbol, value) :: writes, ?_, after⟩
    rw [targets, target, others]

end

/-- A step moves the symbols one by one, and each derivative sees what was moved before. In a triangular system
none looks there, and a step that goes through is the simultaneous one. -/
theorem triangular_step_simultaneous {system : OdeSystem} (triangular : system.Triangular) (s : Euler) (v : Valuation)
    (t dt : Float) (went : (s.step system v t dt).fault? = none) :
    system.simultaneousStep dt v = .ok (s.step system v t dt).valuation := by
  obtain ⟨values, outcome⟩ := Prod.mk.inj (s.step_sweep system v t dt)
  obtain ⟨writes, found, after⟩ := sweep_targets triangular system.distinct (outcome.symm.trans went)
  rw [values, after, OdeSystem.simultaneousStep, found]
  rfl

/-- The decay, and before it a sum of what it has been. -/
def tracedDecay : OdeSystem :=
  (OdeSystem.empty.insert "x" (.symbol "y")).insert "y" (.unary "-" (.symbol "y"))

theorem triangular_step_simultaneous_tracedDecay :
    let start := decayStart.set "x" 0
    let stepped := (Euler.mk .abort false).step tracedDecay start 0 0.5
    tracedDecay.Triangular ∧ stepped.fault? = none ∧ tracedDecay.simultaneousStep 0.5 start = .ok stepped.valuation ∧
      stepped.valuation.get? "x" = some 0.5 ∧ stepped.valuation.get? "y" = some 0.5 := by
  intro start stepped
  have triangular : tracedDecay.Triangular := by
    unfold OdeSystem.Triangular
    decide
  have went : stepped.fault? = none := by decide +kernel
  have same := triangular_step_simultaneous triangular (Euler.mk .abort false) start 0 0.5 went
  exact ⟨triangular, went, same, by decide +kernel, by decide +kernel⟩

/-- Behind the decay the sum would see the value that the decay has already moved. -/
example :
    let behind := (OdeSystem.empty.insert "y" (.unary "-" (.symbol "y"))).insert "x" (.symbol "y")
    let start := decayStart.set "x" 0
    ((Euler.mk .abort false).step behind start 0 0.5).valuation.get? "x" = some 0.25 ∧
      (behind.simultaneousStep 0.5 start).toOption.bind (·.get? "x") = some 0.5 := by
  decide +kernel

end EulerFlow
