import EulerFlow.Proofs.Tape

namespace EulerFlow

namespace Orbit

/-- What the orbit comes to within a number of steps: the deliveries, the result and the values. -/
inductive Outcome (o : Orbit) (total : Nat) : List Delivery → Except RunError Summary → Valuation → Prop
  | reached : (∀ j < total, o.fault? j = none) →
      Outcome o total (o.deliveries total) (.ok ⟨total, o.time total⟩) ((o.state total).setTime (o.time total))
  | failed {k fault} : k < total → (∀ j < k, o.fault? j = none) → o.fault? k = some fault →
      Outcome o total (o.deliveries k) (.error fault) (o.state (k + 1))

variable {o : Orbit} {total : Nat} {ds : List Delivery} {result : Except RunError Summary} {v : Valuation}

theorem Outcome.unique {ds' : List Delivery} {result' : Except RunError Summary} {v' : Valuation}
    (outcome : o.Outcome total ds result v) (other : o.Outcome total ds' result' v') :
    ds = ds' ∧ result = result' ∧ v = v' := by
  cases outcome with
  | reached faultless =>
    cases other with
    | reached => exact ⟨rfl, rfl, rfl⟩
    | failed before _ atStep =>
      rw [faultless _ before] at atStep
      cases atStep
  | @failed k fault before faultless atStep =>
    cases other with
    | reached faultless' =>
      rw [faultless' k before] at atStep
      cases atStep
    | @failed k' fault' before' faultless' atStep' =>
      rcases Nat.lt_trichotomy k k' with earlier | rfl | later
      · rw [faultless' k earlier] at atStep
        cases atStep
      · cases atStep.symm.trans atStep'
        exact ⟨rfl, rfl, rfl⟩
      · rw [faultless k' later] at atStep'
        cases atStep'

theorem deliveries_take {j k : Nat} (le : j ≤ k) : (o.deliveries k).take (j + 2) = o.deliveries j := by
  rw [deliveries, List.take_succ_cons, ← List.map_take, List.take_range, Nat.min_eq_left (by omega)]
  rfl

theorem deliveries_length (k : Nat) : (o.deliveries k).length = k + 2 := by
  rw [deliveries, List.length_cons, List.length_map, List.length_range]

theorem Outcome.last (outcome : o.Outcome total ds result v) : ∃ k ≤ total, ds = o.deliveries k := by
  cases outcome with
  | reached => exact ⟨total, Nat.le_refl total, rfl⟩
  | failed before => exact ⟨_, Nat.le_of_lt before, rfl⟩

/-- An orbit delivers at least the rows before its first fault. -/
theorem Outcome.take (outcome : o.Outcome total ds result v) {k : Nat} (before : k ≤ total)
    (faultless : ∀ j < k, o.fault? j = none) : ds.take (k + 2) = o.deliveries k ∧ k + 2 ≤ ds.length := by
  cases outcome with
  | reached => exact ⟨deliveries_take before, by rw [deliveries_length]; omega⟩
  | @failed k' fault _ _ atStep =>
    have le : k ≤ k' := by
      refine Nat.le_of_not_lt fun earlier => ?_
      rw [faultless k' earlier] at atStep
      cases atStep
    exact ⟨deliveries_take le, by rw [deliveries_length]; omega⟩

theorem deliveries_row {k i : Nat} {row : List Float} (found : (o.deliveries k)[i + 1]? = some (.row row)) :
    i ≤ k ∧ row = o.row i := by
  rw [deliveries, List.getElem?_cons_succ, List.getElem?_map, Option.map_eq_some_iff] at found
  obtain ⟨j, within, same⟩ := found
  obtain ⟨bound, here⟩ := List.getElem?_eq_some_iff.mp within
  rw [List.getElem_range] at here
  rw [List.length_range] at bound
  cases here
  cases same
  exact ⟨by omega, rfl⟩

/-- The rows behind the initial one belong to steps that went through. -/
theorem Outcome.row_cases (outcome : o.Outcome total ds result v) {i : Nat} {row : List Float}
    (here : ds[i + 2]? = some (.row row)) : o.fault? i = none ∧ row = o.row (i + 1) := by
  cases outcome with
  | reached faultless =>
    obtain ⟨before, same⟩ := deliveries_row here
    exact ⟨faultless i before, same⟩
  | failed _ faultless _ =>
    obtain ⟨before, same⟩ := deliveries_row here
    exact ⟨faultless i before, same⟩

end Orbit

/-- A run into a tape that may start at all comes to what its orbit comes to. -/
theorem Integrator.run_outcome {integrator : Integrator} {system : OdeSystem} {v : Valuation}
    (valid : integrator.settings.fault? = none) (defined : ∀ symbol ∈ system.symbols, symbol ∈ v.names) :
    let run := integrator.run system v Tape.empty
    (integrator.orbit system v).Outcome (integrator.total v) (integrator.deliveries system v) run.result
      run.valuation := by
  intro run
  obtain ⟨course, fault?, ended, same⟩ := run_driven Tape.accepting valid defined Tape.empty
  have delivered : integrator.deliveries system v = course.receiver.deliveries := by
    rw [deliveries, same, (integrator.concluded_view course fault?).1]
  change run = integrator.concluded course fault? at same
  rw [same, delivered]
  cases ended with
  | reached follows =>
    rw [concluded, follows.received, Tape.deliverAll_deliveries, follows.steps, follows.time, follows.valuation]
    exact .reached follows.faultless
  | failed before faultless atStep received values =>
    rw [concluded, received, Tape.deliverAll_deliveries, values]
    exact .failed before faultless atStep

end EulerFlow
