import EulerFlow.Proofs.Outcome
import EulerFlow.Proofs.Updates

namespace EulerFlow

namespace Orbit

variable {o : Orbit} {total : Nat} {ds : List Delivery} {result : Except RunError Summary} {v : Valuation}

/-- An orbit that aborts delivers finite values behind its initial row. -/
theorem Outcome.rows_finite (outcome : (o.under .abort).Outcome total ds result v) {i : Nat} {row : List Float}
    (here : ds[i + 2]? = some (.row row)) : ∀ value ∈ row.tail, value.isFinite = true := by
  obtain ⟨went, rfl⟩ := outcome.row_cases here
  intro value member
  obtain ⟨symbol, column, found⟩ := List.mem_filterMap.mp member
  obtain ⟨other, written, finite⟩ := sweep_finite o.system.distinct went symbol column
  cases found.symm.trans written
  exact finite

theorem deliveries_abort {k : Nat}
    (contained : ∀ i < k, ((o.under .propagate).updates i).find? Update.escapes = none) :
    (o.under .abort).deliveries k = (o.under .propagate).deliveries k := by
  refine congrArg (List.cons _) (List.map_congr_left fun j member => ?_)
  have within := List.mem_range.mp member
  have values := o.state_abort (k := j) fun i before => contained i (by omega)
  simp only [row, values]
  rfl

theorem time_under (o : Orbit) (policy : NonFinitePolicy) (k : Nat) : (o.under policy).time k = o.time k := rfl

/-- While nothing escapes, both policies come to the same. -/
theorem Outcome.contained (outcome : (o.under .propagate).Outcome total ds result v)
    (never : ∀ i < total, (∀ j < i, (o.under .propagate).fault? j = none) →
      ((o.under .propagate).updates i).find? Update.escapes = none) :
    (o.under .abort).Outcome total ds result v := by
  have agree {k : Nat} (contained : ∀ i < k, ((o.under .propagate).updates i).find? Update.escapes = none)
      (faultless : ∀ j < k, (o.under .propagate).fault? j = none) : ∀ j < k, (o.under .abort).fault? j = none := by
    intro j before
    rw [o.fault?_abort fun i earlier => contained i (by omega), contained j before]
    exact faultless j before
  cases outcome with
  | reached faultless =>
    have contained (i : Nat) (before : i < total) := never i before fun j earlier => faultless j (by omega)
    rw [← deliveries_abort contained, ← o.state_abort contained, o.time_under, ← o.time_under .abort]
    exact .reached (agree contained faultless)
  | @failed k fault before faultless atStep =>
    have contained (i : Nat) (upTo : i < k + 1) := never i (by omega) fun j earlier => faultless j (by omega)
    have earlier (i : Nat) (before : i < k) := contained i (by omega)
    rw [← deliveries_abort earlier, ← o.state_abort contained]
    refine .failed before (agree earlier faultless) ?_
    rw [o.fault?_abort earlier, contained k (Nat.lt_succ_self k)]
    exact atStep

/-- The first update that escapes ends the orbit that aborts. -/
theorem Outcome.escaped {u : Update} (before : u.step < total)
    (faultless : ∀ j < u.step, (o.under .propagate).fault? j = none)
    (contained : ∀ i < u.step, ((o.under .propagate).updates i).find? Update.escapes = none)
    (found : ((o.under .propagate).updates u.step).find? Update.escapes = some u) :
    (o.under .abort).Outcome total ((o.under .propagate).deliveries u.step)
      (.error (.nonFinite u.symbol (o.time u.step + o.dt))) u.after := by
  have atStep := o.fault?_abort contained
  have after : (o.under .abort).state (u.step + 1) = u.after := by
    rw [state, o.state_abort contained, o.step_abort, found]
  rw [found] at atStep
  rw [← deliveries_abort contained, ← after]
  refine .failed before (fun j earlier => ?_) atStep
  rw [o.fault?_abort fun i below => contained i (by omega), contained j earlier]
  exact faultless j earlier

end Orbit

namespace Integrator

/-- Whether a run comes to deliver its initial row, if nothing is refused. -/
def Opens (integrator : Integrator) (system : OdeSystem) (v : Valuation) : Prop :=
  integrator.settings.fault? = none ∧ ∃ row, system.row v v.time = .ok row

/-- The updates of a run that propagates, in the order in which they are made. A run that does not
come to its initial row makes none. -/
def updates (integrator : Integrator) (system : OdeSystem) (v : Valuation) : List Update :=
  match integrator.settings.fault?, system.row v v.time with
  | none, .ok _ => (integrator.orbit system v).history 0 (integrator.total v)
  | _, _ => []

variable {integrator : Integrator} {system : OdeSystem} {v : Valuation}

theorem updates_opened (opens : integrator.Opens system v) :
    integrator.updates system v = (integrator.orbit system v).history 0 (integrator.total v) := by
  obtain ⟨valid, row, filled⟩ := opens
  simp only [updates, valid, filled]

theorem updates_unopened (unopened : ¬ integrator.Opens system v) : integrator.updates system v = [] := by
  unfold updates
  split
  · rename_i row valid filled
    exact absurd ⟨valid, row, filled⟩ unopened
  · rfl

/-- A run into a tape that does not come to its initial row is fixed by its settings and its system. -/
theorem run_unopened (unopened : ¬ integrator.Opens system v) :
    ∃ ds fault, ds.length ≤ 1 ∧ ∀ other : Integrator, other.settings.fault? = integrator.settings.fault? →
      other.run system v Tape.empty = other.rejected v ⟨ds⟩ fault := by
  cases invalid : integrator.settings.fault? with
  | some fault =>
    refine ⟨[], .invalidSettings fault, Nat.zero_le 1, fun other same => ?_⟩
    rw [run_eq, same]
    rfl
  | none =>
    cases filled : system.row v v.time with
    | ok row => exact absurd ⟨invalid, row, filled⟩ unopened
    | error fault =>
      refine ⟨[.header (clock :: system.symbols)], fault, Nat.le_refl 1, fun other same => ?_⟩
      rw [run_eq, same]
      simp only [filled]
      rfl

/-- How a run that aborts is to be had from one that propagates, both into a tape, given the first
update that escapes from the latter. -/
inductive Parted (o : Orbit) (free strict : Run Tape) : Option Update → Prop
  | never : strict.receiver.deliveries = free.receiver.deliveries → strict.result = free.result →
      strict.valuation = free.valuation → Parted o free strict none
  | once {u} : strict.receiver.deliveries = free.receiver.deliveries.take (u.step + 2) →
      u.step + 2 ≤ free.receiver.deliveries.length →
      strict.result = .error (.nonFinite u.symbol (o.time u.step + o.dt)) → strict.valuation = u.after →
      Parted o free strict (some u)

theorem parted (settings : Settings) (system : OdeSystem) (v : Valuation) :
    let free := euler { settings with nonFinite := .propagate }
    let strict := euler { settings with nonFinite := .abort }
    Parted (free.orbit system v) (free.run system v Tape.empty) (strict.run system v Tape.empty)
      ((free.updates system v).find? Update.escapes) := by
  intro free strict
  by_cases opens : free.Opens system v
  · obtain ⟨valid, row, filled⟩ := opens
    have defined := OdeSystem.row_defined filled
    let o := (euler settings).orbit system v
    have propagated : (o.under .propagate).Outcome (free.total v) _ _ _ := free.run_outcome valid defined
    have aborted : (o.under .abort).Outcome (free.total v) _ _ _ := strict.run_outcome valid defined
    rw [updates_opened ⟨valid, row, filled⟩]
    have escape := (free.orbit system v).history_escape 0 (free.total v)
    generalize ((free.orbit system v).history 0 (free.total v)).find? Update.escapes = first at escape ⊢
    cases escape with
    | never contained =>
      have same := propagated.contained fun i before faultless =>
        contained i (Nat.zero_le i) (by omega) fun j _ earlier => faultless j earlier
      obtain ⟨deliveries, result, values⟩ := aborted.unique same
      exact .never deliveries result values
    | @once u _ before faultless contained found =>
      rw [Nat.zero_add] at before
      have faultless (j : Nat) (earlier : j < u.step) : (o.under .propagate).fault? j = none :=
        faultless j (Nat.zero_le j) earlier
      have contained (i : Nat) (earlier : i < u.step) :
          ((o.under .propagate).updates i).find? Update.escapes = none :=
        contained i (Nat.zero_le i) earlier
      obtain ⟨deliveries, result, values⟩ := aborted.unique (.escaped before faultless contained found)
      obtain ⟨take, further⟩ := propagated.take (Nat.le_of_lt before) faultless
      exact .once (deliveries.trans take.symm) further result values
  · obtain ⟨ds, fault, _, same⟩ := run_unopened opens
    rw [updates_unopened opens, same free rfl, same strict rfl]
    exact .never rfl rfl rfl

/-- Behind its initial row a run that aborts delivers finite values only. -/
theorem aborted_rows (settings : Settings) (system : OdeSystem) (v : Valuation) {i : Nat} {row : List Float}
    (delivered : ((euler { settings with nonFinite := .abort }).deliveries system v)[i + 2]? = some (.row row)) :
    ∀ value ∈ row.tail, value.isFinite = true := by
  let strict := euler { settings with nonFinite := .abort }
  by_cases opens : strict.Opens system v
  · obtain ⟨valid, _, filled⟩ := opens
    have aborted := strict.run_outcome valid (OdeSystem.row_defined filled)
    exact Orbit.Outcome.rows_finite (o := (euler settings).orbit system v) aborted delivered
  · obtain ⟨ds, fault, short, same⟩ := run_unopened opens
    change (strict.run system v Tape.empty).receiver.deliveries[i + 2]? = _ at delivered
    rw [same strict rfl] at delivered
    have absent : ds[i + 2]? = none := List.getElem?_eq_none (by omega)
    cases absent.symm.trans delivered

end Integrator

/-- The policies differ from the first update on that escapes, if there is one. -/
theorem abort_cuts_propagate {σ : Type} [Receiver σ] (accepting : Accepting σ) (settings : Settings)
    (system : OdeSystem) (v : Valuation) (receiver : σ) :
    let free := Integrator.euler { settings with nonFinite := .propagate }
    let strict := Integrator.euler { settings with nonFinite := .abort }
    let propagated := free.run system v receiver
    let aborted := strict.run system v receiver
    let calls := free.deliveries system v
    let kept := strict.deliveries system v
    propagated.receiver = deliverAll receiver calls ∧ aborted.receiver = deliverAll receiver kept ∧
      (match (free.updates system v).find? Update.escapes with
        | none => kept = calls ∧ aborted.result = propagated.result ∧ aborted.valuation = propagated.valuation
        | some u => kept = calls.take (u.step + 2) ∧ u.step + 2 ≤ calls.length ∧
          aborted.result = .error (.nonFinite u.symbol ((free.orbit system v).time u.step + settings.dt)) ∧
          aborted.valuation = u.after) ∧
      ∀ i row, kept[i + 2]? = some (.row row) → ∀ value ∈ row.tail, value.isFinite = true := by
  intro free strict propagated aborted calls kept
  obtain ⟨offered, freeResult, freeValues⟩ := free.run_accepting accepting system v receiver
  obtain ⟨received, strictResult, strictValues⟩ := strict.run_accepting accepting system v receiver
  have parted : Integrator.Parted (free.orbit system v) (free.run system v Tape.empty) (strict.run system v Tape.empty)
    ((free.updates system v).find? Update.escapes) := Integrator.parted settings system v
  refine ⟨offered, received, ?_, ?_⟩
  · rw [show aborted.result = _ from strictResult, show aborted.valuation = _ from strictValues,
      show propagated.result = _ from freeResult, show propagated.valuation = _ from freeValues]
    generalize (free.updates system v).find? Update.escapes = first at parted ⊢
    cases parted with
    | never same result values => exact ⟨same, result, values⟩
    | once cut further result values => exact ⟨cut, further, result, values⟩
  · intro i row delivered
    exact Integrator.aborted_rows settings system v delivered

/-- A decay beside a growth that soon leaves the finite numbers. -/
def burst : OdeSystem :=
  (OdeSystem.empty.insert "x" (.unary "-" (.symbol "x"))).insert "y"
    (.binary (.symbol "y") "*" (.constant 1e200))

/-- The decay starts from one, and the growth two steps before it leaves the finite numbers. -/
def burstStart : Valuation :=
  (Valuation.initial.set "x" 1).set "y" 1e100

theorem abort_cuts_propagate_burst :
    let settings : Settings := { maxtime := 2, dt := 0.5 }
    let strict := Integrator.euler { settings with nonFinite := .abort }
    let aborted := strict.run burst burstStart Trajectory.empty
    Accepting Trajectory ∧ aborted.receiver = ⟨["t", "x", "y"], #[[0, 1, 1e100], [0.5, 0.5, 5e299]]⟩ ∧
      aborted.result = .error (.nonFinite "y" 1) ∧ aborted.valuation.get? "x" = some 0.25 := by
  intro settings strict aborted
  have accepting : Accepting Trajectory := fun _ _ => rfl
  obtain ⟨_, received, parted, _⟩ := abort_cuts_propagate accepting settings burst burstStart Trajectory.empty
  let free := Integrator.euler { settings with nonFinite := .propagate }
  -- in the second step the growth escapes, behind the decay
  obtain ⟨u, first, atStep, ofSymbol, decayed⟩ : ∃ u, (free.updates burst burstStart).find? Update.escapes = some u ∧
      u.step = 1 ∧ u.symbol = "y" ∧ u.after.get? "x" = some 0.25 := by
    have found : ((free.updates burst burstStart).find? Update.escapes).any (fun u =>
        u.step = 1 ∧ u.symbol = "y" ∧ u.after.get? "x" = some 0.25) = true := by decide +kernel
    simpa only [Option.any_eq_true, decide_eq_true_eq] using found
  rw [first] at parted
  obtain ⟨cut, _, result, values⟩ := parted
  rw [atStep] at cut result
  rw [ofSymbol] at result
  refine ⟨accepting, received.trans ?_, result.trans ?_, ?_⟩
  · rw [cut]
    decide +kernel
  · have final : (free.orbit burst burstStart).time 1 + settings.dt = 1 := by decide +kernel
    rw [final]
  · rw [← decayed]
    exact congrArg (Valuation.get? · "x") values

end EulerFlow
