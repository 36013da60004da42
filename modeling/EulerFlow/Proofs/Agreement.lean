import EulerFlow.Proofs.Faults
import EulerFlow.Proofs.Outcome
import Mathlib.Data.List.Basic

namespace EulerFlow

/-- Valuations that agree on the shared names: the same of these are defined, with the same values. -/
def Valuation.Agree (shared : String → Prop) (v w : Valuation) : Prop :=
  ∀ name, shared name → v.get? name = w.get? name

/-- Equations that read and write shared names only. -/
structure Ode.Within (shared : String → Prop) (ode : Ode) : Prop where
  symbol : shared ode.symbol
  equation : ∀ name ∈ ode.equation.symbols, shared name

theorem Ode.within_all (ode : Ode) : ode.Within fun _ => True :=
  ⟨trivial, fun _ _ => trivial⟩

variable {shared : String → Prop} {v w : Valuation}

/-- The same write on both sides keeps valuations in agreement, whether or not the name is shared. -/
theorem Valuation.Agree.set (agree : v.Agree shared w) (name : String) (value : Float) :
    (v.set name value).Agree shared (w.set name value) := by
  intro other member
  rw [get?_set, get?_set, agree other member]

theorem Valuation.Agree.setTime (agree : v.Agree shared w) (t : Float) :
    (v.setTime t).Agree shared (w.setTime t) :=
  agree.set clock t

theorem Valuation.Agree.time (agree : v.Agree shared w) (clocked : shared clock) : v.time = w.time := by
  have same := agree clock clocked
  rw [get?_clock, get?_clock] at same
  exact Option.some.inj same

theorem Valuation.Agree.get (agree : v.Agree shared w) {name : String} (member : shared name) :
    v.get name = w.get name := by
  rw [Valuation.get, Valuation.get, agree name member]

/-- Evaluation reads no variable but those that occur in the expression. -/
theorem Expr.eval_agree {e : Expr} (agree : ∀ name ∈ e.symbols, v.get? name = w.get? name) :
    e.eval v = e.eval w := by
  fun_induction Expr.eval v e with
  | case1 value => rfl
  | case2 name =>
    have here := agree name (List.mem_singleton_self name)
    rw [eval, Valuation.get, Valuation.get, here]
  | case3 left op right fault failed ih =>
    rw [symbols, List.forall_mem_append] at agree
    rw [eval, ← ih agree.1, failed]
  | case4 left op right a found fault failed ihLeft ih =>
    rw [symbols, List.forall_mem_append] at agree
    rw [eval, ← ihLeft agree.1, found, ← ih agree.2, failed]
  | case5 left op right a foundLeft b found known named ihLeft ih =>
    rw [symbols, List.forall_mem_append] at agree
    rw [eval, ← ihLeft agree.1, foundLeft, ← ih agree.2, found]
    simp only [named]
  | case6 left op right a foundLeft b found unknown ihLeft ih =>
    rw [symbols, List.forall_mem_append] at agree
    rw [eval, ← ihLeft agree.1, foundLeft, ← ih agree.2, found]
    simp only [unknown]
  | case7 op operand fault failed ih => rw [eval, ← ih agree, failed]
  | case8 op operand a found known named ih =>
    rw [eval, ← ih agree, found]
    simp only [named]
  | case9 op operand a found unknown ih =>
    rw [eval, ← ih agree, found]
    simp only [unknown]
  | case10 name args unknown =>
    rw [eval]
    simp only [unknown]
  | case11 name known named arg fault failed ih =>
    have only : Expr.symbolsOf [arg] = arg.symbols := List.append_nil _
    rw [symbols, only] at agree
    rw [eval]
    simp only [named, ← ih agree, failed]
  | case12 name known named arg a found ih =>
    have only : Expr.symbolsOf [arg] = arg.symbols := List.append_nil _
    rw [symbols, only] at agree
    rw [eval]
    simp only [named, ← ih agree, found]
  | case13 name args known named other =>
    rw [eval]
    simp only [named]

/-- An equation over shared names has the same outcome, and what it writes is shared, too. -/
theorem Ode.apply_agree {ode : Ode} (within : ode.Within shared) (agree : v.Agree shared w)
    (policy : NonFinitePolicy) (t dt : Float) :
    (ode.apply policy t dt v).2 = (ode.apply policy t dt w).2 ∧
      (ode.apply policy t dt v).1.Agree shared (ode.apply policy t dt w).1 := by
  have derivative : ode.equation.eval v = ode.equation.eval w :=
    Expr.eval_agree fun name member => agree name (within.equation name member)
  have value := agree ode.symbol within.symbol
  unfold Ode.apply
  rw [derivative, value]
  split
  · exact ⟨rfl, agree⟩
  · exact ⟨rfl, agree⟩
  · exact ⟨rfl, agree.set _ _⟩

theorem sweep_agree {odes : List Ode} (within : ∀ ode ∈ odes, ode.Within shared) (agree : v.Agree shared w)
    (policy : NonFinitePolicy) (t dt : Float) :
    (sweep policy t dt v odes).2 = (sweep policy t dt w odes).2 ∧
      (sweep policy t dt v odes).1.Agree shared (sweep policy t dt w odes).1 := by
  induction odes generalizing v w with
  | nil => exact ⟨rfl, agree⟩
  | cons ode odes ih =>
    obtain ⟨head, others⟩ := List.forall_mem_cons.mp within
    obtain ⟨outcome, after⟩ := Ode.apply_agree head agree policy t dt
    cases applied : (ode.apply policy t dt v).2 with
    | none =>
      rw [sweep_cons_of_none applied, sweep_cons_of_none (outcome ▸ applied)]
      exact ih others after
    | some fault =>
      rw [sweep_cons_of_some applied, sweep_cons_of_some (outcome ▸ applied)]
      exact ⟨outcome, after⟩

theorem rowValues_agree {odes : List Ode} (named : ∀ ode ∈ odes, shared ode.symbol) (agree : v.Agree shared w)
    (t : Float) : rowValues v t odes = rowValues w t odes := by
  induction odes with
  | nil => rfl
  | cons ode odes ih =>
    obtain ⟨head, others⟩ := List.forall_mem_cons.mp named
    rw [rowValues, rowValues, agree.get head, ih others]

theorem OdeSystem.row_agree {system : OdeSystem} (named : ∀ ode ∈ system.entries, shared ode.symbol)
    (agree : v.Agree shared w) (t : Float) : system.row v t = system.row w t := by
  rw [row, row, rowValues_agree named agree]

namespace Orbit

/-- The same orbit from other values. -/
def startingAt (o : Orbit) (w : Valuation) : Orbit :=
  { o with start := w }

variable {o : Orbit}

theorem time_agree (clocked : shared clock) (agree : o.start.Agree shared w) (k : Nat) :
    (o.startingAt w).time k = o.time k := by
  have same : w.time = o.start.time := (agree.time clocked).symm
  cases k with
  | zero => exact same
  | succ k =>
    rw [time, time, ← same]
    rfl

variable (within : ∀ ode ∈ o.system.entries, ode.Within shared) (clocked : shared clock)
  (agree : o.start.Agree shared w)

include within clocked agree

theorem step_agree {k : Nat} (before : (o.state k).Agree shared ((o.startingAt w).state k)) :
    o.fault? k = (o.startingAt w).fault? k ∧ (o.state (k + 1)).Agree shared ((o.startingAt w).state (k + 1)) := by
  have same := time_agree clocked agree k
  rw [fault?, fault?, state, state, step, step, same]
  exact sweep_agree within (before.setTime (o.time k)) o.policy (o.time k) o.dt

/-- What is shared stays in agreement, however many steps are taken. -/
theorem state_agree (k : Nat) : (o.state k).Agree shared ((o.startingAt w).state k) := by
  induction k with
  | zero => exact agree
  | succ k ih => exact (step_agree within clocked agree ih).2

theorem fault?_agree (k : Nat) : o.fault? k = (o.startingAt w).fault? k :=
  (step_agree within clocked agree (state_agree within clocked agree k)).1

theorem row_agree (k : Nat) : o.row k = (o.startingAt w).row k := by
  have values : o.system.symbols.filterMap (o.state k).get? =
      o.system.symbols.filterMap ((o.startingAt w).state k).get? := by
    refine List.filterMap_congr fun symbol member => ?_
    obtain ⟨ode, present, rfl⟩ := List.mem_map.mp member
    exact state_agree within clocked agree k _ (within ode present).symbol
  rw [row, row, time_agree clocked agree k, values]
  rfl

theorem deliveries_agree (k : Nat) : o.deliveries k = (o.startingAt w).deliveries k :=
  congrArg (List.cons _) (List.map_congr_left fun j _ => congrArg _ (row_agree within clocked agree j))

/-- The other orbit ends in the same way. -/
theorem Outcome.startingAt {total : Nat} {ds : List Delivery} {result : Except RunError Summary} {after : Valuation}
    (outcome : o.Outcome total ds result after) :
    ∃ after', (o.startingAt w).Outcome total ds result after' ∧ after.Agree shared after' := by
  have faults (j : Nat) := fault?_agree within clocked agree j
  cases outcome with
  | reached faultless =>
    refine ⟨_, ?_, (state_agree within clocked agree total).setTime (o.time total)⟩
    have other := Outcome.reached (o := o.startingAt w) fun j before => (faults j).symm.trans (faultless j before)
    rwa [← deliveries_agree within clocked agree, time_agree clocked agree] at other
  | @failed k fault before faultless atStep =>
    refine ⟨_, ?_, state_agree within clocked agree (k + 1)⟩
    rw [deliveries_agree within clocked agree]
    exact .failed before (fun j earlier => (faults j).symm.trans (faultless j earlier)) ((faults k).symm.trans atStep)

end Orbit

namespace Integrator

variable (integrator : Integrator) {system : OdeSystem} (within : ∀ ode ∈ system.entries, ode.Within shared)
  (clocked : shared clock) (agree : v.Agree shared w)

include within clocked agree

theorem run_tape_agree :
    let run := integrator.run system v Tape.empty
    let other := integrator.run system w Tape.empty
    integrator.deliveries system v = integrator.deliveries system w ∧ run.result = other.result ∧
      run.valuation.Agree shared other.valuation := by
  intro run other
  have same : v.time = w.time := agree.time clocked
  have row : system.row v v.time = system.row w w.time := by
    rw [same, OdeSystem.row_agree (fun ode member => (within ode member).symbol) agree]
  cases valid : integrator.settings.fault? with
  | some fault =>
    have rejected (u : Valuation) : integrator.run system u Tape.empty =
        integrator.rejected u Tape.empty (.invalidSettings fault) := by rw [run_eq, valid]
    rw [deliveries, deliveries, show run = _ from rejected v, show other = _ from rejected w, rejected v, rejected w]
    exact ⟨rfl, rfl, agree⟩
  | none =>
    cases filled : system.row v v.time with
    | error fault =>
      have rejected (u : Valuation) (missing : system.row u u.time = .error fault) :
          integrator.run system u Tape.empty =
            integrator.rejected u ⟨[.header (clock :: system.symbols)]⟩ fault := by
        rw [run_eq, valid]
        simp only [missing]
        rfl
      have here := rejected v filled
      have there := rejected w (row.symm.trans filled)
      rw [deliveries, deliveries, show run = _ from here, show other = _ from there, here, there]
      exact ⟨rfl, rfl, agree⟩
    | ok values =>
      have total : integrator.total v = integrator.total w := by rw [Integrator.total, Integrator.total, same]
      have here := integrator.run_outcome valid (OdeSystem.row_defined filled)
      have there := integrator.run_outcome valid (OdeSystem.row_defined (row.symm.trans filled))
      obtain ⟨after, carried, still⟩ := Orbit.Outcome.startingAt within clocked agree here
      rw [total] at carried
      obtain ⟨calls, result, values⟩ := carried.unique there
      exact ⟨calls, result, values ▸ still⟩

/-- Runs from valuations that agree on the clock and on all that the system reads and writes are one
and the same to every receiver, and end in valuations that agree as well. -/
theorem run_agree {σ : Type} [Receiver σ] (receiver : σ) :
    let run := integrator.run system v receiver
    let other := integrator.run system w receiver
    run.receiver = other.receiver ∧ run.result = other.result ∧ run.valuation.Agree shared other.valuation := by
  intro run other
  obtain ⟨calls, result, values⟩ := run_tape_agree integrator within clocked agree
  obtain ⟨received, refused, whole⟩ := integrator.run_cut system v receiver
  obtain ⟨received', refused', whole'⟩ := integrator.run_cut system w receiver
  rw [← calls] at received' refused' whole'
  refine ⟨received.trans received'.symm, ?_⟩
  cases answer : (offer receiver (integrator.deliveries system v)).2 with
  | none =>
    obtain ⟨ending, after⟩ := whole answer
    obtain ⟨ending', after'⟩ := whole' answer
    refine ⟨ending.trans (result.trans ending'.symm), ?_⟩
    rw [show run.valuation = _ from after, show other.valuation = _ from after']
    exact values
  | some refusal =>
    obtain ⟨ending, after⟩ := refused refusal answer
    obtain ⟨ending', after'⟩ := refused' refusal answer
    refine ⟨ending.trans ending'.symm, ?_⟩
    rw [show run.valuation = _ from after, show other.valuation = _ from after']
    exact Orbit.state_agree (o := integrator.orbit system v) within clocked agree _

end Integrator

end EulerFlow
