import EulerFlow.Proofs.EvalFailure
import EulerFlow.Proofs.Shadow
import EulerFlow.Proofs.Updates
import Mathlib.Data.List.Nodup
import Mathlib.Logic.Relation

namespace EulerFlow

/-- Neither equation mentions the symbol of the other. -/
structure Ode.Independent (a b : Ode) : Prop where
  left : b.symbol ∉ a.equation.symbols
  right : a.symbol ∉ b.equation.symbols

theorem Ode.Independent.symm {a b : Ode} (independent : a.Independent b) : b.Independent a :=
  ⟨independent.right, independent.left⟩

/-- Neighbours that are independent change places. -/
inductive Exchange : List Ode → List Ode → Prop
  | swap (before after : List Ode) {a b : Ode} : a.Independent b →
      Exchange (before ++ a :: b :: after) (before ++ b :: a :: after)

/-- The orders that any number of exchanges lead to. -/
def Reordered : List Ode → List Ode → Prop :=
  Relation.ReflTransGen Exchange

section

variable {policy : NonFinitePolicy} {t dt : Float} {v : Valuation} {a b : Ode}

/-- What an equation makes of the values does not depend on an independent one before it, but for the
other's symbol. -/
theorem Ode.apply_behind (policy : NonFinitePolicy) (t dt : Float) (v : Valuation) (independent : a.Independent b)
    (differ : a.symbol ≠ b.symbol) :
    (a.apply policy t dt v).2 = (a.apply policy t dt (b.apply policy t dt v).1).2 ∧
      (a.apply policy t dt v).1.Agree (· ≠ b.symbol) (a.apply policy t dt (b.apply policy t dt v).1).1 := by
  have within : a.Within (· ≠ b.symbol) :=
    ⟨differ, fun name mentioned same => independent.left (same ▸ mentioned)⟩
  have untouched : v.Agree (· ≠ b.symbol) (b.apply policy t dt v).1 :=
    fun name differs => (b.apply_get? policy t dt v differs).symm
  exact Ode.apply_agree within untouched policy t dt

theorem Ode.apply_comm (independent : a.Independent b) (differ : a.symbol ≠ b.symbol) :
    (a.apply policy t dt (b.apply policy t dt v).1).1 = (b.apply policy t dt (a.apply policy t dt v).1).1 := by
  obtain ⟨_, behindB⟩ := Ode.apply_behind policy t dt v independent differ
  obtain ⟨_, behindA⟩ := Ode.apply_behind policy t dt v independent.symm differ.symm
  refine Valuation.eq_of_get? (by simp only [Ode.apply_names]) fun name => ?_
  by_cases ofB : name = b.symbol
  · have notA : name ≠ a.symbol := fun same => differ (same.symm.trans ofB)
    rw [a.apply_get? policy t dt _ notA]
    exact behindA name notA
  · rw [b.apply_get? policy t dt _ ofB]
    exact (behindB name ofB).symm

theorem sweep_exchange {odes others : List Ode} (exchange : Exchange odes others)
    (distinct : (odes.map Ode.symbol).Nodup) (went : (sweep policy t dt v odes).2 = none) :
    sweep policy t dt v others = sweep policy t dt v odes := by
  obtain @⟨before, after, a, b, independent⟩ := exchange
  have differ : a.symbol ≠ b.symbol := by
    rw [List.map_append, List.nodup_append] at distinct
    have fresh := (List.nodup_cons.mp distinct.2.1).1
    exact fun same => fresh (List.mem_cons.mpr (.inl same))
  have begun := sweep_of_sweep_append went
  rw [sweep_append_of_none begun] at went
  rw [sweep_append_of_none begun, sweep_append_of_none begun]
  generalize (sweep policy t dt v before).1 = w at went ⊢
  have first := apply_of_sweep_cons went
  rw [sweep_cons_of_none first] at went
  have second := apply_of_sweep_cons went
  obtain ⟨firstBehind, _⟩ := Ode.apply_behind policy t dt w independent differ
  obtain ⟨secondBehind, _⟩ := Ode.apply_behind policy t dt w independent.symm differ.symm
  rw [sweep_cons_of_none (secondBehind.trans second), sweep_cons_of_none (firstBehind.symm.trans first),
    sweep_cons_of_none first, sweep_cons_of_none second, Ode.apply_comm independent differ]

theorem Exchange.perm {odes others : List Ode} (exchange : Exchange odes others) : others.Perm odes := by
  obtain ⟨before, after, _⟩ := exchange
  exact (List.Perm.swap ..).append_left before

theorem Reordered.perm {odes others : List Ode} (reordered : Reordered odes others) : others.Perm odes := by
  induction reordered with
  | refl => exact .refl odes
  | tail _ exchange ih => exact exchange.perm.trans ih

theorem sweep_reordered {odes others : List Ode} (reordered : Reordered odes others)
    (distinct : (odes.map Ode.symbol).Nodup) (went : (sweep policy t dt v odes).2 = none) :
    sweep policy t dt v others = sweep policy t dt v odes := by
  induction reordered with
  | refl => rfl
  | @tail middle others earlier exchange ih =>
    have still : (middle.map Ode.symbol).Nodup :=
      ((Reordered.perm earlier).map Ode.symbol).nodup_iff.mpr distinct
    rw [sweep_exchange exchange still (ih ▸ went), ih]

end

namespace OdeSystem

theorem columnsOf_self (system : OdeSystem) : system.columnsOf system = List.range (system.dimension + 1) := by
  have places : system.symbols.map (system.symbols.idxOf ·) = List.range system.dimension := by
    refine List.ext_getElem (by simp [symbols, dimension]) fun i _ _ => ?_
    rw [List.getElem_map, List.getElem_range]
    exact List.Nodup.idxOf_getElem system.distinct i _
  rw [columnsOf, List.range_succ_eq_map, ← places, List.map_map]
  rfl

variable {system other : OdeSystem}

theorem columnsOf_perm (perm : other.entries.Perm system.entries) :
    (system.columnsOf other).Perm (List.range (system.dimension + 1)) := by
  rw [← columnsOf_self]
  exact ((perm.map Ode.symbol).map _).cons 0

/-- One exchange exchanges two neighbouring columns. -/
theorem columnsOf_exchange {before after : List Ode} {a b : Ode} (here : system.entries = before ++ a :: b :: after)
    (there : other.entries = before ++ b :: a :: after) :
    system.columnsOf other = List.range (before.length + 1) ++
      (before.length + 2) :: (before.length + 1) :: List.range' (before.length + 3) after.length := by
  let place (ode : Ode) := system.symbols.idxOf ode.symbol + 1
  have columns (one : OdeSystem) : system.columnsOf one = 0 :: one.entries.map place :=
    congrArg (List.cons 0) List.map_map
  have known : (0 :: before.map place) ++ place a :: place b :: after.map place =
      List.range (before.length + 1) ++
        (before.length + 1) :: (before.length + 2) :: List.range' (before.length + 3) after.length := by
    have whole := (columns system).symm.trans system.columnsOf_self
    rw [here, List.map_append, List.map_cons, List.map_cons] at whole
    refine whole.trans ?_
    have size : system.dimension + 1 = before.length + 1 + (after.length + 2) := by
      rw [dimension, here, List.length_append, List.length_cons, List.length_cons]
      omega
    rw [size, List.range_eq_range', List.range_eq_range', ← List.range'_append_1]
    simp [List.range'_succ]
  obtain ⟨front, rest⟩ := List.append_inj known (by simp)
  obtain ⟨placeA, rest⟩ := List.cons.inj rest
  obtain ⟨placeB, behind⟩ := List.cons.inj rest
  rw [columns, there, List.map_append, List.map_cons, List.map_cons, placeA, placeB, behind, ← front]
  rfl

/-- An order of the equations that exchanges lead to does to all names what the system does. -/
theorem shadows_of_reordered (reordered : Reordered system.entries other.entries) :
    other.Shadows (fun _ => True) system where
  within _ member := ((Reordered.perm reordered).map Ode.symbol).subset member
  named _ _ := trivial
  sweep {policy t dt v w} agree went := by
    obtain ⟨outcome, after⟩ := sweep_agree (fun ode _ => ode.within_all) agree policy t dt
    rw [sweep_reordered reordered system.distinct (outcome ▸ went)]
    exact ⟨outcome ▸ went, after⟩

end OdeSystem

variable {σ τ : Type} [Receiver σ] [Receiver τ]

/-- Independent equations may change places: a run that succeeds still does, with the same summary and
the same values at the end, and its table has the same columns in the order of the equations. -/
theorem independent_equations_commute {system other : OdeSystem} (reordered : Reordered system.entries other.entries)
    (integrator : Integrator) (v : Valuation) (receiver : σ) {summary : Summary}
    (succeeded : (integrator.run system v receiver).result = .ok summary) (accepting : Accepting τ) (second : τ) :
    let run := integrator.run other v second
    let columns := system.columnsOf other
    run.result = .ok summary ∧ run.valuation = (integrator.run system v receiver).valuation ∧
      run.receiver = deliverAll second ((integrator.deliveries system v).map (Delivery.pick columns)) ∧
      columns.Perm (List.range (system.dimension + 1)) ∧
      ∀ before a b after, system.entries = before ++ a :: b :: after → other.entries = before ++ b :: a :: after →
        columns = List.range (before.length + 1) ++
          (before.length + 2) :: (before.length + 1) :: List.range' (before.length + 3) after.length := by
  intro run columns
  obtain ⟨result, received, agree⟩ :=
    (OdeSystem.shadows_of_reordered reordered).run_ok succeeded accepting second
  have names : run.valuation.names = (integrator.run system v receiver).valuation.names := by
    rw [integrator.run_names, integrator.run_names]
  refine ⟨result, ?_, received, OdeSystem.columnsOf_perm (Reordered.perm reordered), ?_⟩
  · exact Valuation.eq_of_get? names fun name => (agree name trivial).symm
  · intro before a b after here there
    exact OdeSystem.columnsOf_exchange here there

/-- A growth, and a decay with what it leaves behind. -/
def apart : OdeSystem :=
  ((OdeSystem.empty.insert "x" (.constant 2)).insert "y" (.unary "-" (.symbol "y"))).insert "z" (.symbol "y")

/-- The growth last. -/
def apartLast : OdeSystem :=
  ((OdeSystem.empty.insert "y" (.unary "-" (.symbol "y"))).insert "z" (.symbol "y")).insert "x" (.constant 2)

theorem independent_equations_commute_apart :
    let integrator := Integrator.euler { maxtime := 1, dt := 0.5 }
    let start := (decayStart.set "x" 0).set "z" 0
    let first := integrator.run apart start Trajectory.empty
    let second := integrator.run apartLast start Trajectory.empty
    Reordered apart.entries apartLast.entries ∧ Accepting Trajectory ∧
      first.receiver = ⟨["t", "x", "y", "z"], #[[0, 0, 1, 0], [0.5, 1, 0.5, 0.25], [1, 2, 0.25, 0.375]]⟩ ∧
      first.result = .ok ⟨2, 1⟩ ∧ second.result = .ok ⟨2, 1⟩ ∧ second.valuation = first.valuation ∧
      second.receiver = ⟨["t", "y", "z", "x"], #[[0, 1, 0, 0], [0.5, 0.5, 0.25, 1], [1, 0.25, 0.375, 2]]⟩ := by
  intro integrator start first second
  have reordered : Reordered apart.entries apartLast.entries := by
    have behindY : Exchange apart.entries _ := .swap [] _ ⟨by decide, by decide⟩
    have behindZ : Exchange _ apartLast.entries := .swap [⟨"y", .unary "-" (.symbol "y")⟩] [] ⟨by decide, by decide⟩
    exact (Relation.ReflTransGen.single behindY).tail behindZ
  have accepting : Accepting Trajectory := fun _ _ => rfl
  have total : integrator.total start = 2 := by decide +kernel
  have reaches : integrator.Reaches apart start := by
    refine ⟨by decide, by decide, ?_⟩
    rw [total]
    decide +kernel
  have final : (integrator.orbit apart start).time 2 = 1 := by decide +kernel
  obtain ⟨arrived, received⟩ := reaches.run accepting Trajectory.empty
  have succeeded : first.result = .ok ⟨2, 1⟩ := by
    rw [show first.result = _ from arrived.result, total, final]
  obtain ⟨result, values, kept, _⟩ :=
    independent_equations_commute reordered integrator start Trajectory.empty succeeded accepting Trajectory.empty
  refine ⟨reordered, accepting, received.trans ?_, succeeded, result, values, kept.trans ?_⟩
  · decide +kernel
  · decide +kernel

end EulerFlow
