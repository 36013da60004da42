import EulerFlow.Proofs.Sweep
import EulerFlow.Run.Integrator

namespace EulerFlow

/-- What a run is meant to be, whoever receives its rows: the data that fix it. -/
structure Orbit where
  system : OdeSystem
  policy : NonFinitePolicy
  dt : Float
  start : Valuation

namespace Orbit

/-- The time of a row. That of the initial row is the start itself and no sum. -/
def time (o : Orbit) : Nat → Float
  | 0 => o.start.time
  | k + 1 => o.start.time + Float.ofNat (k + 1) * o.dt

/-- The step behind row `k`: the clock shows the time of that row, and the equations are
applied in order of registration. -/
def step (o : Orbit) (k : Nat) (v : Valuation) : Valuation × Option RunError :=
  sweep o.policy (o.time k) o.dt (v.setTime (o.time k)) o.system.entries

/-- The values right after so many steps. -/
def state (o : Orbit) : Nat → Valuation
  | 0 => o.start
  | k + 1 => (o.step k (o.state k)).1

/-- What goes wrong in the step behind row `k`, if anything. -/
def fault? (o : Orbit) (k : Nat) : Option RunError :=
  (o.step k (o.state k)).2

/-- The row of the step: its time, and the values in the order of the symbols. -/
def row (o : Orbit) (k : Nat) : List Float :=
  o.time k :: o.system.symbols.filterMap (o.state k).get?

/-- The header and the rows up to and with row `k`. -/
def deliveries (o : Orbit) (k : Nat) : List Delivery :=
  .header (clock :: o.system.symbols) :: (List.range (k + 1)).map fun j => .row (o.row j)

theorem state_names (o : Orbit) (k : Nat) : (o.state k).names = o.start.names := by
  induction k with
  | zero => rfl
  | succ k ih => rw [state, step, sweep_names, Valuation.names_setTime, ih]

/-- Where all symbols have values, every row has one for each. -/
theorem row_length {o : Orbit} (defined : ∀ symbol ∈ o.system.symbols, symbol ∈ o.start.names) (k : Nat) :
    (o.row k).length = o.system.dimension + 1 := by
  have valued : ∀ symbol ∈ o.system.symbols, ((o.state k).get? symbol).isSome = true := by
    intro symbol member
    have named := defined symbol member
    rw [← o.state_names k] at named
    exact Option.isSome_iff_exists.mpr (Valuation.mem_names_iff.mp named)
  rw [row, List.length_cons, List.filterMap_length_eq_length.mpr valued, OdeSystem.symbols, List.length_map]
  rfl

theorem deliveries_zero (o : Orbit) :
    o.deliveries 0 = [.header (clock :: o.system.symbols),
      .row (o.start.time :: o.system.symbols.filterMap o.start.get?)] := rfl

theorem deliveries_succ (o : Orbit) (k : Nat) :
    o.deliveries (k + 1) = o.deliveries k ++ [.row (o.row (k + 1))] := by
  simp only [deliveries, List.range_succ, List.map_append, List.cons_append, List.map_cons, List.map_nil]

end Orbit

/-- Hands over deliveries one after the other, whatever the answers. -/
def deliverAll {σ : Type} [Receiver σ] (receiver : σ) (ds : List Delivery) : σ :=
  ds.foldl (fun receiver d => (Receiver.receive receiver d).1) receiver

/-- Receivers that never refuse. -/
def Accepting (σ : Type) [Receiver σ] : Prop :=
  ∀ (receiver : σ) (d : Delivery), (Receiver.receive receiver d).2 = none

theorem deliverAll_append {σ : Type} [Receiver σ] (receiver : σ) (ds : List Delivery) (d : Delivery) :
    deliverAll receiver (ds ++ [d]) = (Receiver.receive (deliverAll receiver ds) d).1 := by
  simp only [deliverAll, List.foldl_append, List.foldl_cons, List.foldl_nil]

theorem rowValues_eq {v : Valuation} {odes : List Ode} (defined : ∀ ode ∈ odes, ode.symbol ∈ v.names)
    (t : Float) : rowValues v t odes = .ok ((odes.map Ode.symbol).filterMap v.get?) := by
  induction odes with
  | nil => rfl
  | cons ode odes ih =>
    obtain ⟨value, found⟩ := Valuation.mem_names_iff.mp (defined ode (List.mem_cons_self ..))
    have others := ih fun other member => defined other (List.mem_cons_of_mem _ member)
    simp only [rowValues, Valuation.get, found, others, List.map_cons, List.filterMap_cons]
    rfl

/-- A row can be filled only where every symbol has a value. -/
theorem rowValues_defined {v : Valuation} {odes : List Ode} {t : Float} {values : List Float}
    (filled : rowValues v t odes = .ok values) : ∀ ode ∈ odes, ode.symbol ∈ v.names := by
  induction odes generalizing values with
  | nil => exact List.forall_mem_nil _
  | cons ode odes ih =>
    unfold rowValues Valuation.get at filled
    cases found : v.get? ode.symbol with
    | none =>
      simp only [found] at filled
      cases filled
    | some value =>
      simp only [found] at filled
      cases rest : rowValues v t odes with
      | error fault =>
        rw [rest] at filled
        cases filled
      | ok others => exact List.forall_mem_cons.mpr ⟨Valuation.mem_names_iff.mpr ⟨value, found⟩, ih rest⟩

theorem OdeSystem.row_defined {system : OdeSystem} {v : Valuation} {t : Float} {row : List Float}
    (filled : system.row v t = .ok row) : ∀ symbol ∈ system.symbols, symbol ∈ v.names := by
  unfold OdeSystem.row at filled
  cases rest : rowValues v t system.entries with
  | error fault =>
    rw [rest] at filled
    cases filled
  | ok values => exact List.forall_mem_map.mpr (rowValues_defined rest)

theorem OdeSystem.row_eq {system : OdeSystem} {v : Valuation} (defined : ∀ symbol ∈ system.symbols, symbol ∈ v.names)
    (t : Float) : system.row v t = .ok (t :: system.symbols.filterMap v.get?) := by
  have values := rowValues_eq (v := v) (fun ode member => defined _ (List.mem_map_of_mem member)) t
  rw [OdeSystem.row, values]
  rfl

/-- Where all names have values, the values stand in the places of their names. -/
theorem Valuation.filterMap_getElem? {v : Valuation} {names : List String}
    (defined : ∀ name ∈ names, name ∈ v.names) (i : Nat) :
    (names.filterMap v.get?)[i]? = names[i]?.bind v.get? := by
  induction names generalizing i with
  | nil => simp
  | cons name names ih =>
    obtain ⟨value, found⟩ := mem_names_iff.mp (defined name (List.mem_cons_self ..))
    have others := ih fun other member => defined other (List.mem_cons_of_mem _ member)
    simp only [List.filterMap_cons, found]
    cases i with
    | zero => exact found.symm
    | succ i => exact others i

end EulerFlow
