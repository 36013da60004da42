import EulerFlow.Proofs.Agreement
import EulerFlow.Proofs.Success

namespace EulerFlow

/-- The fields of a delivery in the given columns. -/
def Delivery.pick (columns : List Nat) : Delivery → Delivery
  | .header names => .header (columns.filterMap (names[·]?))
  | .row values => .row (columns.filterMap (values[·]?))

/-- Where the columns of another system's table stand in the table of this one: the time is first
in both, and the others have their symbols in this system. -/
def OdeSystem.columnsOf (system other : OdeSystem) : List Nat :=
  0 :: other.symbols.map fun symbol => system.symbols.idxOf symbol + 1

/-- The first field stays, and the columns of the names are those of their values. -/
theorem pick_fields {α : Type} {names others : List String} (value? : String → Option α)
    (within : ∀ name ∈ others, name ∈ names) {fields : List α} (place : ∀ i : Nat, fields[i]? = names[i]?.bind value?)
    (first : α) :
    (0 :: others.map fun name => names.idxOf name + 1).filterMap ((first :: fields)[·]?) =
      first :: others.filterMap value? := by
  rw [List.filterMap_cons_some (List.getElem?_cons_zero ..), List.filterMap_map]
  refine congrArg (List.cons first) (List.filterMap_congr fun name member => ?_)
  have here := List.getElem?_idxOf (within name member)
  rw [Function.comp_apply, List.getElem?_cons_succ, place, here, Option.bind_some]

theorem Delivery.pick_header {system other : OdeSystem} (within : ∀ symbol ∈ other.symbols, symbol ∈ system.symbols) :
    (Delivery.header (clock :: system.symbols)).pick (system.columnsOf other) =
      .header (clock :: other.symbols) := by
  have names := pick_fields some within (fun i => (Option.bind_fun_some _).symm) clock
  rw [List.filterMap_some] at names
  exact congrArg Delivery.header names

theorem Delivery.pick_row {system other : OdeSystem} {v : Valuation}
    (within : ∀ symbol ∈ other.symbols, symbol ∈ system.symbols) (defined : ∀ symbol ∈ system.symbols, symbol ∈ v.names)
    (t : Float) :
    (Delivery.row (t :: system.symbols.filterMap v.get?)).pick (system.columnsOf other) =
      .row (t :: other.symbols.filterMap v.get?) :=
  congrArg Delivery.row (pick_fields v.get? within (Valuation.filterMap_getElem? defined) t)

/-- A system shadows another on shared names if it has no symbols but shared ones of the other, and
whenever a sweep of the other goes through it does the same to the shared names. -/
structure OdeSystem.Shadows (shared : String → Prop) (other system : OdeSystem) : Prop where
  within : ∀ symbol ∈ other.symbols, symbol ∈ system.symbols
  named : ∀ symbol ∈ other.symbols, shared symbol
  sweep : ∀ {policy : NonFinitePolicy} {t dt : Float} {v w : Valuation}, v.Agree shared w →
    (sweep policy t dt v system.entries).2 = none →
    (sweep policy t dt w other.entries).2 = none ∧
      (sweep policy t dt v system.entries).1.Agree shared (sweep policy t dt w other.entries).1

namespace OdeSystem.Shadows

variable {shared : String → Prop} {other system : OdeSystem} (shadows : other.Shadows shared system)
  {integrator : Integrator} {v : Valuation}

include shadows

/-- Step by step, the system and its part agree on what they share, because the part reads nothing else. -/
theorem state_agree {k : Nat} (faultless : ∀ j < k, (integrator.orbit system v).fault? j = none) :
    ((integrator.orbit system v).state k).Agree shared ((integrator.orbit other v).state k) ∧
      ∀ j < k, (integrator.orbit other v).fault? j = none := by
  induction k with
  | zero => exact ⟨fun _ _ => rfl, nofun⟩
  | succ k ih =>
    obtain ⟨agree, before⟩ := ih fun j earlier => faultless j (by omega)
    obtain ⟨went, after⟩ := shadows.sweep (agree.setTime ((integrator.orbit system v).time k))
      (faultless k (Nat.lt_succ_self k))
    refine ⟨after, fun j earlier => ?_⟩
    rcases Nat.lt_succ_iff_lt_or_eq.mp earlier with sooner | rfl
    · exact before j sooner
    · exact went

theorem reaches (reaches : integrator.Reaches system v) : integrator.Reaches other v where
  valid := reaches.valid
  defined symbol member := reaches.defined symbol (shadows.within symbol member)
  faultless := (shadows.state_agree reaches.faultless).2

theorem row_pick {k : Nat} (defined : ∀ symbol ∈ system.symbols, symbol ∈ v.names)
    (faultless : ∀ j < k, (integrator.orbit system v).fault? j = none) :
    (Delivery.row ((integrator.orbit system v).row k)).pick (system.columnsOf other) =
      .row ((integrator.orbit other v).row k) := by
  have still : ∀ symbol ∈ system.symbols, symbol ∈ ((integrator.orbit system v).state k).names := by
    rw [Orbit.state_names]
    exact defined
  have picked := Delivery.pick_row shadows.within still ((integrator.orbit system v).time k)
  refine picked.trans (congrArg (fun values => Delivery.row (_ :: values)) ?_)
  refine List.filterMap_congr fun symbol member => ?_
  exact (shadows.state_agree faultless).1 symbol (shadows.named symbol member)

/-- What the part delivers is what the system delivers, with fewer columns. -/
theorem deliveries_pick (reaches : integrator.Reaches system v) :
    integrator.deliveries other v = (integrator.deliveries system v).map (Delivery.pick (system.columnsOf other)) := by
  rw [(shadows.reaches reaches).tape.1, reaches.tape.1, Orbit.deliveries, Orbit.deliveries, List.map_cons, List.map_map]
  refine congrArg₂ List.cons (Delivery.pick_header shadows.within).symm (List.map_congr_left fun j member => ?_)
  have upTo := List.mem_range.mp member
  have picked := shadows.row_pick (k := j) reaches.defined fun i before => reaches.faultless i (by omega)
  exact picked.symm

/-- Where a run of the other system succeeds, a run of this one does, with the same summary: its table
is made of columns of the other's, and the shared names have the same values at the end. -/
theorem run_ok {σ τ : Type} [Receiver σ] [Receiver τ] {receiver : σ} {summary : Summary}
    (succeeded : (integrator.run system v receiver).result = .ok summary) (accepting : Accepting τ) (second : τ) :
    let run := integrator.run other v second
    run.result = .ok summary ∧
      run.receiver = deliverAll second
        ((integrator.deliveries system v).map (Delivery.pick (system.columnsOf other))) ∧
      (integrator.run system v receiver).valuation.Agree shared run.valuation := by
  intro run
  obtain ⟨reaches, arrived⟩ := Integrator.reaches_of_ok succeeded
  obtain ⟨arrived', received⟩ := (shadows.reaches reaches).run accepting second
  refine ⟨?_, ?_, ?_⟩
  · rw [show run.result = _ from arrived'.result, ← succeeded, arrived.result]
    rfl
  · rw [show run.receiver = _ from received, shadows.deliveries_pick reaches]
  · rw [arrived.valuation, show run.valuation = _ from arrived'.valuation]
    exact (shadows.state_agree reaches.faultless).1.setTime _

end OdeSystem.Shadows

end EulerFlow
