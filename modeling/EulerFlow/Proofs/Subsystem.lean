import EulerFlow.Proofs.Shadow
import EulerFlow.Proofs.Updates

namespace EulerFlow

variable {shared : String → Prop} {policy : NonFinitePolicy} {t dt : Float} {v w : Valuation}

/-- An equation writes to its own symbol at most. -/
theorem Ode.apply_hidden {ode : Ode} (hidden : ¬ shared ode.symbol) (agree : v.Agree shared w) :
    (ode.apply policy t dt v).1.Agree shared w := by
  intro name member
  have differs : name ≠ ode.symbol := fun same => hidden (same ▸ member)
  rw [ode.apply_get? policy t dt v differs]
  exact agree name member

/-- Equations that are left out are not missed by those that read none of their symbols. -/
theorem sweep_sublist {part odes : List Ode} (sublist : part.Sublist odes) (distinct : (odes.map Ode.symbol).Nodup)
    (within : ∀ ode ∈ part, ode.Within shared)
    (hidden : ∀ ode ∈ odes, ode.symbol ∉ part.map Ode.symbol → ¬ shared ode.symbol)
    (agree : v.Agree shared w) (went : (sweep policy t dt v odes).2 = none) :
    (sweep policy t dt w part).2 = none ∧
      (sweep policy t dt v odes).1.Agree shared (sweep policy t dt w part).1 := by
  induction sublist generalizing v w with
  | slnil => exact ⟨rfl, agree⟩
  | @cons part odes ode sublist ih =>
    obtain ⟨fresh, distinct⟩ := List.nodup_cons.mp distinct
    have applied := apply_of_sweep_cons went
    have left : ode.symbol ∉ part.map Ode.symbol := fun kept => fresh ((sublist.map Ode.symbol).subset kept)
    have unseen := hidden ode (List.mem_cons_self ..) left
    rw [sweep_cons_of_none applied] at went ⊢
    exact ih distinct within (fun other member => hidden other (List.mem_cons_of_mem _ member))
      (Ode.apply_hidden unseen agree) went
  | @cons_cons part odes ode sublist ih =>
    obtain ⟨fresh, distinct⟩ := List.nodup_cons.mp distinct
    obtain ⟨head, others⟩ := List.forall_mem_cons.mp within
    have applied := apply_of_sweep_cons went
    obtain ⟨outcome, after⟩ := Ode.apply_agree head agree policy t dt
    rw [sweep_cons_of_none applied] at went ⊢
    rw [sweep_cons_of_none (outcome ▸ applied)]
    refine ih distinct others (fun other member missing => ?_) after went
    refine hidden other (List.mem_cons_of_mem _ member) fun kept => ?_
    rcases List.mem_cons.mp kept with same | later
    · exact fresh (same ▸ List.mem_map_of_mem member)
    · exact missing later

/-- A part of a system that mentions no symbol of the rest. -/
structure OdeSystem.Closed (part system : OdeSystem) : Prop where
  sublist : part.entries.Sublist system.entries
  unmixed : ∀ ode ∈ part.entries, ∀ other ∈ system.entries, other ∉ part.entries →
    other.symbol ∉ ode.equation.symbols

namespace OdeSystem.Closed

variable {part system : OdeSystem}

/-- All names but the symbols of the rest of the system. -/
def visible (part system : OdeSystem) (name : String) : Prop :=
  name ∈ system.symbols → name ∈ part.symbols

theorem within (closed : part.Closed system) : ∀ ode ∈ part.entries, ode.Within (visible part system) := by
  intro ode member
  refine ⟨fun _ => List.mem_map_of_mem member, fun name mentioned written => ?_⟩
  obtain ⟨other, present, rfl⟩ := List.mem_map.mp written
  have kept : other ∈ part.entries := by
    by_contra outside
    exact closed.unmixed ode member other present outside mentioned
  exact List.mem_map_of_mem kept

theorem shadows (closed : part.Closed system) : part.Shadows (visible part system) system where
  within _ member := (closed.sublist.map Ode.symbol).subset member
  named _ member _ := member
  sweep agree went :=
    sweep_sublist closed.sublist system.distinct closed.within
      (fun _ member left shared => left (shared (List.mem_map_of_mem member))) agree went

end OdeSystem.Closed

variable {σ τ : Type} [Receiver σ] [Receiver τ]

/-- A part of a system that mentions no symbol of the rest runs alone as it runs within the system:
it succeeds where the system does, after as many steps and at the same time, and its table is the
table of the system without the columns of the rest. -/
theorem subsystem_runs_alone {part system : OdeSystem} (closed : part.Closed system) (integrator : Integrator)
    (v : Valuation) (receiver : σ) {summary : Summary}
    (succeeded : (integrator.run system v receiver).result = .ok summary) (accepting : Accepting τ) (alone : τ) :
    let run := integrator.run part v alone
    run.result = .ok summary ∧
      run.receiver = deliverAll alone
        ((integrator.deliveries system v).map (Delivery.pick (system.columnsOf part))) := by
  intro run
  obtain ⟨result, received, _⟩ := closed.shadows.run_ok succeeded accepting alone
  exact ⟨result, received⟩

/-- A follower behind the decay. -/
def pursuit : OdeSystem :=
  (OdeSystem.empty.insert "z" (.binary (.symbol "y") "-" (.symbol "z"))).insert "y" (.unary "-" (.symbol "y"))

theorem subsystem_runs_alone_decay :
    let integrator := Integrator.euler { maxtime := 1, dt := 0.5 }
    let start := decayStart.set "z" 0
    let whole := integrator.run pursuit start Trajectory.empty
    let alone := integrator.run decay start Trajectory.empty
    decay.Closed pursuit ∧ Accepting Trajectory ∧
      whole.receiver = ⟨["t", "z", "y"], #[[0, 0, 1], [0.5, 0.5, 0.5], [1, 0.5, 0.25]]⟩ ∧
      whole.result = .ok ⟨2, 1⟩ ∧ alone.result = .ok ⟨2, 1⟩ ∧
      alone.receiver = ⟨["t", "y"], #[[0, 1], [0.5, 0.5], [1, 0.25]]⟩ := by
  intro integrator start whole alone
  have closed : decay.Closed pursuit := by
    refine ⟨(List.Sublist.refl decay.entries).cons _, fun ode member other present outside => ?_⟩
    rcases List.mem_cons.mp present with rfl | kept
    · rw [List.mem_singleton.mp member]
      decide
    · exact absurd kept outside
  have accepting : Accepting Trajectory := fun _ _ => rfl
  have total : integrator.total start = 2 := by decide +kernel
  have reaches : integrator.Reaches pursuit start := by
    refine ⟨by decide, by decide, ?_⟩
    rw [total]
    decide +kernel
  have final : (integrator.orbit pursuit start).time 2 = 1 := by decide +kernel
  obtain ⟨arrived, received⟩ := reaches.run accepting Trajectory.empty
  have succeeded : whole.result = .ok ⟨2, 1⟩ := by
    rw [show whole.result = _ from arrived.result, total, final]
  obtain ⟨result, kept⟩ := subsystem_runs_alone closed integrator start Trajectory.empty succeeded accepting
    Trajectory.empty
  refine ⟨closed, accepting, received.trans ?_, succeeded, result, kept.trans ?_⟩
  · decide +kernel
  · decide +kernel

end EulerFlow
