import EulerFlow.Proofs.DoubleOrder
import EulerFlow.Proofs.FailedStep
import EulerFlow.Proofs.Frame
import EulerFlow.Proofs.Policies
import EulerFlow.Proofs.Timeline

namespace EulerFlow

section

open Float.Model Float.Model.UnpackedFloat

theorem isNaN_of_add {x : Float} (undefined : x.isNaN) (y : Float) : (x + y).isNaN := by
  have first : x.toModel.unpack.isNaN = true := undefined
  change (unpack .binary64 (pack .binary64 (add .binary64 x.toModel.unpack y.toModel.unpack))).isNaN = true
  cases unpacked : x.toModel.unpack with
  | notANumber => simp [UnpackedFloat.add, UnpackedFloat.pack, UnpackedFloat.unpack, packedNaN, UnpackedFloat.isNaN]
  | zero s => simp [unpacked, UnpackedFloat.isNaN] at first
  | infinity s => simp [unpacked, UnpackedFloat.isNaN] at first
  | finite s m e positive => simp [unpacked, UnpackedFloat.isNaN] at first

end

/-- What additions cannot undo: a value that is not finite stays so, and one that is no number stays none. -/
structure Sticks (x y : Float) : Prop where
  infinite : x.isFinite = false → y.isFinite = false
  undefined : x.isNaN = true → y.isNaN = true

theorem Sticks.refl (x : Float) : Sticks x x :=
  ⟨id, id⟩

theorem Sticks.trans {x y z : Float} (first : Sticks x y) (second : Sticks y z) : Sticks x z :=
  ⟨second.infinite ∘ first.infinite, second.undefined ∘ first.undefined⟩

theorem Sticks.add (x y : Float) : Sticks x (x + y) where
  infinite infinite := by
    refine Bool.eq_false_iff.mpr fun finite => ?_
    rw [(finite_of_add finite).1] at infinite
    cases infinite
  undefined undefined := isNaN_of_add undefined y

/-- A value that the name has, and what has become of it later. -/
def Valuation.Sticks (name : String) (v w : Valuation) : Prop :=
  ∀ x, v.get? name = some x → ∃ y, w.get? name = some y ∧ EulerFlow.Sticks x y

section

variable {system : OdeSystem} {symbol : String} {u v w : Valuation} {moments : List Moment}

theorem Valuation.Sticks.refl (v : Valuation) : v.Sticks symbol v :=
  fun x found => ⟨x, found, .refl x⟩

theorem Valuation.Sticks.trans (first : u.Sticks symbol v) (second : v.Sticks symbol w) : u.Sticks symbol w := by
  intro x found
  obtain ⟨y, later, sticks⟩ := first x found
  obtain ⟨z, last, further⟩ := second y later
  exact ⟨z, last, sticks.trans further⟩

/-- Additions are the only writes to a name other than the clock. -/
theorem Writes.sticks (other : symbol ≠ clock) (written : Writes system v w) : v.Sticks symbol w := by
  cases written with
  | nothing => exact .refl v
  | time t => exact fun x found => ⟨x, ((v.get?_setTime t symbol).trans (if_neg other)).trans found, .refl x⟩
  | @equation ode policy t dt member =>
    intro x found
    unfold Ode.apply
    split
    · exact ⟨x, found, .refl x⟩
    · exact ⟨x, found, .refl x⟩
    · rename_i derivative value _ old
      by_cases same : symbol = ode.symbol
      · rw [← same, found] at old
        cases old
        exact ⟨x + derivative * dt, (Valuation.get?_set ..).trans (if_pos same), .add x _⟩
      · exact ⟨x, ((Valuation.get?_set ..).trans (if_neg same)).trans found, .refl x⟩

/-- What sticks at one moment does so at all later ones, those at the start and at the end included. -/
theorem Passes.pairwise (other : symbol ≠ clock) (passes : Passes system v moments w) :
    ({ values := v } :: moments ++ [{ values := w }] : List Moment).Pairwise fun earlier later =>
      earlier.values.Sticks symbol later.values := by
  induction passes with
  | done => exact .cons (List.forall_mem_singleton.mpr (.refl _)) (.cons (List.forall_mem_nil _) .nil)
  | next written _ _ ih =>
    obtain ⟨behind, rest⟩ := List.pairwise_cons.mp ih
    have first := written.sticks other
    refine .cons (List.forall_mem_cons.mpr ⟨first, fun later member => ?_⟩) (.cons behind rest)
    exact first.trans (behind later member)

/-- A row that is handed over shows every symbol of the system at its place. -/
theorem Passes.shown (passes : Passes system v moments w) : ∀ moment ∈ moments, ∀ row, moment.row? = some row →
    ∀ i symbol, system.symbols[i]? = some symbol → row[i + 1]? = moment.values.get? symbol := by
  induction passes with
  | done => exact List.forall_mem_nil _
  | next _ shown _ ih =>
    refine List.forall_mem_cons.mpr ⟨fun row handed i symbol here => ?_, ih⟩
    obtain ⟨t, filled⟩ := shown row handed
    have defined := OdeSystem.row_defined filled
    rw [OdeSystem.row_eq defined] at filled
    cases filled
    rw [List.getElem?_cons_succ, Valuation.filterMap_getElem? defined, here]
    rfl

end

/-- Under the policy that aborts, a sweep over a symbol whose value is not finite fails. -/
theorem Course.stepped_aborts {σ : Type} {system : OdeSystem} {symbol : String} (column : symbol ∈ system.symbols)
    (other : symbol ≠ clock) {x : Float} {c : Course σ} (policy : c.stepper.policy = .abort)
    (found : c.valuation.get? symbol = some x) (infinite : x.isFinite = false) (dt : Float) :
    ∃ fault, (c.stepped system dt).fault? = some fault ∧
      ((∃ s time, fault = .nonFinite s time) ∨ ∃ s time cause, fault = .eval s time cause) := by
  have swept := c.stepped_sweep system dt
  rw [policy] at swept
  cases outcome : (c.stepped system dt).fault? with
  | none =>
    -- a sweep that goes through has left all its symbols finite, but this one cannot have become so
    rw [outcome] at swept
    obtain ⟨y, written, finite⟩ := sweep_finite system.distinct (congrArg Prod.snd swept).symm symbol column
    rw [← swept] at written
    have sticks := (List.pairwise_cons.mp ((c.moments_passes system 0 dt).pairwise other)).1 _
      (List.mem_append_right _ (List.mem_singleton_self _))
    obtain ⟨z, left, still⟩ := sticks x found
    cases left.symm.trans written
    rw [still.infinite infinite] at finite
    cases finite
  | some fault =>
    rw [outcome] at swept
    obtain ⟨_, ode, _, _, _, _, fails⟩ := sweep_some_iff.mp swept.symm
    refine ⟨fault, rfl, ?_⟩
    generalize (c.stepped system dt).valuation = left at fails
    cases fails with
    | unevaluated => exact .inr ⟨_, _, _, rfl⟩
    | undefined => exact .inr ⟨_, _, _, rfl⟩
    | nonFinite => exact .inl ⟨_, _, rfl⟩

/-- A run that aborts cannot take a step from a value that is not finite. -/
theorem Integrator.run_aborts {σ : Type} [Receiver σ] {integrator : Integrator} (policy : integrator.stepper.policy = .abort)
    {system : OdeSystem} {symbol : String} (column : symbol ∈ system.symbols) (other : symbol ≠ clock) {v : Valuation}
    {x : Float} (found : v.get? symbol = some x) (infinite : x.isFinite = false) (receiver : σ) :
    integrator.Rests system v receiver ∨
      (∃ s time, (integrator.run system v receiver).result = .error (.nonFinite s time)) ∨
      ∃ s time cause, (integrator.run system v receiver).result = .error (.eval s time cause) := by
  have reached := integrator.run_cases system v receiver
  generalize integrator.run system v receiver = run at reached ⊢
  cases reached with
  | invalid invalid => exact .inl (.invalid invalid)
  | headless _ answer => exact .inl (.headless answer)
  | rowless _ _ missing => exact .inl (.rowless missing)
  | refused _ answer filled rowAnswer => exact .inl (.refused answer filled rowAnswer)
  | @driven headed ready row course fault? _ _ _ _ drive =>
    cases steps : integrator.total v with
    | zero => exact .inl (.stepless steps)
    | succ remaining =>
      obtain ⟨fault, failed, kind⟩ := Course.stepped_aborts (c := integrator.opened system v ready) column other policy
        found infinite integrator.settings.dt
      rw [steps, Course.drive, Course.advance_eq, failed] at drive
      cases drive
      right
      rcases kind with ⟨s, time, rfl⟩ | ⟨s, time, cause, rfl⟩
      · exact .inl ⟨s, time, rfl⟩
      · exact .inr ⟨s, time, cause, rfl⟩

namespace OdeSystem

/-- What runs of one system leave of the values, each starting from what the one before has left, by any integrators
into any receivers. -/
def after (system : OdeSystem) (v : Valuation) : List (Integrator × AnyReceiver) → Valuation
  | [] => v
  | (integrator, receiver) :: runs => system.after (integrator.run system v receiver.state).valuation runs

/-- All moments of these runs. -/
def timeline (system : OdeSystem) (v : Valuation) : List (Integrator × AnyReceiver) → List Moment
  | [] => []
  | (integrator, receiver) :: runs =>
    integrator.timeline system v receiver.state ++
      system.timeline (integrator.run system v receiver.state).valuation runs

/-- Everything that is offered to the receivers of these runs. -/
def offered (system : OdeSystem) (v : Valuation) : List (Integrator × AnyReceiver) → List Delivery
  | [] => []
  | (integrator, receiver) :: runs =>
    (integrator.run system v (⟨receiver.state, []⟩ : Recorder receiver.State)).receiver.offered ++
      system.offered (integrator.run system v receiver.state).valuation runs

theorem timeline_passes (system : OdeSystem) (v : Valuation) (runs : List (Integrator × AnyReceiver)) :
    Passes system v (system.timeline v runs) (system.after v runs) := by
  induction runs generalizing v with
  | nil => exact .done
  | cons run runs ih => exact (run.1.timeline_passes system v run.2.state).append (ih _)

theorem timeline_offered (system : OdeSystem) (v : Valuation) (runs : List (Integrator × AnyReceiver)) :
    (system.offered v runs).filterMap Delivery.row? = Moment.rows (system.timeline v runs) := by
  induction runs generalizing v with
  | nil => rfl
  | cons run runs ih =>
    rw [offered, timeline, List.filterMap_append, Moment.rows_append, ih, run.1.timeline_offered]

end OdeSystem

/-- Once the value of a symbol is not finite it never is again, and once it is no number it stays none, in all rows and
values of all runs to come. A run that aborts cannot take a single step from there. -/
theorem nonFinite_values_absorbing {system : OdeSystem} {symbol : String} (column : symbol ∈ system.symbols)
    (other : symbol ≠ clock) (v : Valuation) (runs : List (Integrator × AnyReceiver)) :
    let after := system.after v runs
    let moments : List Moment := { values := v } :: system.timeline v runs ++ [{ values := after }]
    (moments.Pairwise fun earlier later => ∀ x, earlier.values.get? symbol = some x →
      ∃ y, later.values.get? symbol = some y ∧ (x.isFinite = false → y.isFinite = false) ∧
        (x.isNaN = true → y.isNaN = true)) ∧
      (∀ moment ∈ moments, ∀ row, moment.row? = some row → ∀ i, system.symbols[i]? = some symbol →
        row[i + 1]? = moment.values.get? symbol) ∧
      moments.filterMap Moment.row? = (system.offered v runs).filterMap Delivery.row? ∧
      ∀ moment ∈ moments, ∀ x, moment.values.get? symbol = some x → x.isFinite = false →
        ∀ (integrator : Integrator) (receiver : AnyReceiver), integrator.stepper.policy = .abort →
          let run := integrator.run system after receiver.state
          integrator.Rests system after receiver.state ∨ (∃ s time, run.result = .error (.nonFinite s time)) ∨
            ∃ s time cause, run.result = .error (.eval s time cause) := by
  intro after moments
  have passes := system.timeline_passes v runs
  have ordered := passes.pairwise other
  refine ⟨ordered.imp fun sticks x found => ?_, ?_, ?_, ?_⟩
  · obtain ⟨y, later, stuck⟩ := sticks x found
    exact ⟨y, later, stuck.infinite, stuck.undefined⟩
  · intro moment member row handed i here
    rcases List.mem_append.mp member with before | last
    · rcases List.mem_cons.mp before with rfl | within
      · cases handed
      · exact passes.shown moment within row handed i symbol here
    · cases List.mem_singleton.mp last
      cases handed
  · have rows : moments.filterMap Moment.row? = Moment.rows (system.timeline v runs) ++ [] :=
      Moment.rows_append (system.timeline v runs) [{ values := after }]
    rw [rows, List.append_nil, system.timeline_offered]
  · intro moment member x found infinite integrator receiver policy
    have sticks : moment.values.Sticks symbol after := by
      rcases List.mem_append.mp member with earlier | last
      · exact (List.pairwise_append.mp ordered).2.2 moment earlier _ (List.mem_singleton_self _)
      · exact List.mem_singleton.mp last ▸ .refl after
    obtain ⟨y, left, stuck⟩ := sticks x found
    exact integrator.run_aborts policy column other left (stuck.infinite infinite) receiver.state

/-- The growth of a burst is infinite after two steps, and no later run under the policy that aborts can begin. -/
theorem nonFinite_values_absorbing_burst :
    let free := Integrator.euler { maxtime := 1, dt := 0.5 }
    let strict := Integrator.euler { maxtime := 2, dt := 0.5, nonFinite := .abort }
    let runs : List (Integrator × AnyReceiver) := [(free, ⟨Trajectory, inferInstance, .empty⟩)]
    let after := burst.after burstStart runs
    let run := strict.run burst after Trajectory.empty
    "y" ∈ burst.symbols ∧ "y" ≠ clock ∧ after.get? "y" = some (1 / 0) ∧
      ((∃ s time, run.result = .error (.nonFinite s time)) ∨ ∃ s time cause, run.result = .error (.eval s time cause)) := by
  intro free strict runs after run
  have column : "y" ∈ burst.symbols := by decide
  have other : "y" ≠ clock := by decide
  have grown : after.get? "y" = some (1 / 0) := by decide +kernel
  refine ⟨column, other, grown, ?_⟩
  obtain ⟨_, _, _, aborts⟩ := nonFinite_values_absorbing column other burstStart runs
  have last : ({ values := after } : Moment) ∈
      { values := burstStart } :: burst.timeline burstStart runs ++ [{ values := after }] :=
    List.mem_append_right _ (List.mem_singleton_self _)
  rcases aborts _ last _ grown (by decide +kernel) strict ⟨Trajectory, inferInstance, .empty⟩ rfl with rests | failed
  · -- the run does take a step
    exfalso
    have defined : ∀ symbol ∈ burst.symbols, symbol ∈ after.names := by decide +kernel
    have total : strict.total after = 2 := by decide +kernel
    cases rests with
    | invalid invalid => cases (show strict.settings.fault? = none by decide).symm.trans invalid
    | headless answer => cases answer
    | rowless missing => cases (OdeSystem.row_eq defined after.time).symm.trans missing
    | refused _ _ answer => cases answer
    | stepless none => cases total.symm.trans none
  · exact failed

end EulerFlow
