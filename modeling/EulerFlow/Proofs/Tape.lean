import EulerFlow.Proofs.RunOrbit

namespace EulerFlow

/-- A receiver that takes everything and keeps it in order. -/
structure Tape where
  deliveries : List Delivery
deriving DecidableEq

namespace Tape

/-- Nothing was delivered. -/
def empty : Tape where
  deliveries := []

instance : Receiver Tape where
  receive tape d := (⟨tape.deliveries ++ [d]⟩, none)

theorem accepting : Accepting Tape :=
  fun _ _ => rfl

theorem deliverAll_deliveries (tape : Tape) (ds : List Delivery) :
    (deliverAll tape ds).deliveries = tape.deliveries ++ ds := by
  induction ds generalizing tape with
  | nil => exact (List.append_nil _).symm
  | cons d ds ih => exact (ih _).trans (List.append_assoc ..)

end Tape

/-- The calls that a run makes when none is refused: the header and the rows as far as it comes. -/
def Integrator.deliveries (integrator : Integrator) (system : OdeSystem) (v : Valuation) : List Delivery :=
  (integrator.run system v Tape.empty).receiver.deliveries

theorem Integrator.concluded_view {σ : Type} (integrator : Integrator) (course : Course σ) (fault? : Option RunError) :
    (integrator.concluded course fault?).receiver = course.receiver ∧
      (integrator.concluded course fault?).valuation = course.valuation := by
  cases fault? <;> exact ⟨rfl, rfl⟩

section

variable {σ : Type} [Receiver σ]

/-- Offers deliveries one after the other, up to the first that is refused. -/
def offer (receiver : σ) : List Delivery → σ × Option Refusal
  | [] => (receiver, none)
  | d :: ds =>
    match Receiver.receive receiver d with
    | (after, some refusal) => (after, some refusal)
    | (after, none) => offer after ds

/-- How many deliveries are accepted before the first that is refused. -/
def taken (receiver : σ) : List Delivery → Nat
  | [] => 0
  | d :: ds =>
    match Receiver.receive receiver d with
    | (_, some _) => 0
    | (after, none) => taken after ds + 1

theorem offer_refused {receiver after : σ} {d : Delivery} {refusal : Refusal}
    (answer : Receiver.receive receiver d = (after, some refusal)) (ds : List Delivery) :
    offer receiver (d :: ds) = (after, some refusal) ∧ taken receiver (d :: ds) = 0 := by
  simp only [offer, taken, answer, and_self]

theorem offer_accepted {receiver after : σ} {d : Delivery} (answer : Receiver.receive receiver d = (after, none))
    (ds : List Delivery) :
    offer receiver (d :: ds) = offer after ds ∧ taken receiver (d :: ds) = taken after ds + 1 := by
  simp only [offer, taken, answer, and_self]

/-- A refusal is an answer to the delivery behind those that were accepted. -/
theorem offer_cut (receiver : σ) (ds : List Delivery) :
    (offer receiver ds).1 = deliverAll receiver (ds.take (taken receiver ds + 1)) ∧
      taken receiver ds ≤ ds.length ∧ ((offer receiver ds).2 = none ↔ taken receiver ds = ds.length) := by
  induction ds generalizing receiver with
  | nil => exact ⟨rfl, Nat.le_refl 0, by simp [offer, taken]⟩
  | cons d ds ih =>
    rcases answer : Receiver.receive receiver d with ⟨after, _ | refusal⟩
    · obtain ⟨offered, count⟩ := offer_accepted answer ds
      obtain ⟨received, bound, whole⟩ := ih after
      rw [offered, count]
      refine ⟨?_, Nat.succ_le_succ bound, whole.trans (by rw [List.length_cons, Nat.succ_inj])⟩
      rw [received, List.take_succ_cons, deliverAll, deliverAll, List.foldl_cons, answer]
    · obtain ⟨offered, count⟩ := offer_refused answer ds
      rw [offered, count]
      refine ⟨?_, Nat.zero_le _, by simp⟩
      rw [List.take_succ_cons, List.take_zero, deliverAll, List.foldl_cons, answer]
      rfl

theorem offer_accepting (accepting : Accepting σ) (receiver : σ) (ds : List Delivery) :
    offer receiver ds = (deliverAll receiver ds, none) := by
  induction ds generalizing receiver with
  | nil => rfl
  | cons d ds ih =>
    have answer : Receiver.receive receiver d = ((Receiver.receive receiver d).1, none) :=
      Prod.ext rfl (accepting receiver d)
    rw [(offer_accepted answer ds).1, ih]
    rfl

namespace Course

/-- The same run with another receiver. -/
def redirect {τ : Type} (c : Course τ) (receiver : σ) : Course σ :=
  ⟨c.stepper, c.valuation, receiver, c.notices, c.steps, c.time⟩

/-- What a drive into any receiver has in common with the drive into a tape that delivers the rows
and leads to the course `after`: it is the same drive, unless the receiver refuses one of the rows. -/
structure Cut (o : Orbit) (k : Nat) (rows : List Delivery) (receiver : σ) (after : Course Tape)
    (fault? : Option RunError) (out : Course σ × Option RunError) : Prop where
  received : out.1.receiver = (offer receiver rows).1
  refused : ∀ refusal, (offer receiver rows).2 = some refusal →
    out.2 = some (.refused refusal) ∧ out.1.valuation = o.state (k + taken receiver rows + 1)
  whole : (offer receiver rows).2 = none → out = (after.redirect (offer receiver rows).1, fault?)

theorem Cut.all (o : Orbit) (k : Nat) (receiver : σ) (after : Course Tape) (fault? : Option RunError) :
    Cut o k [] receiver after fault? (after.redirect receiver, fault?) where
  received := rfl
  refused := nofun
  whole _ := rfl

variable {system : OdeSystem} {start dt : Float} {c : Course Tape}

/-- Where a tape sees a step fail, no other receiver is asked. -/
theorem redirect_failed {after : Course Tape} {fault : RunError}
    (step : Advance system start dt c after (some fault)) (receiver : σ) :
    (c.redirect receiver).advance system start dt = (after.redirect receiver, some fault) := by
  rw [advance_eq]
  cases step with
  | failed failed =>
    rw [show ((c.redirect receiver).stepped system dt).fault? = some fault from failed]
    rfl
  | rowless went missing =>
    rw [show ((c.redirect receiver).stepped system dt).fault? = none from went]
    simp only [show system.row ((c.redirect receiver).stepped system dt).valuation
      ((c.redirect receiver).next start dt) = .error fault from missing]
    rfl
  | refused _ _ answer => cases answer

/-- A row that a tape takes is offered to any other receiver in its place. -/
theorem redirect_row {row : List Float} (went : (c.stepped system dt).fault? = none)
    (filled : system.row (c.stepped system dt).valuation (c.next start dt) = .ok row) (receiver : σ) :
    (c.redirect receiver).advance system start dt =
      match Receiver.receive receiver (.row row) with
      | (after, some refusal) => ((c.redirect receiver).stopped system dt after, some (.refused refusal))
      | (after, none) => ((c.redirect receiver).moved system start dt after row, none) := by
  rw [advance_eq, show ((c.redirect receiver).stepped system dt).fault? = none from went]
  simp only [show system.row ((c.redirect receiver).stepped system dt).valuation
    ((c.redirect receiver).next start dt) = .ok row from filled]
  rfl

/-- Every receiver is offered the rows that a tape takes, until it refuses one. -/
theorem Drives.cut {o : Orbit} {tape : Tape} {k remaining : Nat} {after : Course Tape} {fault? : Option RunError}
    (drives : Drives o.system o.start.time o.dt remaining c after fault?) (follows : c.Follows o tape k)
    (defined : ∀ symbol ∈ o.system.symbols, symbol ∈ o.start.names) :
    ∃ rows, after.receiver.deliveries = c.receiver.deliveries ++ rows ∧ ∀ receiver : σ,
      Cut o k rows receiver after fault? ((c.redirect receiver).drive o.system o.start.time o.dt remaining) := by
  induction drives generalizing k with
  | done => exact ⟨[], (List.append_nil _).symm, fun receiver => .all ..⟩
  | @fault remaining c after fault step =>
    refine ⟨[], ?_, fun receiver => ?_⟩
    · obtain ⟨_, received, _⟩ := follows.advance Tape.accepting defined step
      rw [received, List.append_nil]
    · rw [drive, redirect_failed step receiver]
      exact .all ..
  | @next remaining c middle after fault? step _ ih =>
    obtain ⟨values, _⟩ := Prod.mk.inj follows.stepped
    obtain ⟨_, further⟩ := follows.advance Tape.accepting defined step
    obtain ⟨rows, taped, cut⟩ := ih further
    cases step with
    | @delivered row tape' went filled answer =>
      cases answer
      refine ⟨.row row :: rows, taped.trans (List.append_assoc ..), fun receiver => ?_⟩
      rw [drive, redirect_row went filled receiver]
      rcases answer : Receiver.receive receiver (.row row) with ⟨received, _ | refusal⟩
      · obtain ⟨offered, count⟩ := offer_accepted answer rows
        have rest := cut received
        refine ⟨offered ▸ rest.received, fun refusal refused => ?_, fun whole => ?_⟩
        · obtain ⟨result, state⟩ := rest.refused refusal (offered ▸ refused)
          refine ⟨result, state.trans ?_⟩
          rw [count, Nat.add_right_comm k 1, Nat.add_assoc k]
        · rw [offered] at whole ⊢
          exact rest.whole whole
      · obtain ⟨offered, count⟩ := offer_refused answer rows
        refine ⟨(congrArg Prod.fst offered).symm, fun other refused => ?_, fun whole => ?_⟩
        · rw [offered] at refused
          cases refused
          exact ⟨rfl, by rw [count]; exact values⟩
        · rw [offered] at whole
          cases whole

end Course

namespace Integrator

variable (integrator : Integrator) (system : OdeSystem) (v : Valuation)

/-- What the run into a tape says of the run into another receiver: the calls that the receiver is
offered, and what the run comes to if it refuses none of them. -/
structure Cut (calls : List Delivery) (receiver : σ) (free : Run Tape) (run : Run σ) : Prop where
  received : run.receiver = (offer receiver calls).1
  refused : ∀ refusal, (offer receiver calls).2 = some refusal → run.result = .error (.refused refusal) ∧
    run.valuation = (integrator.orbit system v).state (taken receiver calls - 1)
  whole : (offer receiver calls).2 = none → run.result = free.result ∧ run.valuation = free.valuation

variable {integrator system v} {receiver after : σ} {calls : List Delivery} {free : Run Tape} {d : Delivery}

theorem Cut.atOnce {refusal : Refusal} (answer : Receiver.receive receiver d = (after, some refusal)) :
    integrator.Cut system v (d :: calls) receiver free (integrator.rejected v after (.refused refusal)) := by
  obtain ⟨offered, count⟩ := offer_refused answer calls
  refine ⟨(congrArg Prod.fst offered).symm, fun other refused => ?_, fun whole => ?_⟩
  · rw [offered] at refused
    cases refused
    exact ⟨rfl, by rw [count]; rfl⟩
  · rw [offered] at whole
    cases whole

theorem Cut.afterHeader {headed : σ} {row : Delivery} {refusal : Refusal}
    (answer : Receiver.receive receiver d = (headed, none))
    (rowAnswer : Receiver.receive headed row = (after, some refusal)) :
    integrator.Cut system v (d :: row :: calls) receiver free (integrator.rejected v after (.refused refusal)) := by
  obtain ⟨offered, count⟩ := offer_accepted answer (row :: calls)
  obtain ⟨rowOffered, rowCount⟩ := offer_refused rowAnswer calls
  rw [rowOffered] at offered
  rw [rowCount] at count
  refine ⟨(congrArg Prod.fst offered).symm, fun other refused => ?_, fun whole => ?_⟩
  · rw [offered] at refused
    cases refused
    exact ⟨rfl, by rw [count]; rfl⟩
  · rw [offered] at whole
    cases whole

/-- A drive that is cut belongs to a run that is. -/
theorem Cut.driven {headed ready : σ} {row : Delivery} {course : Course Tape} {fault? : Option RunError}
    {out : Course σ × Option RunError} (answer : Receiver.receive receiver d = (headed, none))
    (rowAnswer : Receiver.receive headed row = (ready, none))
    (cut : Course.Cut (integrator.orbit system v) 0 calls ready course fault? out) :
    integrator.Cut system v (d :: row :: calls) receiver (integrator.concluded course fault?)
      (integrator.concluded out.1 out.2) := by
  obtain ⟨offered, count⟩ := offer_accepted answer (row :: calls)
  obtain ⟨rowOffered, rowCount⟩ := offer_accepted rowAnswer calls
  rw [rowOffered] at offered
  rw [rowCount] at count
  obtain ⟨received, values⟩ := integrator.concluded_view out.1 out.2
  refine ⟨?_, fun refusal refused => ?_, fun whole => ?_⟩
  · rw [received, cut.received, offered]
  · obtain ⟨result, state⟩ := cut.refused refusal (offered ▸ refused)
    rw [values, state, result, count]
    exact ⟨rfl, by rw [Nat.zero_add, Nat.add_sub_cancel]⟩
  · rw [cut.whole (offered ▸ whole)]
    cases fault? <;> exact ⟨rfl, rfl⟩

/-- A run into any receiver is the run into a tape, cut where the receiver refuses a call. Before the
first step the values are those at the start; at a later row they are those of its step, with the
clock not yet moved on. -/
theorem run_cut (integrator : Integrator) (system : OdeSystem) (v : Valuation) (receiver : σ) :
    integrator.Cut system v (integrator.deliveries system v) receiver (integrator.run system v Tape.empty)
      (integrator.run system v receiver) := by
  have taped := integrator.run_cases system v Tape.empty
  unfold deliveries
  generalize integrator.run system v Tape.empty = free at taped ⊢
  rw [run_eq]
  cases taped with
  | invalid invalid =>
    rw [invalid]
    exact ⟨rfl, nofun, fun _ => ⟨rfl, rfl⟩⟩
  | headless _ answer => cases answer
  | refused _ _ _ answer => cases answer
  | @rowless headed fault valid taped missing =>
    cases taped
    rw [valid]
    simp only [missing]
    rcases answer : Receiver.receive receiver (.header (clock :: system.symbols)) with ⟨headed, _ | refusal⟩
    · obtain ⟨offered, count⟩ := offer_accepted answer []
      refine ⟨(congrArg Prod.fst offered).symm, fun refusal refused => ?_, fun _ => ⟨rfl, rfl⟩⟩
      exact absurd (offered ▸ refused) nofun
    · exact Cut.atOnce answer
  | @driven headed ready row course fault? valid taped filled tapedRow drive =>
    cases taped
    cases tapedRow
    have defined := OdeSystem.row_defined filled
    have known := OdeSystem.row_eq defined v.time
    rw [filled] at known
    cases known
    have begun : (integrator.opened system v _).Follows (integrator.orbit system v) Tape.empty 0 :=
      integrator.opened_follows system v rfl
    obtain ⟨rows, delivered, cut⟩ := (Course.drive_cases drive).cut (σ := σ) begun defined
    rw [(integrator.concluded_view course fault?).1, delivered, valid]
    simp only [filled]
    rcases answer : Receiver.receive receiver (.header (clock :: system.symbols)) with ⟨headed, _ | refusal⟩
    · rcases rowAnswer : Receiver.receive headed (.row (v.time :: system.symbols.filterMap v.get?)) with
        ⟨ready, _ | refusal⟩
      · simp only [rowAnswer]
        exact Cut.driven answer rowAnswer (cut ready)
      · simp only [rowAnswer]
        exact Cut.afterHeader answer rowAnswer
    · exact Cut.atOnce answer

/-- Receivers that never refuse all get the same calls and leave the same result and values. -/
theorem run_accepting (accepting : Accepting σ) (integrator : Integrator) (system : OdeSystem) (v : Valuation)
    (receiver : σ) :
    let free := integrator.run system v Tape.empty
    let run := integrator.run system v receiver
    run.receiver = deliverAll receiver (integrator.deliveries system v) ∧ run.result = free.result ∧
      run.valuation = free.valuation := by
  obtain ⟨received, _, whole⟩ := integrator.run_cut system v receiver
  rw [offer_accepting accepting] at received whole
  exact ⟨received, whole rfl⟩

end Integrator

end

end EulerFlow
