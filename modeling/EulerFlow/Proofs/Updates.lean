import EulerFlow.Proofs.Orbit

namespace EulerFlow

/-- One update of a run: the step that makes it, the symbol that it moves, and the values right
after it. -/
structure Update where
  step : Nat
  symbol : String
  after : Valuation

/-- The value that was written is not finite. -/
def Update.escapes (u : Update) : Bool :=
  (u.after.get? u.symbol).any fun value => !value.isFinite

/-- The updates that a step makes while it propagates, up to the first equation that cannot be applied. -/
def updates (k : Nat) (t dt : Float) (v : Valuation) : List Ode → List Update
  | [] => []
  | ode :: odes =>
    match ode.apply .propagate t dt v with
    | (after, none) => ⟨k, ode.symbol, after⟩ :: updates k t dt after odes
    | (_, some _) => []

/-- Both policies write the same; an update that escapes is a fault to one of them. -/
theorem Ode.apply_abort (k : Nat) (t dt : Float) (v : Valuation) (ode : Ode) :
    ode.apply .abort t dt v =
      match ode.apply .propagate t dt v with
      | (after, none) =>
        (after, if (Update.mk k ode.symbol after).escapes then some (.nonFinite ode.symbol (t + dt)) else none)
      | (after, some fault) => (after, some fault) := by
  unfold Ode.apply
  cases ode.equation.eval v with
  | error cause => rfl
  | ok derivative =>
    cases v.get? ode.symbol with
    | none => rfl
    | some value => simp [Update.escapes, Valuation.get?_set]

/-- An applied equation gives its symbol a value and leaves all others alone. -/
theorem Ode.apply_get? (policy : NonFinitePolicy) (t dt : Float) (v : Valuation) (ode : Ode) {other : String}
    (differs : other ≠ ode.symbol) : (ode.apply policy t dt v).1.get? other = v.get? other := by
  unfold Ode.apply
  split
  · rfl
  · rfl
  · exact (Valuation.get?_set ..).trans (if_neg differs)

theorem sweep_get? (policy : NonFinitePolicy) (t dt : Float) (v : Valuation) {odes : List Ode} {other : String}
    (differs : other ∉ odes.map Ode.symbol) : (sweep policy t dt v odes).1.get? other = v.get? other := by
  induction odes generalizing v with
  | nil => rfl
  | cons ode odes ih =>
    rw [List.map_cons, List.mem_cons, not_or] at differs
    obtain ⟨first, others⟩ := differs
    have applied := ode.apply_get? policy t dt v first
    unfold sweep
    split
    · rename_i after went
      rw [ih after others, ← applied, went]
    · rename_i after fault failed
      rw [← applied, failed]

/-- A sweep that aborts is one that propagates, ended by the first update that escapes. -/
theorem sweep_abort (k : Nat) (t dt : Float) (v : Valuation) (odes : List Ode) :
    sweep .abort t dt v odes =
      match (updates k t dt v odes).find? Update.escapes with
      | none => sweep .propagate t dt v odes
      | some u => (u.after, some (.nonFinite u.symbol (t + dt))) := by
  induction odes generalizing v with
  | nil => rfl
  | cons ode odes ih =>
    have applied := ode.apply_abort k t dt v
    unfold sweep updates
    rcases went : ode.apply .propagate t dt v with ⟨after, _ | fault⟩
    · simp only [went] at applied
      cases escape : (Update.mk k ode.symbol after).escapes with
      | true => simp [applied, escape]
      | false => simp [applied, escape, ih after]
    · simp only [went] at applied
      simp [applied]

theorem updates_step {k : Nat} {t dt : Float} {v : Valuation} {odes : List Ode} {u : Update}
    (member : u ∈ updates k t dt v odes) : u.step = k := by
  induction odes generalizing v with
  | nil => cases member
  | cons ode odes ih =>
    unfold updates at member
    split at member
    · rcases List.mem_cons.mp member with rfl | later
      · rfl
      · exact ih later
    · cases member

/-- Each update that goes through has left its symbol a finite value, and since no symbol has two
equations no later update of the sweep writes to it again. -/
theorem sweep_finite {t dt : Float} {v : Valuation} {odes : List Ode} (distinct : (odes.map Ode.symbol).Nodup)
    (went : (sweep .abort t dt v odes).2 = none) :
    ∀ symbol ∈ odes.map Ode.symbol,
      ∃ value, (sweep .abort t dt v odes).1.get? symbol = some value ∧ value.isFinite = true := by
  induction odes generalizing v with
  | nil => exact List.forall_mem_nil _
  | cons ode odes ih =>
    rw [List.map_cons, List.nodup_cons] at distinct
    unfold sweep at went ⊢
    cases applied : ode.apply .abort t dt v with
    | mk after fault? =>
      cases fault? with
      | some fault =>
        rw [applied] at went
        cases went
      | none =>
        rw [applied] at went
        have written : ∃ value, after.get? ode.symbol = some value ∧ value.isFinite = true := by
          unfold Ode.apply at applied
          split at applied
          · cases applied
          · cases applied
          · rename_i derivative value _ _
            obtain ⟨rfl, finite⟩ := Prod.mk.inj applied
            exact ⟨value + derivative * dt, (Valuation.get?_set ..).trans (if_pos rfl), by simpa using finite⟩
        refine List.forall_mem_cons.mpr ⟨?_, ih distinct.2 went⟩
        rwa [sweep_get? .abort t dt after distinct.1]

namespace Orbit

/-- The same orbit under another policy. -/
def under (o : Orbit) (policy : NonFinitePolicy) : Orbit :=
  { o with policy := policy }

/-- The updates of the step behind row `k`. -/
def updates (o : Orbit) (k : Nat) : List Update :=
  EulerFlow.updates k (o.time k) o.dt ((o.state k).setTime (o.time k)) o.system.entries

/-- The updates of at most so many steps from the one behind row `k` on, up to the first step that fails. -/
def history (o : Orbit) (k : Nat) : Nat → List Update
  | 0 => []
  | remaining + 1 =>
    o.updates k ++
      match o.fault? k with
      | none => o.history (k + 1) remaining
      | some _ => []

/-- Where the first update that escapes is to be found, if there is one. -/
inductive Escape (o : Orbit) (k remaining : Nat) : Option Update → Prop
  | never : (∀ i, k ≤ i → i < k + remaining → (∀ j, k ≤ j → j < i → o.fault? j = none) →
      (o.updates i).find? Update.escapes = none) → Escape o k remaining none
  | once {u} : k ≤ u.step → u.step < k + remaining → (∀ j, k ≤ j → j < u.step → o.fault? j = none) →
      (∀ i, k ≤ i → i < u.step → (o.updates i).find? Update.escapes = none) →
      (o.updates u.step).find? Update.escapes = some u → Escape o k remaining (some u)

theorem history_escape (o : Orbit) (k remaining : Nat) :
    o.Escape k remaining ((o.history k remaining).find? Update.escapes) := by
  induction remaining generalizing k with
  | zero => exact .never fun i lower upper => by omega
  | succ remaining ih =>
    rw [history, List.find?_append]
    cases here : (o.updates k).find? Update.escapes with
    | some u =>
      have step : u.step = k := updates_step (List.mem_of_find?_eq_some here)
      refine .once (by omega) (by omega) (fun j _ _ => by omega) (fun i _ _ => by omega) ?_
      rwa [step]
    | none =>
      rw [Option.none_or]
      cases outcome : o.fault? k with
      | some fault =>
        refine .never fun i lower _ faultless => ?_
        rcases Nat.eq_or_lt_of_le lower with rfl | later
        · exact here
        · rw [faultless k (Nat.le_refl k) later] at outcome
          cases outcome
      | none =>
        simp only
        have further := ih (k + 1)
        generalize (o.history (k + 1) remaining).find? Update.escapes = found at further
        cases further with
        | never contained =>
          refine .never fun i lower upper faultless => ?_
          rcases Nat.eq_or_lt_of_le lower with rfl | later
          · exact here
          · exact contained i later (by omega) fun j after before => faultless j (by omega) before
        | @once u lower upper faultless contained found =>
          refine .once (by omega) (by omega) (fun j after before => ?_) (fun i after before => ?_) found
          · rcases Nat.eq_or_lt_of_le after with rfl | later
            · exact outcome
            · exact faultless j later before
          · rcases Nat.eq_or_lt_of_le after with rfl | later
            · exact here
            · exact contained i later before

/-- One step under the policy that aborts, from values that the other policy has reached. -/
theorem step_abort (o : Orbit) (k : Nat) :
    (o.under .abort).step k ((o.under .propagate).state k) =
      match ((o.under .propagate).updates k).find? Update.escapes with
      | none => ((o.under .propagate).state (k + 1), (o.under .propagate).fault? k)
      | some u => (u.after, some (.nonFinite u.symbol (o.time k + o.dt))) :=
  sweep_abort k (o.time k) o.dt (((o.under .propagate).state k).setTime (o.time k)) o.system.entries

/-- Up to the first update that escapes both policies lead to the same values. -/
theorem state_abort (o : Orbit) {k : Nat}
    (contained : ∀ i < k, ((o.under .propagate).updates i).find? Update.escapes = none) :
    (o.under .abort).state k = (o.under .propagate).state k := by
  induction k with
  | zero => rfl
  | succ k ih =>
    have same := ih fun i before => contained i (by omega)
    rw [state, same, o.step_abort, contained k (Nat.lt_succ_self k)]

theorem fault?_abort (o : Orbit) {k : Nat}
    (contained : ∀ i < k, ((o.under .propagate).updates i).find? Update.escapes = none) :
    (o.under .abort).fault? k =
      match ((o.under .propagate).updates k).find? Update.escapes with
      | none => (o.under .propagate).fault? k
      | some u => some (.nonFinite u.symbol (o.time k + o.dt)) := by
  rw [fault?, o.state_abort contained, o.step_abort]
  split <;> rfl

end Orbit

end EulerFlow
