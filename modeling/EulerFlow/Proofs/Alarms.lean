import EulerFlow.Proofs.Updates

namespace EulerFlow

/-- The warning that an update calls for, if its value is not finite. -/
def Update.warning? (time : Float) (u : Update) : Option Notice :=
  match u.after.get? u.symbol with
  | some value => if value.isFinite then none else some (.becameNonFinite u.symbol value time)
  | none => none

/-- The warnings that the updates of a step call for, in the order in which they are made. -/
def alarms (t dt : Float) (v : Valuation) (odes : List Ode) : List Notice :=
  (updates 0 t dt v odes).filterMap (Update.warning? (t + dt))

section

variable {t dt : Float} {v : Valuation} {ode : Ode}

theorem updates_cons_of_none (k : Nat) (applied : (ode.apply .propagate t dt v).2 = none) (odes : List Ode) :
    updates k t dt v (ode :: odes) =
      ⟨k, ode.symbol, (ode.apply .propagate t dt v).1⟩ :: updates k t dt (ode.apply .propagate t dt v).1 odes := by
  rw [updates]
  split
  · rename_i after outcome
    rw [outcome]
  · rename_i after fault outcome
    rw [outcome] at applied
    cases applied

theorem updates_cons_of_some (k : Nat) {fault : RunError} (failed : (ode.apply .propagate t dt v).2 = some fault)
    (odes : List Ode) : updates k t dt v (ode :: odes) = [] := by
  rw [updates]
  split
  · rename_i after outcome
    rw [outcome] at failed
    cases failed
  · rfl

/-- Each equation is warned of as it would be on its own, after those before it. -/
theorem alarms_cons_of_none (applied : (ode.apply .propagate t dt v).2 = none) (odes : List Ode) :
    alarms t dt v (ode :: odes) = alarms t dt v [ode] ++ alarms t dt (ode.apply .propagate t dt v).1 odes := by
  unfold alarms
  rw [updates_cons_of_none 0 applied, updates_cons_of_none 0 applied, List.filterMap_cons, List.filterMap_cons]
  split <;> rfl

theorem alarms_cons_of_some {fault : RunError} (failed : (ode.apply .propagate t dt v).2 = some fault)
    (odes : List Ode) : alarms t dt v (ode :: odes) = [] := by
  unfold alarms
  rw [updates_cons_of_some 0 failed, List.filterMap_nil]

/-- An update calls for a warning if and only if what it writes is not finite. -/
theorem alarms_singleton {derivative value : Float} (evaluated : ode.equation.eval v = .ok derivative)
    (found : v.get? ode.symbol = some value) :
    alarms t dt v [ode] = if (value + derivative * dt).isFinite then []
      else [.becameNonFinite ode.symbol (value + derivative * dt) (t + dt)] := by
  have applied : ode.apply .propagate t dt v = (v.set ode.symbol (value + derivative * dt), none) := by
    simp [Ode.apply, evaluated, found]
  rw [alarms, updates_cons_of_none 0 (congrArg Prod.snd applied), applied, List.filterMap_cons]
  simp only [Update.warning?, Valuation.get?_set, if_true]
  cases (value + derivative * dt).isFinite <;> rfl

theorem alarms_level {odes : List Ode} : ∀ notice ∈ alarms t dt v odes, notice.level = .warn := by
  intro notice member
  obtain ⟨u, _, called⟩ := List.mem_filterMap.mp member
  unfold Update.warning? at called
  split at called
  · split at called
    · cases called
    · cases called
      rfl
  · cases called

end

namespace Euler

/-- The number of warnings that a stepper still has to give, at most. -/
def warningsLeft (s : Euler) : Nat :=
  match s.policy, s.warned with
  | .propagate, false => 1
  | _, _ => 0

/-- A stepper that aborts gives no warning, and neither does one that has given it. -/
theorem update_silent {s : Euler} (silent : s.warningsLeft = 0) (v : Valuation) (t dt : Float) (ode : Ode) :
    (s.update v t dt ode).notices = [] ∧ (s.update v t dt ode).stepper = s := by
  obtain ⟨_ | _, _ | _⟩ := s
  · cases silent
  all_goals
    simp only [update, if_true]
    repeat' split
    all_goals exact ⟨rfl, rfl⟩

theorem updates_silent {s : Euler} (silent : s.warningsLeft = 0) (v : Valuation) (t dt : Float) (odes : List Ode) :
    (s.updates v t dt odes).notices = [] ∧ (s.updates v t dt odes).stepper = s := by
  induction odes generalizing v with
  | nil => exact ⟨rfl, rfl⟩
  | cons ode odes ih =>
    obtain ⟨notices, same⟩ := update_silent silent v t dt ode
    cases outcome : (s.update v t dt ode).fault? with
    | some fault =>
      rw [updates_of_fault outcome]
      exact ⟨notices, same⟩
    | none =>
      obtain ⟨others, still⟩ := ih (s.update v t dt ode).valuation
      rw [updates_of_none outcome]
      simp only [notices, same, others, still, List.append_nil, and_self]

theorem eq_fresh_of_warningsLeft {s : Euler} (loud : s.warningsLeft ≠ 0) : s = ⟨.propagate, false⟩ := by
  obtain ⟨_ | _, _ | _⟩ := s
  · rfl
  all_goals exact absurd rfl loud

/-- Of the warnings that some updates call for the stepper has given those that it had left. -/
structure Heeds (s : Euler) (called given : List Notice) (after : Euler) : Prop where
  policy : after.policy = s.policy
  given : given = called.take s.warningsLeft
  left : after.warningsLeft = s.warningsLeft - called.length

theorem Heeds.nil (s : Euler) : s.Heeds [] [] s :=
  ⟨rfl, List.take_nil.symm, rfl⟩

theorem Heeds.append {s middle after : Euler} {called given others further : List Notice}
    (first : s.Heeds called given middle) (second : middle.Heeds others further after) :
    s.Heeds (called ++ others) (given ++ further) after where
  policy := second.policy.trans first.policy
  given := by rw [first.given, second.given, first.left, List.take_append]
  left := by rw [second.left, first.left, List.length_append, Nat.sub_sub]

/-- A stepper with no warning left gives none, whatever is called for. -/
theorem Heeds.of_silent {s : Euler} (silent : s.warningsLeft = 0) (called : List Notice) : s.Heeds called [] s where
  policy := rfl
  given := by rw [silent, List.take_zero]
  left := by rw [silent, Nat.zero_sub]

/-- The stepper gives the warning that an update calls for, if it has one left. -/
theorem update_alarms (s : Euler) (v : Valuation) (t dt : Float) (ode : Ode) :
    s.Heeds (alarms t dt v [ode]) (s.update v t dt ode).notices (s.update v t dt ode).stepper := by
  by_cases silent : s.warningsLeft = 0
  · obtain ⟨notices, same⟩ := update_silent silent v t dt ode
    rw [notices, same]
    exact .of_silent silent _
  · obtain rfl := eq_fresh_of_warningsLeft silent
    unfold update
    cases evaluated : ode.equation.eval v with
    | error cause =>
      have failed : (ode.apply .propagate t dt v).2 = some (.eval ode.symbol t cause) := by
        simp only [Ode.apply, evaluated]
      rw [alarms_cons_of_some failed]
      exact .nil _
    | ok derivative =>
      cases found : v.get? ode.symbol with
      | none =>
        have failed : (ode.apply .propagate t dt v).2 = some (.eval ode.symbol t (.undefinedVariable ode.symbol)) := by
          simp only [Ode.apply, evaluated, found]
        rw [alarms_cons_of_some failed]
        simp only [Valuation.add_undefined (Valuation.get?_eq_none_iff.mp found)]
        exact .nil _
      | some value =>
        rw [alarms_singleton evaluated found]
        simp only [Valuation.add_eq found]
        cases (value + derivative * dt).isFinite with
        | true => exact .nil _
        | false => exact ⟨rfl, rfl, rfl⟩

theorem updates_alarms (s : Euler) (v : Valuation) (t dt : Float) (odes : List Ode) :
    s.Heeds (alarms t dt v odes) (s.updates v t dt odes).notices (s.updates v t dt odes).stepper := by
  cases policy : s.policy with
  -- a stepper that aborts ends where the updates go on, so that no induction compares the two
  | abort =>
    have silent : s.warningsLeft = 0 := by simp only [warningsLeft, policy]
    obtain ⟨notices, same⟩ := updates_silent silent v t dt odes
    rw [notices, same]
    exact .of_silent silent _
  | propagate =>
    induction odes generalizing s v with
    | nil => exact .nil s
    | cons ode odes ih =>
      have first := s.update_alarms v t dt ode
      have same := s.update_apply v t dt ode
      rw [policy] at same
      cases outcome : (s.update v t dt ode).fault? with
      | some fault =>
        have failed : (ode.apply .propagate t dt v).2 = some fault := by rw [← same, outcome]
        rw [alarms_cons_of_some failed] at first ⊢
        rwa [updates_of_fault outcome]
      | none =>
        have applied : (ode.apply .propagate t dt v).2 = none := by rw [← same, outcome]
        rw [alarms_cons_of_none applied, updates_of_none outcome, ← same]
        exact first.append (ih _ _ (first.policy.trans policy))

theorem updates_level (s : Euler) (v : Valuation) (t dt : Float) (odes : List Ode) :
    ∀ notice ∈ (s.updates v t dt odes).notices, notice.level = .warn := by
  intro notice member
  rw [(s.updates_alarms v t dt odes).given] at member
  exact alarms_level notice (List.mem_of_mem_take member)

end Euler

/-- A step that is asked of a stepper. -/
structure StepCall where
  system : OdeSystem
  valuation : Valuation
  time : Float
  dt : Float

namespace StepCall

/-- What a stepper does when it is called so. -/
def answer (call : StepCall) (s : Euler) : Stepped :=
  s.step call.system call.valuation call.time call.dt

/-- The warnings that a step calls for. -/
def alarms (call : StepCall) : List Notice :=
  EulerFlow.alarms call.time call.dt call.valuation call.system.entries

theorem answer_heeds (call : StepCall) (s : Euler) :
    s.Heeds call.alarms (call.answer s).notices (call.answer s).stepper :=
  s.updates_alarms call.valuation call.time call.dt call.system.entries

/-- Steppers of the same policy answer the same, but for their warnings. -/
theorem answer_congr (call : StepCall) {s other : Euler} (same : s.policy = other.policy) :
    ((call.answer s).valuation, (call.answer s).fault?) =
      ((call.answer other).valuation, (call.answer other).fault?) := by
  have swept (s : Euler) : ((call.answer s).valuation, (call.answer s).fault?) = sweep s.policy _ _ _ _ :=
    s.step_sweep call.system call.valuation call.time call.dt
  rw [swept, swept, same]

end StepCall

namespace Euler

/-- Steps one after the other, failed or not, each by the stepper that the one before has left. -/
def steps (s : Euler) : List StepCall → Euler × List Stepped
  | [] => (s, [])
  | call :: calls =>
    let first := call.answer s
    let (after, others) := first.stepper.steps calls
    (after, first :: others)

/-- Over any number of calls a stepper gives the first of the warnings that are called for, as many as it had left. -/
theorem steps_heeds (s : Euler) (calls : List StepCall) :
    s.Heeds (calls.flatMap StepCall.alarms) ((s.steps calls).2.flatMap Stepped.notices) (s.steps calls).1 := by
  induction calls generalizing s with
  | nil => exact .nil s
  | cons call calls ih =>
    rw [List.flatMap_cons]
    exact (call.answer_heeds s).append (ih (call.answer s).stepper)

/-- The answers to a sequence of calls, but for the warnings, are those to each call alone. -/
theorem steps_alone {s fresh : Euler} (same : s.policy = fresh.policy) (calls : List StepCall) :
    (s.steps calls).2.map (fun stepped => (stepped.valuation, stepped.fault?)) =
      calls.map fun call => ((call.answer fresh).valuation, (call.answer fresh).fault?) := by
  induction calls generalizing s with
  | nil => rfl
  | cons call calls ih =>
    have others := ih ((call.answer_heeds s).policy.trans same)
    rw [List.map_cons, ← call.answer_congr same, ← others]
    rfl

end Euler

end EulerFlow
