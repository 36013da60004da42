import EulerFlow.Proofs.Faults
import EulerFlow.Proofs.Recorder
import EulerFlow.Proofs.Tape
import Mathlib.Data.List.Nodup
import Mathlib.Logic.Equiv.Basic

namespace EulerFlow

/-- Other names for the variables. No two names fall together, and the clock keeps its own. -/
structure Renaming where
  rename : String → String
  injective : Function.Injective rename
  clock_fixed : rename clock = clock

instance : CoeFun Renaming fun _ => String → String :=
  ⟨Renaming.rename⟩

namespace Renaming

variable (r : Renaming)

/-- To be the same name is not changed by a renaming, and with it no test of names by the program. -/
theorem apply_eq_iff {a b : String} : r a = r b ↔ a = b :=
  r.injective.eq_iff

theorem mem_map_iff {name : String} {names : List String} : r name ∈ names.map r ↔ name ∈ names :=
  List.mem_map_of_injective r.injective

/-- Two names, neither of them that of the clock, change places. -/
def swap (a b : String) (notClock : a ≠ clock) (notClock' : b ≠ clock) : Renaming where
  rename := Equiv.swap a b
  injective := (Equiv.swap a b).injective
  clock_fixed := Equiv.swap_apply_of_ne_of_ne notClock.symm notClock'.symm

end Renaming

mutual

/-- Variables get their other names. Operators and functions have names of their own kind. -/
def Expr.rename (r : Renaming) : Expr → Expr
  | .constant value => .constant value
  | .symbol name => .symbol (r name)
  | .binary left op right => .binary (left.rename r) op (right.rename r)
  | .unary op operand => .unary op (operand.rename r)
  | .call name args => .call name (Expr.renameAll r args)

/-- Several expressions under other names. -/
def Expr.renameAll (r : Renaming) : List Expr → List Expr
  | [] => []
  | arg :: args => arg.rename r :: Expr.renameAll r args

end

/-- The equation of the renamed symbol. -/
def Ode.rename (r : Renaming) (ode : Ode) : Ode :=
  ⟨r ode.symbol, ode.equation.rename r⟩

theorem Ode.map_symbol_rename (r : Renaming) (odes : List Ode) :
    (odes.map (Ode.rename r)).map Ode.symbol = (odes.map Ode.symbol).map r := by
  rw [List.map_map, List.map_map]
  rfl

/-- The equations in the same order. Different symbols keep different names, because a renaming is injective. -/
def OdeSystem.rename (r : Renaming) (system : OdeSystem) : OdeSystem where
  entries := system.entries.map (Ode.rename r)
  distinct := by
    rw [Ode.map_symbol_rename]
    exact system.distinct.map r.injective

theorem Valuation.map_fst_rename (r : Renaming) (es : List (String × Float)) :
    (es.map fun e => (r e.1, e.2)).map Prod.fst = (es.map Prod.fst).map r := by
  rw [List.map_map, List.map_map]
  rfl

/-- The same values under other names. The clock is still there, because a renaming leaves it alone. -/
def Valuation.rename (r : Renaming) (v : Valuation) : Valuation where
  entries := v.entries.map fun e => (r e.1, e.2)
  distinct := by
    rw [map_fst_rename]
    exact v.distinct.map r.injective
  clocked := by
    rw [map_fst_rename, ← r.clock_fixed]
    exact List.mem_map_of_mem v.clocked

/-- The error, with the variable under its other name. Operators and functions are not renamed. -/
def EvalError.rename (r : Renaming) : EvalError → EvalError
  | .undefinedVariable name => .undefinedVariable (r name)
  | fault => fault

/-- The error with its symbol under the other name. -/
def RunError.rename (r : Renaming) : RunError → RunError
  | .eval symbol time cause => .eval (r symbol) time (cause.rename r)
  | .nonFinite symbol time => .nonFinite (r symbol) time
  | fault => fault

/-- The header under other names. A row has no names. -/
def Delivery.rename (r : Renaming) : Delivery → Delivery
  | .header columns => .header (columns.map r)
  | .row values => .row values

/-- Of what a model and its runs put on record, only the dimension, times and rows name no variable. -/
def Notice.rename (r : Renaming) : Notice → Notice
  | .declared name => .declared (r name)
  | .registered symbol equation => .registered (r symbol) (equation.rename r)
  | .becameNonFinite symbol value time => .becameNonFinite (r symbol) value time
  | notice => notice

namespace Valuation

variable (r : Renaming) (v : Valuation)

theorem eq_of_entries {v w : Valuation} (same : v.entries = w.entries) : v = w := by
  cases v
  cases w
  cases same
  rfl

theorem names_rename : (v.rename r).names = v.names.map r :=
  map_fst_rename r v.entries

/-- A name has the value under its other name that it had before. -/
@[simp] theorem get?_rename (name : String) : (v.rename r).get? (r name) = v.get? name := by
  change (v.entries.map fun e => (r e.1, e.2)).lookup (r name) = v.entries.lookup name
  induction v.entries with
  | nil => rfl
  | cons e es ih =>
    have here : (r name == r e.1) = (name == e.1) := by
      rw [Bool.eq_iff_iff, beq_iff_eq, beq_iff_eq, r.apply_eq_iff]
    rw [List.map_cons, List.lookup_cons, List.lookup_cons, ih, here]

@[simp] theorem time_rename : (v.rename r).time = v.time := by
  rw [time, time, ← get?_rename r v clock, r.clock_fixed]

theorem get_rename (name : String) : (v.rename r).get (r name) = (v.get name).mapError (EvalError.rename r) := by
  rw [get, get, get?_rename]
  cases v.get? name <;> rfl

theorem overwrite_rename (name : String) (value : Float) :
    (v.rename r).overwrite (r name) value = (v.overwrite name value).rename r := by
  refine eq_of_entries ?_
  simp only [overwrite, rename, List.map_map]
  refine List.map_congr_left fun e _ => ?_
  simp only [Function.comp_apply, r.apply_eq_iff]

/-- Whether a name is defined already is told the same way under other names. -/
theorem set_rename (name : String) (value : Float) :
    (v.rename r).set (r name) value = (v.set name value).rename r := by
  by_cases defined : name ∈ v.names
  · have renamed : r name ∈ (v.rename r).names := by rwa [names_rename, r.mem_map_iff]
    rw [set_eq_overwrite defined, set_eq_overwrite renamed, overwrite_rename]
  · have renamed : r name ∉ (v.rename r).names := by rwa [names_rename, r.mem_map_iff]
    refine eq_of_entries ?_
    rw [set, set, dif_pos renamed, dif_pos defined]
    simp only [define, rename, List.map_append, List.map_cons, List.map_nil]

@[simp] theorem setTime_rename (t : Float) : (v.rename r).setTime t = (v.setTime t).rename r := by
  rw [setTime, setTime, ← set_rename, r.clock_fixed]

/-- The name that is added to may be missing: then the other name is. -/
theorem add_rename (name : String) (delta : Float) :
    (v.rename r).add (r name) delta =
      match v.add name delta with
      | .ok (moved, value) => .ok (moved.rename r, value)
      | .error cause => .error (cause.rename r) := by
  unfold add
  rw [get?_rename]
  cases v.get? name with
  | none => rfl
  | some value => simp only [overwrite_rename]

end Valuation

theorem Expr.length_renameAll (r : Renaming) (args : List Expr) : (Expr.renameAll r args).length = args.length := by
  induction args with
  | nil => rfl
  | cons arg args ih => rw [renameAll, List.length_cons, List.length_cons, ih]

/-- A renamed expression has the value of the expression, and where it has none, the cause is the same
but for the name of an undefined variable. -/
theorem Expr.eval_rename (r : Renaming) (v : Valuation) (e : Expr) :
    (e.rename r).eval (v.rename r) = (e.eval v).mapError (EvalError.rename r) := by
  fun_induction Expr.eval v e with
  | case1 value => rfl
  | case2 name => exact v.get_rename r name
  | case3 left op right fault failed ih => rw [rename, eval, ih, failed]; rfl
  | case4 left op right a found fault failed ihLeft ih => rw [rename, eval, ihLeft, found, ih, failed]; rfl
  | case5 left op right a foundLeft b found known named ihLeft ih =>
    rw [rename, eval, ihLeft, foundLeft, ih, found]
    simp only [Except.mapError, named]
  | case6 left op right a foundLeft b found unknown ihLeft ih =>
    rw [rename, eval, ihLeft, foundLeft, ih, found]
    simp only [Except.mapError, unknown, EvalError.rename]
  | case7 op operand fault failed ih => rw [rename, eval, ih, failed]; rfl
  | case8 op operand a found known named ih =>
    rw [rename, eval, ih, found]
    simp only [Except.mapError, named]
  | case9 op operand a found unknown ih =>
    rw [rename, eval, ih, found]
    simp only [Except.mapError, unknown, EvalError.rename]
  | case10 name args unknown =>
    rw [rename, eval]
    simp only [unknown, Except.mapError, EvalError.rename]
  | case11 name known named arg fault failed ih =>
    rw [rename, eval]
    simp only [named, renameAll, ih, failed, Except.mapError]
  | case12 name known named arg a found ih =>
    rw [rename, eval]
    simp only [named, renameAll, ih, found, Except.mapError]
  | case13 name args known named other =>
    rw [rename, eval]
    simp only [named]
    cases args with
    | nil => rfl
    | cons first others =>
      cases others with
      | nil => exact absurd rfl (other first)
      | cons second others =>
        simp only [renameAll, Except.mapError, EvalError.rename, List.length_cons, length_renameAll]

section

variable (r : Renaming)

/-- What a step leaves, under other names. -/
def Stepped.rename (stepped : Stepped) : Stepped where
  stepper := stepped.stepper
  valuation := stepped.valuation.rename r
  notices := stepped.notices.map (Notice.rename r)
  fault? := stepped.fault?.map (RunError.rename r)

namespace Euler

/-- The update of a renamed equation does the same to the renamed valuation, down to its fault and its notices. -/
theorem update_rename (s : Euler) (v : Valuation) (t dt : Float) (ode : Ode) :
    s.update (v.rename r) t dt (ode.rename r) = (s.update v t dt ode).rename r := by
  unfold update
  rw [Ode.rename, Expr.eval_rename]
  cases ode.equation.eval v with
  | error cause => rfl
  | ok derivative =>
    simp only [Except.mapError, Valuation.add_rename]
    cases v.add ode.symbol (derivative * dt) with
    | error cause => rfl
    | ok moved =>
      obtain ⟨after, value⟩ := moved
      simp only
      cases value.isFinite with
      | true => rfl
      | false =>
        cases s.policy with
        | abort => rfl
        | propagate => cases s.warned <;> rfl

theorem updates_rename (s : Euler) (v : Valuation) (t dt : Float) (odes : List Ode) :
    s.updates (v.rename r) t dt (odes.map (Ode.rename r)) = (s.updates v t dt odes).rename r := by
  induction odes generalizing s v with
  | nil => rfl
  | cons ode odes ih =>
    rw [List.map_cons]
    cases outcome : (s.update v t dt ode).fault? with
    | some fault =>
      have failed : (s.update (v.rename r) t dt (ode.rename r)).fault? = some (fault.rename r) := by
        rw [update_rename, Stepped.rename, outcome, Option.map_some]
      rw [updates_of_fault outcome, updates_of_fault failed, update_rename]
    | none =>
      have applied : (s.update (v.rename r) t dt (ode.rename r)).fault? = none := by
        rw [update_rename, Stepped.rename, outcome, Option.map_none]
      rw [updates_of_none outcome, updates_of_none applied, update_rename]
      simp only [Stepped.rename, ih, List.map_append]

end Euler

theorem rowValues_rename (v : Valuation) (t : Float) (odes : List Ode) :
    rowValues (v.rename r) t (odes.map (Ode.rename r)) = (rowValues v t odes).mapError (RunError.rename r) := by
  induction odes with
  | nil => rfl
  | cons ode odes ih =>
    rw [List.map_cons, rowValues, rowValues, Ode.rename, Valuation.get_rename, ih]
    cases v.get ode.symbol with
    | error cause => rfl
    | ok value => cases rowValues v t odes <;> rfl

theorem OdeSystem.row_rename (system : OdeSystem) (v : Valuation) (t : Float) :
    (system.rename r).row (v.rename r) t = (system.row v t).mapError (RunError.rename r) := by
  rw [row, row, OdeSystem.rename, rowValues_rename]
  cases rowValues v t system.entries <;> rfl

theorem OdeSystem.header_rename (system : OdeSystem) :
    Delivery.header (clock :: (system.rename r).symbols) =
      (Delivery.header (clock :: system.symbols)).rename r := by
  rw [Delivery.rename, List.map_cons, r.clock_fixed, symbols, symbols, OdeSystem.rename, Ode.map_symbol_rename]

/-- A receiver that is shown the columns under their other names. -/
structure Renamed (r : Renaming) (σ : Type) where
  receiver : σ

variable {σ : Type}

instance [Receiver σ] : Receiver (Renamed r σ) where
  receive renamed d :=
    let (receiver, refusal?) := Receiver.receive renamed.receiver (d.rename r)
    (⟨receiver⟩, refusal?)

namespace Course

variable {r}

/-- The course of a run under other names. -/
def rename (c : Course (Renamed r σ)) : Course σ where
  stepper := c.stepper
  valuation := c.valuation.rename r
  receiver := c.receiver.receiver
  notices := c.notices.map (Notice.rename r)
  steps := c.steps
  time := c.time

variable (system : OdeSystem) (start dt : Float) (c : Course (Renamed r σ)) (receiver : Renamed r σ)

/-- A step under other names is the step, under other names. -/
theorem stepped_rename : c.rename.stepped (system.rename r) dt = (c.stepped system dt).rename r := by
  rw [stepped, rename, Valuation.setTime_rename]
  exact Euler.updates_rename r c.stepper _ c.time dt system.entries

theorem notices_rename :
    c.rename.notices ++ (c.rename.stepped (system.rename r) dt).notices =
      (c.notices ++ (c.stepped system dt).notices).map (Notice.rename r) := by
  rw [stepped_rename, ← Array.toList_inj]
  simp only [rename, Stepped.rename, Array.toList_appendList, Array.toList_map, List.map_append]

theorem stopped_rename :
    c.rename.stopped (system.rename r) dt receiver.receiver = (c.stopped system dt receiver).rename := by
  rw [stopped, notices_rename, stepped_rename]
  rfl

theorem moved_rename (row : List Float) :
    c.rename.moved (system.rename r) start dt receiver.receiver row =
      (c.moved system start dt receiver row).rename := by
  rw [moved, notices_rename, stepped_rename, Stepped.rename, Valuation.setTime_rename]
  simp only [rename, moved, Array.map_push, Notice.rename]
  rfl

variable [Receiver σ]

/-- One step of a run, into a receiver that hears other names. -/
theorem advance_rename :
    c.rename.advance (system.rename r) start dt =
      ((c.advance system start dt).1.rename, (c.advance system start dt).2.map (RunError.rename r)) := by
  rw [advance_eq, advance_eq, stepped_rename]
  simp only [Stepped.rename, OdeSystem.row_rename]
  cases (c.stepped system dt).fault? with
  | some fault => exact Prod.ext (stopped_rename system dt c c.receiver) rfl
  | none =>
    simp only [Option.map_none, show c.rename.next start dt = c.next start dt from rfl]
    cases system.row (c.stepped system dt).valuation (c.next start dt) with
    | error fault => exact Prod.ext (stopped_rename system dt c c.receiver) rfl
    | ok row =>
      have answers : Receiver.receive c.receiver (.row row) =
        (⟨(Receiver.receive c.rename.receiver (.row row)).1⟩, (Receiver.receive c.rename.receiver (.row row)).2) := rfl
      simp only [Except.mapError, answers]
      rcases Receiver.receive c.rename.receiver (.row row) with ⟨after, _ | refusal⟩
      · exact Prod.ext (moved_rename system start dt c ⟨after⟩ row) rfl
      · exact Prod.ext (stopped_rename system dt c ⟨after⟩) rfl

/-- All the steps that remain of a run, into a receiver that hears other names. -/
theorem drive_rename (remaining : Nat) :
    c.rename.drive (system.rename r) start dt remaining =
      ((c.drive system start dt remaining).1.rename,
        (c.drive system start dt remaining).2.map (RunError.rename r)) := by
  induction remaining generalizing c with
  | zero => rfl
  | succ remaining ih =>
    rw [drive, drive, advance_rename]
    rcases c.advance system start dt with ⟨after, _ | fault⟩
    · exact ih after
    · rfl

end Course

variable {r} in
/-- What a run leaves, under other names. -/
def Run.rename (run : Run (Renamed r σ)) : Run σ where
  integrator := run.integrator
  valuation := run.valuation.rename r
  receiver := run.receiver.receiver
  notices := run.notices.map (Notice.rename r)
  result := run.result.mapError (RunError.rename r)

namespace Integrator

variable (integrator : Integrator) (system : OdeSystem) (v : Valuation)

theorem opened_rename (ready : Renamed r σ) :
    integrator.opened (system.rename r) (v.rename r) ready.receiver = (integrator.opened system v ready).rename := by
  have dimension : (system.rename r).dimension = system.dimension := List.length_map ..
  rw [opened, dimension, Valuation.time_rename]
  simp only [Course.rename, opened, List.map_toArray, List.map_cons, List.map_nil, Notice.rename]

theorem total_rename : integrator.total (v.rename r) = integrator.total v := by
  rw [total, total, Valuation.time_rename]

theorem concluded_rename (course : Course (Renamed r σ)) (fault? : Option RunError) :
    integrator.concluded course.rename (fault?.map (RunError.rename r)) = (integrator.concluded course fault?).rename := by
  cases fault? <;>
    simp only [concluded, Run.rename, Course.rename, Option.map_some, Option.map_none, Array.toList_map,
      List.map_append, List.map_cons, List.map_nil, Notice.rename, Except.mapError]

variable [Receiver σ]

/-- A run with other names is the run, told with other names. -/
theorem run_rename (receiver : σ) :
    integrator.run (system.rename r) (v.rename r) receiver =
      (integrator.run system v (⟨receiver⟩ : Renamed r σ)).rename := by
  have answers (receiver : σ) (d : Delivery) : Receiver.receive (⟨receiver⟩ : Renamed r σ) d =
    (⟨(Receiver.receive receiver (d.rename r)).1⟩, (Receiver.receive receiver (d.rename r)).2) := rfl
  rw [run_eq, run_eq]
  cases integrator.settings.fault? with
  | some fault => rfl
  | none =>
    simp only [answers, system.header_rename r]
    rcases Receiver.receive receiver ((Delivery.header (clock :: system.symbols)).rename r) with
      ⟨headed, _ | refusal⟩
    · simp only [Valuation.time_rename, OdeSystem.row_rename]
      cases system.row v v.time with
      | error fault => rfl
      | ok row =>
        simp only [Except.mapError, Delivery.rename]
        rcases Receiver.receive headed (.row row) with ⟨ready, _ | refusal⟩
        · have opened := opened_rename r integrator system v (⟨ready⟩ : Renamed r σ)
          simp only at opened
          simp only [opened, total_rename, Course.drive_rename]
          exact concluded_rename r integrator _ _
        · rfl
    · rfl

end Integrator

/-- What a recorder saw, and what is behind it, under the other names. -/
def Recorder.rename (recorder : Recorder (Renamed r σ)) : Renamed r (Recorder σ) :=
  ⟨⟨recorder.receiver.receiver, recorder.offered.map (Delivery.rename r)⟩⟩

variable [Receiver σ]

/-- A receiver behind a renaming hears what one before it would, under other names. -/
theorem Recorder.rename_mirrors : Mirrors (Recorder.rename r : Recorder (Renamed r σ) → Renamed r (Recorder σ)) := by
  intro recorder d
  have recorded : (recorder.offered ++ [d]).map (Delivery.rename r) =
      recorder.offered.map (Delivery.rename r) ++ [d.rename r] := List.map_append
  refine Prod.ext (congrArg Renamed.mk ?_) rfl
  exact congrArg (Recorder.mk _) recorded.symm

/-- All that was delivered, under other names. -/
def Tape.rename (tape : Tape) : Renamed r Tape :=
  ⟨⟨tape.deliveries.map (Delivery.rename r)⟩⟩

theorem Tape.rename_mirrors : Mirrors (Tape.rename r) := by
  intro tape d
  have recorded : (tape.deliveries ++ [d]).map (Delivery.rename r) =
      tape.deliveries.map (Delivery.rename r) ++ [d.rename r] := List.map_append
  exact Prod.ext (congrArg (fun ds => Renamed.mk (Tape.mk ds)) recorded.symm) rfl

theorem Integrator.deliveries_rename (integrator : Integrator) (system : OdeSystem) (v : Valuation) :
    integrator.deliveries (system.rename r) (v.rename r) =
      (integrator.deliveries system v).map (Delivery.rename r) := by
  have viewed := integrator.run_view (Tape.rename_mirrors r) system v Tape.empty
  rw [deliveries, run_rename]
  exact congrArg (fun run => run.receiver.receiver.deliveries) viewed

/-- Names are only names, but for that of the clock. If the symbols of a system, the variables in its equations
and the names in the valuation are renamed, a run makes the same calls with the columns renamed, ends in the same
way up to the names in its error, and leaves the renamed valuation. Any two names but that of the clock can change
places in such a renaming, so no symbol is special for being spelled like a function or an operator. -/
theorem run_commutes_with_renaming (r : Renaming) (integrator : Integrator) (system : OdeSystem) (v : Valuation)
    (receiver : σ) :
    let run := integrator.run system v (⟨receiver⟩ : Renamed r σ)
    let renamed := integrator.run (system.rename r) (v.rename r) receiver
    integrator.deliveries (system.rename r) (v.rename r) =
        (integrator.deliveries system v).map (Delivery.rename r) ∧
      (integrator.run (system.rename r) (v.rename r) (⟨receiver, []⟩ : Recorder σ)).receiver.offered =
        (integrator.run system v (⟨⟨receiver⟩, []⟩ : Recorder (Renamed r σ))).receiver.offered.map
          (Delivery.rename r) ∧
      renamed.receiver = run.receiver.receiver ∧ renamed.result = run.result.mapError (RunError.rename r) ∧
      renamed.valuation = run.valuation.rename r ∧ renamed.notices = run.notices.map (Notice.rename r) ∧
      ∀ a b, a ≠ clock → b ≠ clock → ∃ exchange : Renaming, exchange a = b ∧ exchange b = a ∧
        ∀ other, other ≠ a → other ≠ b → exchange other = other := by
  intro run renamed
  have whole : renamed = run.rename := integrator.run_rename r system v receiver
  refine ⟨integrator.deliveries_rename r system v, ?_, congrArg Run.receiver whole, congrArg Run.result whole,
    congrArg Run.valuation whole, congrArg Run.notices whole, fun a b notClock notClock' => ?_⟩
  · have viewed := integrator.run_view (Recorder.rename_mirrors r) system v (⟨⟨receiver⟩, []⟩ : Recorder (Renamed r σ))
    rw [Integrator.run_rename]
    exact congrArg (fun run => run.receiver.receiver.offered) viewed
  · refine ⟨.swap a b notClock notClock', Equiv.swap_apply_left a b, Equiv.swap_apply_right a b, ?_⟩
    intro other notA notB
    exact Equiv.swap_apply_of_ne_of_ne notA notB

/-- A variable may well have the name of the function that is applied to it. -/
example : (Expr.call "sin" [.symbol "y"]).rename (.swap "y" "sin" (by decide) (by decide)) =
    .call "sin" [.symbol "sin"] := rfl

end

end EulerFlow
