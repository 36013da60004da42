import EulerFlow.Proofs.Receivers
import EulerFlow.Proofs.Warnings

namespace EulerFlow

/-- A row that cannot be filled fails for the first symbol without a value, and only such a symbol makes it fail. -/
theorem OdeSystem.row_error_iff {system : OdeSystem} {v : Valuation} {t : Float} {fault : RunError} :
    system.row v t = .error fault ↔ ∃ symbol, system.symbols.find? (· ∉ v.names) = some symbol ∧
      fault = .eval symbol t (.undefinedVariable symbol) := by
  unfold OdeSystem.row OdeSystem.symbols
  generalize system.entries = odes
  induction odes with
  | nil => simp [rowValues, Except.map]
  | cons ode odes ih =>
    rw [List.map_cons, List.find?_cons]
    unfold rowValues Valuation.get
    cases found : v.get? ode.symbol with
    | none =>
      have missing : ode.symbol ∉ v.names := Valuation.get?_eq_none_iff.mp found
      simp [missing, Except.map, eq_comm]
    | some value =>
      have defined : ode.symbol ∈ v.names := Valuation.mem_names_iff.mpr ⟨value, found⟩
      simp only [defined, not_true_eq_false, decide_false]
      rw [← ih]
      cases rowValues v t odes with
      | error other => rfl
      | ok values => exact iff_of_false (fun failed => by cases failed) (fun failed => by cases failed)

theorem OdeSystem.row_missing {system : OdeSystem} {v : Valuation} {symbol : String}
    (missing : system.symbols.find? (· ∉ v.names) = some symbol) (t : Float) :
    system.row v t = .error (.eval symbol t (.undefinedVariable symbol)) :=
  row_error_iff.mpr ⟨symbol, missing, rfl⟩

namespace RunCall

variable {σ : Type} [Receiver σ]

/-- The names of the columns of the run. -/
def header (call : RunCall σ) : Delivery :=
  .header (clock :: call.system.symbols)

/-- The initial row of the run. -/
def row (call : RunCall σ) : Except RunError (List Float) :=
  call.system.row call.valuation call.valuation.time

/-- The receiver accepts the header and the initial row. -/
inductive Opens (settings : Settings) (call : RunCall σ) : Prop
  | accepted {headed ready row} : settings.fault? = none →
      Receiver.receive call.receiver call.header = (headed, none) → call.row = .ok row →
      Receiver.receive headed (.row row) = (ready, none) → Opens settings call

/-- What keeps a run from getting its initial row accepted, with all that it has offered by then: settings that no run
can use, a refused header, the first symbol without a value, or a refused row. -/
inductive Halts (settings : Settings) (call : RunCall σ) : List Delivery → RunError → Prop
  | invalid {fault} : settings.fault? = some fault → Halts settings call [] (.invalidSettings fault)
  | headless {after refusal} : settings.fault? = none →
      Receiver.receive call.receiver call.header = (after, some refusal) →
      Halts settings call [call.header] (.refused refusal)
  | rowless {headed symbol} : settings.fault? = none → Receiver.receive call.receiver call.header = (headed, none) →
      call.system.symbols.find? (· ∉ call.valuation.names) = some symbol →
      Halts settings call [call.header] (.eval symbol call.valuation.time (.undefinedVariable symbol))
  | refused {headed after row refusal} : settings.fault? = none →
      Receiver.receive call.receiver call.header = (headed, none) → call.row = .ok row →
      Receiver.receive headed (.row row) = (after, some refusal) →
      Halts settings call [call.header, .row row] (.refused refusal)

/-- The same run with a record of what it offers. -/
def recorded (call : RunCall σ) : RunCall (Recorder σ) where
  system := call.system
  valuation := call.valuation
  receiver := ⟨call.receiver, []⟩

/-- Everything that the run offers to its receiver, accepted or not. -/
def offered (call : RunCall σ) (integrator : Integrator) : List Delivery :=
  (call.recorded.answer integrator).receiver.offered

variable {settings : Settings} {integrator : Integrator} {call : RunCall σ} {ds : List Delivery} {fault : RunError}

theorem opens_or_halts (settings : Settings) (call : RunCall σ) :
    call.Opens settings ∨ ∃ ds fault, call.Halts settings ds fault := by
  cases valid : settings.fault? with
  | some fault => exact .inr ⟨_, _, .invalid valid⟩
  | none =>
    rcases answer : Receiver.receive call.receiver call.header with ⟨headed, _ | refusal⟩
    · cases filled : call.row with
      | error fault =>
        obtain ⟨symbol, missing, _⟩ := OdeSystem.row_error_iff.mp filled
        exact .inr ⟨_, _, .rowless valid answer missing⟩
      | ok row =>
        rcases rowAnswer : Receiver.receive headed (.row row) with ⟨ready, _ | refusal⟩
        · exact .inl (.accepted valid answer filled rowAnswer)
        · exact .inr ⟨_, _, .refused valid answer filled rowAnswer⟩
    · exact .inr ⟨_, _, .headless valid answer⟩

theorem Halts.not_opens (halts : call.Halts settings ds fault) : ¬call.Opens settings := by
  rintro ⟨valid, answer, filled, rowAnswer⟩
  cases halts with
  | invalid invalid => cases valid.symm.trans invalid
  | headless _ refused => cases answer.symm.trans refused
  | rowless _ _ missing => cases filled.symm.trans (OdeSystem.row_missing missing _)
  | refused _ answer' filled' refused =>
    cases answer.symm.trans answer'
    cases filled.symm.trans filled'
    cases rowAnswer.symm.trans refused

/-- However a run goes on behind its initial row, it ends the idle phase. -/
theorem Opens.answer (opens : call.Opens integrator.settings) :
    (call.answer integrator).integrator.phase = .done := by
  obtain ⟨valid, answer, filled, rowAnswer⟩ := opens
  rw [header] at answer
  rw [row] at filled
  have concluded (course : Course σ) (fault? : Option RunError) :
      (integrator.concluded course fault?).integrator.phase = .done := by cases fault? <;> rfl
  rw [RunCall.answer, Integrator.run_eq]
  simp only [valid, answer, filled, rowAnswer]
  exact concluded ..

/-- A run that halts is rejected, and its receiver is left with what was offered. -/
theorem Halts.answer (halts : call.Halts integrator.settings ds fault) :
    call.answer integrator = integrator.rejected call.valuation (deliverAll call.receiver ds) fault := by
  rw [RunCall.answer, Integrator.run_eq]
  cases halts with
  | invalid invalid =>
    rw [invalid]
    rfl
  | headless valid answer =>
    rw [deliverAll, List.foldl_cons, List.foldl_nil, answer]
    rw [header] at answer
    simp only [valid, answer]
  | rowless valid answer missing =>
    rw [deliverAll, List.foldl_cons, List.foldl_nil, answer]
    rw [header] at answer
    simp only [valid, answer, OdeSystem.row_missing missing]
  | refused valid answer filled rowAnswer =>
    rw [deliverAll, List.foldl_cons, List.foldl_cons, List.foldl_nil, answer, rowAnswer]
    rw [header] at answer
    rw [row] at filled
    simp only [valid, answer, filled, rowAnswer]

theorem Halts.recorded (halts : call.Halts settings ds fault) : call.recorded.Halts settings ds fault := by
  have answered {receiver after : σ} {d : Delivery} {refusal? : Option Refusal} (before : List Delivery)
      (answer : Receiver.receive receiver d = (after, refusal?)) :
      Receiver.receive (⟨receiver, before⟩ : Recorder σ) d = (⟨after, before ++ [d]⟩, refusal?) := by
    change ((⟨(Receiver.receive receiver d).1, before ++ [d]⟩ : Recorder σ), (Receiver.receive receiver d).2) = _
    rw [answer]
  cases halts with
  | invalid invalid => exact .invalid invalid
  | headless valid answer => exact .headless valid (answered [] answer)
  | rowless valid answer missing => exact .rowless valid (answered [] answer) missing
  | refused valid answer filled rowAnswer =>
    exact .refused valid (answered [] answer) filled (answered _ rowAnswer)

theorem Halts.offered (halts : call.Halts integrator.settings ds fault) : call.offered integrator = ds := by
  rw [RunCall.offered, halts.recorded.answer]
  exact Recorder.deliverAll_offered ..

end RunCall

/-- A run that is asked of an integrator, into a receiver of any kind. -/
structure AnyRun : Type 1 where
  State : Type
  receiving : Receiver State
  call : RunCall State

attribute [instance] AnyRun.receiving

namespace Integrator

/-- What runs one after the other, failed or not, leave of an integrator. -/
def after (integrator : Integrator) : List AnyRun → Integrator
  | [] => integrator
  | run :: runs => (run.call.answer integrator).integrator.after runs

/-- One run either ends the idle phase or leaves the integrator as it was. -/
theorem answer_phase {σ : Type} [Receiver σ] (integrator : Integrator) (call : RunCall σ) :
    let after := (call.answer integrator).integrator
    (call.Opens integrator.settings ∧ after.phase = .done) ∨ (¬call.Opens integrator.settings ∧ after = integrator) := by
  rcases call.opens_or_halts integrator.settings with opens | ⟨ds, fault, halts⟩
  · exact .inl ⟨opens, opens.answer⟩
  · exact .inr ⟨halts.not_opens, congrArg Run.integrator halts.answer⟩

theorem after_settings (integrator : Integrator) (runs : List AnyRun) :
    (integrator.after runs).settings = integrator.settings := by
  induction runs generalizing integrator with
  | nil => rfl
  | cons run runs ih => exact (ih _).trans (run.call.answer_settings integrator)

theorem after_done {integrator : Integrator} (done : integrator.phase = .done) (runs : List AnyRun) :
    (integrator.after runs).phase = .done := by
  induction runs generalizing integrator with
  | nil => exact done
  | cons run runs ih =>
    rcases integrator.answer_phase run.call with ⟨_, still⟩ | ⟨_, same⟩
    · exact ih still
    · exact ih ((congrArg Integrator.phase same).trans done)

/-- The first run that opens decides on the phase for good; up to it nothing changes. -/
theorem after_cases (integrator : Integrator) (runs : List AnyRun) :
    ((∃ run ∈ runs, run.call.Opens integrator.settings) ∧ (integrator.after runs).phase = .done) ∨
      ((∀ run ∈ runs, ¬run.call.Opens integrator.settings) ∧ integrator.after runs = integrator) := by
  induction runs with
  | nil => exact .inr ⟨List.forall_mem_nil _, rfl⟩
  | cons run runs ih =>
    rcases integrator.answer_phase run.call with ⟨opens, done⟩ | ⟨closed, same⟩
    · exact .inl ⟨⟨run, List.mem_cons_self .., opens⟩, after_done done runs⟩
    · rw [after, same]
      rcases ih with ⟨⟨other, member, opens⟩, done⟩ | ⟨others, unchanged⟩
      · exact .inl ⟨⟨other, List.mem_cons_of_mem _ member, opens⟩, done⟩
      · exact .inr ⟨List.forall_mem_cons.mpr ⟨closed, others⟩, unchanged⟩

end Integrator

/-- Between its runs an integrator is idle until the first of them that gets its initial row accepted, and done ever
after. A run that does not come so far leaves integrator and values as they were, and has offered its receiver nothing
behind the delivery at which it ended; with settings that no run can use it has offered nothing. -/
theorem phase_from_initial_rows (settings : Settings) (stepper : Euler) (runs : List AnyRun) :
    let fresh : Integrator := ⟨settings, stepper, .idle⟩
    let integrator := fresh.after runs
    (integrator.phase = .idle ↔ ∀ run ∈ runs, ¬run.call.Opens settings) ∧
      (integrator.phase = .done ↔ ∃ run ∈ runs, run.call.Opens settings) ∧
      integrator.phase ≠ .running ∧
      ((∀ run ∈ runs, ¬run.call.Opens settings) → integrator = fresh) ∧
      ∀ run : AnyRun, (run.call.Opens settings ∨ ∃ ds fault, run.call.Halts settings ds fault) ∧
        ∀ ds fault, run.call.Halts settings ds fault →
          ¬run.call.Opens settings ∧ run.call.offered integrator = ds ∧ run.call.answer integrator =
            ⟨integrator, run.call.valuation, deliverAll run.call.receiver ds, [], .error fault⟩ := by
  intro fresh integrator
  have kept : integrator.settings = settings := fresh.after_settings runs
  have further (run : AnyRun) : (run.call.Opens settings ∨ ∃ ds fault, run.call.Halts settings ds fault) ∧
      ∀ ds fault, run.call.Halts settings ds fault →
        ¬run.call.Opens settings ∧ run.call.offered integrator = ds ∧ run.call.answer integrator =
          integrator.rejected run.call.valuation (deliverAll run.call.receiver ds) fault := by
    refine ⟨run.call.opens_or_halts settings, fun ds fault halts => ⟨halts.not_opens, ?_⟩⟩
    rw [← kept] at halts
    exact ⟨halts.offered, halts.answer⟩
  rcases fresh.after_cases runs with ⟨opened, done⟩ | ⟨closed, same⟩
  · have some_opens : ¬∀ run ∈ runs, ¬run.call.Opens settings := by
      obtain ⟨run, member, opens⟩ := opened
      exact fun closed => closed run member opens
    have done : integrator.phase = .done := done
    rw [done]
    exact ⟨⟨nofun, (absurd · some_opens)⟩, ⟨fun _ => opened, fun _ => rfl⟩, nofun, (absurd · some_opens), further⟩
  · have none_opens : ¬∃ run ∈ runs, run.call.Opens settings := by
      rintro ⟨run, member, opens⟩
      exact closed run member opens
    have idle : integrator.phase = .idle := congrArg Integrator.phase same
    rw [idle]
    exact ⟨⟨fun _ => closed, fun _ => rfl⟩, ⟨nofun, (absurd · none_opens)⟩, nofun, fun _ => same, further⟩

end EulerFlow
