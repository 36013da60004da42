import EulerFlow.CommandLine
import EulerFlow.Proofs.Receivers
import EulerFlow.Proofs.SetUp

namespace EulerFlow

/-- The text of the table that a run delivers. A run that may not start delivers none. -/
def Model.printed (m : Model) : String :=
  if m.settings.fault? = none then render (m.run Trajectory.empty).2.receiver.deliveries else ""

/-- A text table without bounds shows what a trajectory receives, and refuses nothing. -/
theorem Model.execute_printed (m : Model) :
    (m.execute none).2.receiver.kept = m.printed ∧ (m.execute none).2.result = (m.run Trajectory.empty).2.result := by
  let integrator := Integrator.euler m.settings
  change (integrator.run m.system m.valuation (TextTable.empty none)).receiver.kept = m.printed ∧
    (integrator.run m.system m.valuation (TextTable.empty none)).result =
      (integrator.run m.system m.valuation Trajectory.empty).result
  cases valid : m.settings.fault? with
  | some fault =>
    have invalid : integrator.settings.fault? = some fault := valid
    rw [printed, valid, if_neg nofun, Integrator.run_eq, Integrator.run_eq, invalid]
    exact ⟨rfl, rfl⟩
  | none =>
    have whole : refusal? none (octets (render (integrator.deliveries m.system m.valuation))) = none := rfl
    obtain ⟨_, kept, ends⟩ := integrator.run_table m.system m.valuation none
    obtain ⟨_, result, _⟩ := integrator.run_accepting (fun _ _ => rfl) m.system m.valuation Trajectory.empty
    have delivered : (m.run Trajectory.empty).2.receiver.deliveries = integrator.deliveries m.system m.valuation :=
      Integrator.run_trajectory m.system m.valuation valid
    rw [whole] at ends
    rw [printed, valid, if_pos rfl, delivered, result]
    exact ⟨kept whole, ends.accepted.1⟩

theorem Model.Alike.printed {m n : Model} (alike : m.Alike n) : m.printed = n.printed := by
  rw [Model.printed, Model.printed, alike.settings, (alike.run Trajectory.empty).1]

/-- Initial values first, then the equations. -/
def Call.inOrder (initials : List (String × Float)) (equations : List (String × String)) : List Call :=
  initials.map (fun entry => .initial entry.1 entry.2) ++ equations.map fun entry => .ode entry.1 entry.2

/-- Some calls give each initial value at any place, and the equations in their order. -/
structure Call.Give (initials : List (String × Float)) (equations : List (String × String)) (calls : List Call) :
    Prop where
  initials : (calls.filterMap initial?).Perm initials
  equations : calls.filterMap equation? = equations

theorem Call.inOrder_give {initials others : List (String × Float)} (perm : initials.Perm others)
    (equations : List (String × String)) : Give others equations (inOrder initials equations) where
  initials := by
    simpa [inOrder, List.filterMap_map, Function.comp_def, initial?] using perm
  equations := by
    simp [inOrder, List.filterMap_map, Function.comp_def, equation?]

/-- Wherever the initial values are given, the same model comes out for every run. -/
theorem Call.Give.setUp {initials : List (String × Float)} {equations : List (String × String)} {calls : List Call}
    {odes : List Ode} (give : Call.Give initials equations calls) (settings : Settings)
    (read : readOdes equations = .ok odes) (distinct : (initials.map Prod.fst).Nodup) :
    ∃ after, (Model.new settings).setUp calls = .ok after ∧ after.settings = settings ∧
      ∀ {others : List Call} {other : Model}, Call.Give initials equations others →
        (Model.new settings).setUp others = .ok other → after.Alike other := by
  have apart {calls : List Call} (give : Call.Give initials equations calls) :
      ((calls.filterMap Call.initial?).map Prod.fst).Nodup :=
    (give.initials.map Prod.fst).nodup_iff.mpr distinct
  rw [← give.equations] at read
  obtain ⟨after, done⟩ := (Model.new settings).setUp_of_read read
  have prepared := Model.setUp_prepared done read (apart give)
  refine ⟨after, done, prepared.settings, fun {others other} given finished => ?_⟩
  rw [give.equations, ← given.equations] at read
  have likewise := Model.setUp_prepared finished read (apart given)
  exact prepared.alike likewise (give.initials.trans given.initials.symm) (apart give)

namespace ModelFile

theorem register_setUp {m after : Model} {equations : List (String × String)}
    (done : m.setUp (equations.map fun entry => .ode entry.1 entry.2) = .ok after) :
    (register m equations).2 = .ok after := by
  induction equations generalizing m with
  | nil =>
    cases done
    rfl
  | cons entry equations ih =>
    obtain ⟨symbol, text⟩ := entry
    rw [List.map_cons, Model.setUp] at done
    unfold register
    cases read : m.parse text with
    | error fault =>
      rw [read] at done
      cases done
    | ok answer =>
      obtain ⟨expr, middle, notices⟩ := answer
      rw [read] at done
      exact ih done

/-- The first text that is no expression is the one that is complained of. -/
theorem register_unparsed {before after : List (String × String)} {symbol text : String} {fault : ParseError}
    (parsed : ∀ entry ∈ before, ∃ expr, Expr.parse entry.2 = .ok expr) (failed : Expr.parse text = .error fault)
    (m : Model) :
    (register m (before ++ (symbol, text) :: after)).2 =
      .error ["failed to parse equation for " ++ symbol, fault.message] := by
  induction before generalizing m with
  | nil => simp only [List.nil_append, register, Model.parse, failed]
  | cons entry before ih =>
    obtain ⟨⟨expr, here⟩, others⟩ := List.forall_mem_cons.mp parsed
    simp only [List.cons_append, register, Model.parse, here]
    exact ih others _

/-- The model that the equations of a file are registered with. -/
theorem build_eq {file : ModelFile} (nonempty : file.equations ≠ []) :
    file.build = register (file.initial.foldl (fun m (name, value) => m.initial name value) (Model.new file.settings))
      file.equations := by
  unfold build
  rw [List.isEmpty_eq_false_iff.mpr nonempty, if_neg Bool.false_ne_true]

theorem setUp_initials {m : Model} (initials : List (String × Float)) (calls : List Call) :
    m.setUp (initials.map (fun entry => .initial entry.1 entry.2) ++ calls) =
      (initials.foldl (fun m (name, value) => m.initial name value) m).setUp calls := by
  induction initials generalizing m with
  | nil => rfl
  | cons entry initials ih => exact ih

theorem build_setUp {file : ModelFile} {m : Model} (nonempty : file.equations ≠ [])
    (done : (Model.new file.settings).setUp (Call.inOrder file.initial file.equations) = .ok m) :
    file.build.2 = .ok m := by
  rw [build_eq nonempty]
  rw [Call.inOrder, setUp_initials] at done
  exact register_setUp done

end ModelFile

namespace CommandLine

/-- What the program does with a file that it has read. -/
theorem runFile_built {file : ModelFile} {m : Model} (built : file.build.2 = .ok m) (verbosity : Verbosity) :
    let cli := runFile file verbosity
    cli.stdout = m.printed ∧
      match (m.run Trajectory.empty).2.result with
      | .ok _ => cli.exitCode = 0 ∧ cli.failure = []
      | .error fault => cli.exitCode = 1 ∧ cli.failure = fault.chain := by
  obtain ⟨kept, result⟩ := m.execute_printed
  rw [← kept, ← result]
  unfold runFile
  simp only [built]
  cases (m.execute none).2.result with
  | error fault => exact ⟨rfl, rfl, rfl⟩
  | ok summary => exact ⟨rfl, rfl, rfl⟩

theorem runFile_unbuilt {file : ModelFile} {messages : List String} (failed : file.build.2 = .error messages)
    (verbosity : Verbosity) :
    let cli := runFile file verbosity
    cli.stdout = "" ∧ cli.exitCode = 1 ∧ cli.failure = messages := by
  simp only [runFile, failed, and_self]

/-- Nothing but the file that is read, and how much it wants shown, decides what the program does. -/
theorem run_file {readers : Readers} {contents : String → Option String} {args : List String} {path text : String}
    {file : ModelFile} {verbosity : Verbosity} (given : readers.path? args = some path)
    (found : contents path = some text) (read : readers.file? text = some file)
    (leveled : file.verbosity? = some verbosity) : readers.run contents args = runFile file verbosity := by
  simp only [Readers.run, given, found, read, leveled]

end CommandLine

namespace TextModel

/-- A model made for the given settings. -/
def configured (settings : Settings) : TextModel :=
  ((new settings.maxtime settings.dt).setInclusive (settings.boundary = .inclusive)).setAbort
    (settings.nonFinite = .abort)

theorem configured_model (settings : Settings) : (configured settings).model = Model.new settings := by
  obtain ⟨maxtime, dt, boundary, nonFinite⟩ := settings
  cases boundary <;> cases nonFinite <;> rfl

/-- The model after some calls, whether or not they succeed, and their answers. -/
def calls (m : TextModel) : List Call → TextModel × List (Except String Unit)
  | [] => (m, [])
  | .initial symbol value :: others =>
    let (after, answers) := (m.initial symbol value).calls others
    (after, .ok () :: answers)
  | .ode symbol text :: others =>
    let reply := m.ode symbol text
    let (after, answers) := reply.model.calls others
    (after, reply.answer :: answers)

theorem calls_setUp {m : TextModel} {cs : List Call} {after : Model} (done : m.model.setUp cs = .ok after) :
    m.calls cs = (⟨after⟩, cs.map fun _ => .ok ()) := by
  induction cs generalizing m with
  | nil =>
    cases done
    rfl
  | cons call cs ih =>
    cases call with
    | initial symbol value =>
      have others := ih (m := m.initial symbol value) done
      rw [calls, others]
      rfl
    | ode symbol text =>
      rw [Model.setUp] at done
      cases read : m.model.parse text with
      | error fault =>
        rw [read] at done
        cases done
      | ok answer =>
        obtain ⟨expr, middle, notices⟩ := answer
        rw [read] at done
        have others := ih (m := ⟨(middle.ode symbol expr).1⟩) done
        have reply : m.ode symbol text =
            ⟨⟨(middle.ode symbol expr).1⟩, notices ++ (middle.ode symbol expr).2, .ok ()⟩ := by
          simp only [ode, read]
        rw [calls, reply, others]
        rfl

theorem ode_unparsed {symbol text : String} {fault : ParseError} (failed : Expr.parse text = .error fault)
    (m : TextModel) :
    m.ode symbol text = ⟨m, [], .error (oneLine ["equation for " ++ symbol, fault.message])⟩ := by
  simp only [ode, Model.parse, failed]

theorem runInto_answer {σ α : Type} [Receiver σ] (m : TextModel) (receiver : σ) (view : σ → Summary → α) :
    (m.runInto receiver view).answer =
      match (m.model.run receiver).2.result with
      | .ok summary => .ok (view (m.model.run receiver).2.receiver summary)
      | .error fault => .error (oneLine fault.chain) := by
  unfold runInto
  simp only
  cases (m.model.run receiver).2.result <;> rfl

theorem table_answer (m : TextModel) :
    m.table.answer =
      match (m.model.run Trajectory.empty).2.result with
      | .ok _ => .ok m.model.printed
      | .error fault => .error (oneLine fault.chain) := by
  obtain ⟨kept, result⟩ := m.model.execute_printed
  rw [← kept, ← result]
  exact m.runInto_answer (TextTable.empty none) fun table _ => table.kept

theorem run_answer (m : TextModel) :
    m.run.answer =
      match (m.model.run Trajectory.empty).2.result with
      | .ok summary => .ok (summary, (m.model.run Trajectory.empty).2.receiver)
      | .error fault => .error (oneLine fault.chain) :=
  m.runInto_answer Trajectory.empty fun table summary => (summary, table)

theorem answers_alike {m called : Model} (alike : m.Alike called) :
    match (m.run Trajectory.empty).2.result with
    | .ok summary => (mk called).table.answer = .ok m.printed ∧
        (mk called).run.answer = .ok (summary, (m.run Trajectory.empty).2.receiver)
    | .error fault => (mk called).table.answer = .error (oneLine fault.chain) ∧
        (mk called).run.answer = .error (oneLine fault.chain) := by
  obtain ⟨received, result⟩ := alike.run Trajectory.empty
  have tabled := (mk called).table_answer
  have tracked := (mk called).run_answer
  rw [← alike.printed, ← result] at tabled
  rw [← received, ← result] at tracked
  cases ended : (m.run Trajectory.empty).2.result with
  | ok summary =>
    rw [ended] at tabled tracked
    exact ⟨tabled, tracked⟩
  | error fault =>
    rw [ended] at tabled tracked
    exact ⟨tabled, tracked⟩

end TextModel

/-- What stands before the first equation that is no expression was given before it. -/
theorem Call.Give.split {initials : List (String × Float)} {before after : List (String × String)}
    {symbol text : String} {cs : List Call} (give : Call.Give initials (before ++ (symbol, text) :: after) cs) :
    ∃ earlier later, cs = earlier ++ .ode symbol text :: later ∧ earlier.filterMap equation? = before := by
  obtain ⟨first, rest, rfl, same, behind⟩ := List.filterMap_eq_append_iff.mp give.equations
  obtain ⟨passed, call, later, rfl, silent, here, _⟩ := List.filterMap_eq_cons_iff.mp behind
  cases call with
  | initial => cases here
  | ode =>
    cases here
    refine ⟨first ++ passed, later, (List.append_assoc ..).symm, ?_⟩
    rw [List.filterMap_append, same, List.filterMap_eq_nil_iff.mpr silent, List.append_nil]

/-- The command line, the text interface and the model itself show one and the same run, however the arguments and
the text of the file are read. Where a text is no expression they all complain of the first, and nothing is shown. -/
theorem drivers_agree {readers : CommandLine.Readers} {contents : String → Option String} {args : List String}
    {path text : String} {file : ModelFile} {verbosity : Verbosity} {initials : List (String × Float)} {cs : List Call}
    (given : readers.path? args = some path) (found : contents path = some text)
    (read : readers.file? text = some file) (leveled : file.verbosity? = some verbosity)
    (nonempty : file.equations ≠ []) (reordered : initials.Perm file.initial)
    (give : Call.Give file.initial file.equations cs) :
    let cli := readers.run contents args
    let fresh := TextModel.configured file.settings
    ((∀ entry ∈ file.equations, ∃ expr, Expr.parse entry.2 = .ok expr) →
      ∃ m, (Model.new file.settings).setUp (Call.inOrder initials file.equations) = .ok m ∧
        let run := (m.run Trajectory.empty).2
        let (bridge, answers) := fresh.calls cs
        answers = cs.map (fun _ => .ok ()) ∧
          cli.stdout = (if file.settings.fault? = none then render run.receiver.deliveries else "") ∧
          match run.result with
          | .ok summary => cli.exitCode = 0 ∧ cli.failure = [] ∧ bridge.table.answer = .ok cli.stdout ∧
              bridge.run.answer = .ok (summary, run.receiver)
          | .error fault => cli.exitCode = 1 ∧ cli.failure = fault.chain ∧
              bridge.table.answer = .error (TextModel.oneLine fault.chain) ∧
              bridge.run.answer = .error (TextModel.oneLine fault.chain)) ∧
      ((∃ entry ∈ file.equations, ∃ fault, Expr.parse entry.2 = .error fault) →
        ∃ before symbol source after fault, file.equations = before ++ (symbol, source) :: after ∧
          (∀ entry ∈ before, ∃ expr, Expr.parse entry.2 = .ok expr) ∧ Expr.parse source = .error fault ∧
          cli.stdout = "" ∧ cli.exitCode = 1 ∧
          cli.failure = ["failed to parse equation for " ++ symbol, fault.message] ∧
          ∃ earlier later, cs = earlier ++ .ode symbol source :: later ∧ earlier.filterMap Call.equation? = before ∧
            let (bridge, answers) := fresh.calls earlier
            answers = earlier.map (fun _ => .ok ()) ∧
              bridge.ode symbol source =
                ⟨bridge, [], .error (TextModel.oneLine ["equation for " ++ symbol, fault.message])⟩) := by
  intro cli fresh
  have program : cli = CommandLine.runFile file verbosity := CommandLine.run_file given found read leveled
  have started : fresh.model = Model.new file.settings := TextModel.configured_model file.settings
  refine ⟨fun parsed => ?_, fun unparsed => ?_⟩
  · obtain ⟨odes, odesRead⟩ := readOdes_of_parsed parsed
    have ordered := Call.inOrder_give reordered file.equations
    obtain ⟨m, done, settings, alike⟩ := ordered.setUp file.settings odesRead file.distinct
    refine ⟨m, done, ?_⟩
    -- the file and the calls may give the initial values in other orders, each to a model of its own
    have inFile := Call.inOrder_give (List.Perm.refl file.initial) file.equations
    obtain ⟨built, doneByFile, _, _⟩ := inFile.setUp file.settings odesRead file.distinct
    obtain ⟨called, doneByCalls, _, _⟩ := give.setUp file.settings odesRead file.distinct
    have asBuilt := alike inFile doneByFile
    have answered := TextModel.answers_alike (alike give doneByCalls)
    obtain ⟨stdout, ending⟩ := CommandLine.runFile_built (ModelFile.build_setUp nonempty doneByFile) verbosity
    rw [← started] at doneByCalls
    rw [← program, ← asBuilt.printed] at stdout
    rw [← program, ← (asBuilt.run Trajectory.empty).2] at ending
    rw [TextModel.calls_setUp doneByCalls]
    have shown := stdout
    rw [Model.printed, settings] at shown
    refine ⟨rfl, shown, ?_⟩
    cases ended : (m.run Trajectory.empty).2.result with
    | ok summary =>
      rw [ended] at ending answered
      exact ⟨ending.1, ending.2, stdout ▸ answered.1, answered.2⟩
    | error fault =>
      rw [ended] at ending answered
      exact ⟨ending.1, ending.2, answered.1, answered.2⟩
  · obtain ⟨before, symbol, source, after, fault, split, parsed, failed⟩ := exists_first_unparsed unparsed
    obtain ⟨odes, odesRead⟩ := readOdes_of_parsed parsed
    have unbuilt : file.build.2 = .error ["failed to parse equation for " ++ symbol, fault.message] := by
      rw [ModelFile.build_eq nonempty, split]
      exact ModelFile.register_unparsed parsed failed _
    obtain ⟨silent, exit, complaint⟩ := CommandLine.runFile_unbuilt unbuilt verbosity
    rw [← program] at silent exit complaint
    obtain ⟨earlier, later, rfl, same⟩ := Call.Give.split (split ▸ give)
    rw [← same] at odesRead
    obtain ⟨called, done⟩ := fresh.model.setUp_of_read odesRead
    refine ⟨before, symbol, source, after, fault, split, parsed, failed, silent, exit, complaint, earlier, later, rfl,
      same, ?_⟩
    rw [TextModel.calls_setUp done]
    exact ⟨rfl, TextModel.ode_unparsed failed _⟩

/-- A file for exponential decay. -/
def decayFile : String :=
  "ode = [[\"y\", \"-y\"]]\n[settings]\nmaxtime = 1\ndt = 0.5\n[initial]\ny = 1\n"

theorem drivers_agree_decay :
    let cli := CommandLine.run (fun _ => some decayFile) ["decay.toml"]
    let bridge := ((TextModel.configured { maxtime := 1, dt := 0.5 }).calls [.ode "y" "-y", .initial "y" 1]).1
    CommandLine.modelPath? ["decay.toml"] = some "decay.toml" ∧ (∃ file, ModelFile.read? decayFile = some file) ∧
      cli.stdout = "t y\n0 1\n0.5 0.5\n1 0.25\n" ∧ cli.exitCode = 0 ∧ bridge.table.answer = .ok cli.stdout ∧
      ∃ summary table, bridge.run.answer = .ok (summary, table) ∧ cli.stdout = render table.deliveries := by
  intro cli bridge
  have given : CommandLine.modelPath? ["decay.toml"] = some "decay.toml" := by decide +kernel
  have content : (ModelFile.read? decayFile).map (fun file => (file.logLevel, file.initial, file.equations)) =
      some (none, [("y", 1)], [("y", "-y")]) := by decide +kernel
  have configuration : (ModelFile.read? decayFile).map (fun file =>
      (file.settings.maxtime, file.settings.dt, file.settings.boundary, file.settings.nonFinite)) =
      some (1, 0.5, .exclusive, .propagate) := by decide +kernel
  obtain ⟨⟨logLevel, ⟨maxtime, dt, boundary, nonFinite⟩, initial, distinct, equations⟩, read, same⟩ :=
    Option.map_eq_some_iff.mp content
  rw [read, Option.map_some, Option.some_inj] at configuration
  simp only [Prod.mk.injEq] at same configuration
  obtain ⟨rfl, rfl, rfl⟩ := same
  obtain ⟨rfl, rfl, rfl, rfl⟩ := configuration
  have give : Call.Give [("y", 1)] [("y", "-y")] [.ode "y" "-y", .initial "y" 1] := ⟨List.Perm.refl _, rfl⟩
  have parsed : ∀ entry ∈ [("y", "-y")], ∃ expr, Expr.parse entry.2 = .ok expr := by
    rw [List.forall_mem_singleton]
    have readable : (Expr.parse "-y").isOk = true := by decide +kernel
    cases found : Expr.parse "-y" with
    | ok expr => exact ⟨expr, rfl⟩
    | error fault =>
      rw [found] at readable
      cases readable
  obtain ⟨agree, _⟩ := @drivers_agree CommandLine.readers (fun _ => some decayFile) _ _ _ _ _ _ _ given rfl read rfl
    nofun (List.Perm.refl _) give
  obtain ⟨m, _, _, text, shown⟩ := agree parsed
  have exit : cli.exitCode = 0 := by decide +kernel
  have stdout : cli.stdout = "t y\n0 1\n0.5 0.5\n1 0.25\n" := by decide +kernel
  have valid : ({ maxtime := 1, dt := 0.5 } : Settings).fault? = none := by decide +kernel
  refine ⟨given, ⟨_, read⟩, stdout, exit, ?_⟩
  cases ended : (m.run Trajectory.empty).2.result with
  | ok summary =>
    rw [ended] at shown
    obtain ⟨_, _, tabled, tracked⟩ := shown
    exact ⟨tabled, summary, _, tracked, text.trans (if_pos valid)⟩
  | error fault =>
    rw [ended] at shown
    cases exit.symm.trans shown.1

end EulerFlow
