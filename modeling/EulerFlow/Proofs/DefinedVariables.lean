import EulerFlow.Model.ModelFile
import EulerFlow.Model.TextModel
import EulerFlow.Proofs.ModelBuilt
import EulerFlow.Proofs.ParsedFaults

namespace EulerFlow

namespace Model

/-- All equations were read from texts. -/
def Parsed (m : Model) : Prop :=
  ∀ ode ∈ m.system.entries, ∃ text, Expr.parse text = .ok ode.equation

/-- A model that was given its equations as texts only. -/
structure Textual (m : Model) : Prop where
  built : ∃ given, m.Built given
  parsed : m.Parsed

variable {m after : Model} {handed : List Expr}

theorem Textual.new (settings : Settings) : (Model.new settings).Textual where
  built := ⟨[], .new settings⟩
  parsed := List.forall_mem_nil _

theorem Textual.next (textual : m.Textual) (operation : ∀ given, Operation m given after handed)
    (system : after.system = m.system) : after.Textual where
  built := by
    obtain ⟨given, built⟩ := textual.built
    exact ⟨handed ++ given, built.next (operation given)⟩
  parsed := by
    rw [Parsed, system]
    exact textual.parsed

theorem ode_system (symbol : String) (equation : Expr) :
    (m.ode symbol equation).1.system = m.system.insert symbol equation := by
  unfold ode
  split <;> rfl

/-- A text that is parsed and registered adds an equation that was read, with its variables declared. -/
theorem Textual.register (textual : m.Textual) {text : String} {expr : Expr} {middle : Model} {notices : List Notice}
    (read : m.parse text = .ok (expr, middle, notices)) (symbol : String) : (middle.ode symbol expr).1.Textual where
  built := by
    obtain ⟨given, built⟩ := textual.built
    have handed := built.next (.parsed read)
    exact ⟨_, handed.next (.registered symbol (.given (List.mem_cons_self ..)))⟩
  parsed := by
    obtain ⟨found, rfl⟩ := parse_ok read
    intro ode member
    rw [ode_system, declare_system] at member
    rcases OdeSystem.mem_insert_iff.mp member with rfl | ⟨old, _⟩
    · exact ⟨text, found⟩
    · exact textual.parsed ode old

end Model

theorem ModelFile.initial_textual (values : List (String × Float)) {m : Model} (textual : m.Textual) :
    (values.foldl (fun m (name, value) => m.initial name value) m).Textual := by
  induction values generalizing m with
  | nil => exact textual
  | cons entry values ih => exact ih (textual.next (fun _ => .initialized entry.1 entry.2) rfl)

theorem ModelFile.register_textual {equations : List (String × String)} {m after : Model} {notices : List Notice}
    (textual : m.Textual) (done : register m equations = (notices, .ok after)) : after.Textual := by
  induction equations generalizing m notices with
  | nil =>
    cases done
    exact textual
  | cons entry equations ih =>
    obtain ⟨symbol, text⟩ := entry
    unfold register at done
    cases read : m.parse text with
    | error fault =>
      rw [read] at done
      cases done
    | ok answer =>
      obtain ⟨expr, middle, declared⟩ := answer
      rw [read] at done
      have rest := congrArg Prod.snd done
      exact ih (textual.register read symbol) (Prod.ext rfl rest)

/-- The program builds its models from texts alone. -/
theorem ModelFile.build_textual {file : ModelFile} {m : Model} {notices : List Notice}
    (done : file.build = (notices, .ok m)) : m.Textual := by
  unfold build at done
  split at done
  · cases done
  · exact register_textual (initial_textual file.initial (.new file.settings)) done

/-- The models that any calls lead to, whether or not they succeed. -/
inductive TextModel.Reached : TextModel → Prop
  | new (maxtime dt : Float) : Reached (.new maxtime dt)
  | ode {m : TextModel} (symbol equation : String) : Reached m → Reached (m.ode symbol equation).model
  | initial {m : TextModel} (symbol : String) (value : Float) : Reached m → Reached (m.initial symbol value)
  | setInclusive {m : TextModel} (inclusive : Bool) : Reached m → Reached (m.setInclusive inclusive)
  | setAbort {m : TextModel} (abort : Bool) : Reached m → Reached (m.setAbort abort)
  | table {m : TextModel} : Reached m → Reached m.table.model
  | run {m : TextModel} : Reached m → Reached m.run.model

theorem TextModel.runInto_model {σ α : Type} [Receiver σ] (m : TextModel) (receiver : σ) (view : σ → Summary → α) :
    (m.runInto receiver view).model = ⟨(m.model.run receiver).1⟩ := by
  unfold runInto
  simp only
  split <;> rfl

/-- So do callers of the text interface, whatever fails on the way. -/
theorem TextModel.Reached.textual {m : TextModel} (reached : m.Reached) : m.model.Textual := by
  induction reached with
  | new maxtime dt => exact .new _
  | @ode m symbol equation _ ih =>
    unfold TextModel.ode
    cases read : m.model.parse equation with
    | error fault => exact ih
    | ok answer => exact ih.register read symbol
  | initial symbol value _ ih => exact ih.next (fun _ => .initialized symbol value) rfl
  | setInclusive inclusive _ ih => exact ih.next (fun _ => .configured _) rfl
  | setAbort abort _ ih => exact ih.next (fun _ => .configured _) rfl
  | table _ ih =>
    unfold TextModel.table
    rw [runInto_model]
    exact ih.next (fun _ => .ran _) rfl
  | run _ ih =>
    unfold TextModel.run
    rw [runInto_model]
    exact ih.next (fun _ => .ran _) rfl

namespace Model

variable {m : Model} {given : List Expr} {σ : Type} [Receiver σ] {receiver : σ} {symbol : String} {time : Float}
  {cause : EvalError}

/-- What a run cannot evaluate is wrong with an equation, not with the values. -/
theorem Complete.run_eval (complete : Complete m given)
    (failed : (m.run receiver).2.result = .error (.eval symbol time cause)) :
    ∃ ode ∈ m.system.entries, ode.symbol = symbol ∧ cause ∈ ode.equation.faults m.valuation.names := by
  obtain ⟨_, _, ode, member, named, faulty⟩ := Integrator.run_eval failed
  refine ⟨ode, member, named, ?_⟩
  rwa [Ode.faults, if_pos (complete.odes ode member).1, List.append_nil] at faulty

end Model

/-- Whatever was done with a model, all that its equations mention has a value, and no run misses a
variable. Where the equations were read from texts, as on the command line and behind the text
interface, an evaluation can only fail for the name of a function or the number of its arguments. -/
theorem built_defines_variables :
    (∀ (m : Model) (given : List Expr), m.Built given →
      (m.valuation.contains clock = true ∧ ∀ ode ∈ m.system.entries, m.valuation.contains ode.symbol = true ∧
        ∀ name ∈ ode.equation.symbols, m.valuation.contains name = true) ∧
      ∀ {σ : Type} [Receiver σ] (receiver : σ) (symbol : String) (time : Float) (cause : EvalError),
        (m.run receiver).2.result = .error (.eval symbol time cause) →
        (∀ name, cause ≠ .undefinedVariable name) ∧
        (m.Parsed → (∃ name, cause = .unknownFunction name) ∨
          ∃ name expected got, cause = .arityMismatch name expected got)) ∧
    (∀ (file : ModelFile) (notices : List Notice) (m : Model), file.build = (notices, .ok m) →
      (∃ given, m.Built given) ∧ m.Parsed) ∧
    ∀ m : TextModel, m.Reached → (∃ given, m.model.Built given) ∧ m.model.Parsed := by
  refine ⟨fun m given built => ?_, fun file notices m done => ?_, fun m reached => ?_⟩
  · have complete := built.complete
    refine ⟨⟨Valuation.contains_iff.mpr m.valuation.clock_mem, fun ode member => ?_⟩, ?_⟩
    · obtain ⟨symbol, equation⟩ := complete.odes ode member
      exact ⟨Valuation.contains_iff.mpr symbol, fun name mentioned => Valuation.contains_iff.mpr (equation mentioned)⟩
    · intro σ _ receiver symbol time cause failed
      obtain ⟨ode, member, _, faulty⟩ := complete.run_eval failed
      have defined (name : String) : cause ≠ .undefinedVariable name := by
        rintro rfl
        obtain ⟨mentioned, undefined⟩ := Expr.mem_faults_undefined faulty
        exact undefined ((complete.odes ode member).2 mentioned)
      refine ⟨defined, fun parsed => ?_⟩
      obtain ⟨text, read⟩ := parsed ode member
      cases cause with
      | unknownOperator place op => exact absurd faulty (Expr.parse_known read)
      | unknownFunction name => exact .inl ⟨name, rfl⟩
      | arityMismatch name expected got => exact .inr ⟨name, expected, got, rfl⟩
      | undefinedVariable name => exact absurd rfl (defined name)
  · have textual := ModelFile.build_textual done
    exact ⟨textual.built, textual.parsed⟩
  · exact ⟨reached.textual.built, reached.textual.parsed⟩

end EulerFlow
