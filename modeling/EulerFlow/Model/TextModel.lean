import EulerFlow.Model.Basic
import EulerFlow.Table.Trajectory

namespace EulerFlow

/-- A model for callers that exchange texts with it: equations come as texts, and a
failure is one line that tells the whole chain of causes. -/
structure TextModel where
  model : Model

/-- The model after a call, what the call put on record, and its answer. -/
structure Reply (α : Type) where
  model : TextModel
  notices : List Notice
  answer : Except String α

namespace TextModel

/-- A failure with its causes on one line. -/
def oneLine (chain : List String) : String :=
  ": ".intercalate chain

/-- A model with the default boundary and the default policy. -/
def new (maxtime dt : Float) : TextModel where
  model := .new { maxtime := maxtime, dt := dt }

/-- Registers an equation given as a text. A text that is no expression changes nothing. -/
def ode (m : TextModel) (symbol equation : String) : Reply Unit :=
  match m.model.parse equation with
  | .error fault => ⟨m, [], .error (oneLine ["equation for " ++ symbol, fault.message])⟩
  | .ok (expr, model, declared) =>
    let (model, registered) := model.ode symbol expr
    ⟨⟨model⟩, declared ++ registered, .ok ()⟩

/-- Gives a symbol its value. -/
def initial (m : TextModel) (symbol : String) (value : Float) : TextModel :=
  ⟨m.model.initial symbol value⟩

/-- Whether a row at the horizon itself is wanted. -/
def setInclusive (m : TextModel) (inclusive : Bool) : TextModel :=
  let boundary : Boundary := if inclusive then .inclusive else .exclusive
  ⟨{ m.model with settings := { m.model.settings with boundary := boundary } }⟩

/-- Whether a run ends where a value is no longer finite. -/
def setAbort (m : TextModel) (abort : Bool) : TextModel :=
  let policy : NonFinitePolicy := if abort then .abort else .propagate
  ⟨{ m.model with settings := { m.model.settings with nonFinite := policy } }⟩

/-- The value of a symbol, if it has one. -/
def get? (m : TextModel) (symbol : String) : Option Float :=
  m.model.valuation.get? symbol

/-- Runs and answers with what `view` makes of the receiver and the summary. A failed
run moves the values as far as it came but shows no table. -/
def runInto {σ α : Type} [Receiver σ] (m : TextModel) (receiver : σ) (view : σ → Summary → α) :
    Reply α :=
  let (model, run) := m.model.run receiver
  match run.result with
  | .error fault => ⟨⟨model⟩, run.notices, .error (oneLine fault.chain)⟩
  | .ok summary => ⟨⟨model⟩, run.notices, .ok (view run.receiver summary)⟩

/-- Runs and answers with the text table. -/
def table (m : TextModel) : Reply String :=
  m.runInto (TextTable.empty none) fun table _ => table.kept

/-- Runs and answers with the summary and the table. -/
def run (m : TextModel) : Reply (Summary × Trajectory) :=
  m.runInto Trajectory.empty fun table summary => (summary, table)

end TextModel

end EulerFlow
