import EulerFlow.Model.Basic

namespace EulerFlow

/-- The contents of a model file. No name is given two initial values. -/
structure ModelFile where
  logLevel : Option String
  settings : Settings
  initial : List (String × Float)
  distinct : (initial.map Prod.fst).Nodup
  /-- Symbols with the texts of their equations, in order. -/
  equations : List (String × String)

namespace ModelFile

/-- How much of its journal a run of the file shows: warnings and worse, unless the file says
otherwise. -/
def verbosity? (file : ModelFile) : Option Verbosity :=
  match file.logLevel with
  | none => some (.upTo .warn)
  | some name => Verbosity.ofName? name

/-- Registers equations in order, up to the first whose text is no expression. -/
def register (m : Model) : List (String × String) → List Notice × Except (List String) Model
  | [] => ([], .ok m)
  | (symbol, text) :: equations =>
    match m.parse text with
    | .error fault => ([], .error ["failed to parse equation for " ++ symbol, fault.message])
    | .ok (expr, m, declared) =>
      let (m, registered) := m.ode symbol expr
      let (notices, result) := register m equations
      (declared ++ registered ++ notices, result)

/-- The model of the file: initial values first, then the equations. -/
def build (file : ModelFile) : List Notice × Except (List String) Model :=
  if file.equations.isEmpty then ([], .error ["model file declares no [[ode]] entries"])
  else
    let start := file.initial.foldl (fun m (name, value) => m.initial name value) (Model.new file.settings)
    register start file.equations

end ModelFile

end EulerFlow
