import EulerFlow.Config.SettingsTable
import EulerFlow.Config.Toml.Document
import EulerFlow.Model.ModelFile

namespace EulerFlow.ModelFile

open Config (Value)

/-- Initial values as a table of numbers. -/
def initialOf? : Value → Option (List (String × Float))
  | .table fields => fields.mapM fun (name, value) => value.number?.map (name, ·)
  | _ => none

/-- An equation as a table, in which unknown fields are ignored, or as a list that
begins with the symbol and the text. -/
def equationOf? : Value → Option (String × String)
  | .list (symbol :: equation :: _) => do
    return (← symbol.text?, ← equation.text?)
  | value => do
    let fields ← value.record? ["symbol", "equation"]
    let symbol ← (← fields.lookup "symbol").text?
    let equation ← (← fields.lookup "equation").text?
    return (symbol, equation)

/-- Equations as a list, whose order is kept. -/
def equationsOf? : Value → Option (List (String × String))
  | .list items => items.mapM equationOf?
  | _ => none

/-- A model file from the table that it holds. Every part may be missing. -/
def ofValue? (value : Value) : Option ModelFile := do
  let fields ← value.record? ["log_level", "settings", "initial", "ode"]
  let logLevel ← Value.fieldOr none (·.text?.map some) (fields.lookup "log_level")
  let settings ← Value.fieldOr {} (Settings.ofValue? .toml) (fields.lookup "settings")
  let initial ← Value.fieldOr [] initialOf? (fields.lookup "initial")
  let equations ← Value.fieldOr [] equationsOf? (fields.lookup "ode")
  if distinct : (initial.map Prod.fst).Nodup then return ⟨logLevel, settings, initial, distinct, equations⟩ else none

/-- The model file that a text in TOML stands for. -/
def read? (text : String) : Option ModelFile :=
  Config.Toml.read? text >>= ofValue?

end EulerFlow.ModelFile
