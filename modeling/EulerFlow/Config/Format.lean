import EulerFlow.Config.Value

namespace EulerFlow.Config

/-- The formats that settings are written in. They give values of one type, and differ in
how the same values are read as settings. -/
inductive Format where
  | toml
  | json

namespace Format

/-- The value says that nothing comes with an option. JSON has a null for it; TOML has none
and takes an empty table or an empty list. -/
def isNothing : Format → Value → Bool
  | .json, .null => true
  | .toml, .table [] => true
  | .toml, .list [] => true
  | _, _ => false

/-- The option that was chosen: its bare name, or a table that gives it as the only key
and nothing with it. -/
def choice? (format : Format) : Value → Option String
  | .text s => some s
  | .table [(key, payload)] => if format.isNothing payload then some key else none
  | _ => none

/-- The items of a list that gives at most so many fields in order. A longer list is an error
in JSON; in TOML what is left of it is never looked at. -/
def positional? (format : Format) (count : Nat) (items : List Value) : Option (List Value) :=
  match format with
  | .json => if items.length ≤ count then some items else none
  | .toml => some (items.take count)

end Format

end EulerFlow.Config
