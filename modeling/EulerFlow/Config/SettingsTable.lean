import EulerFlow.Config.Format
import EulerFlow.Run.Settings

namespace EulerFlow

/-- The boundary that a name stands for, in lower case only. -/
def Boundary.ofName? : String → Option Boundary
  | "exclusive" => some .exclusive
  | "inclusive" => some .inclusive
  | _ => none

/-- The name of a boundary, as it is written in a file. -/
def Boundary.name : Boundary → String
  | .exclusive => "exclusive"
  | .inclusive => "inclusive"

/-- The policy that a name stands for, in lower case only. -/
def NonFinitePolicy.ofName? : String → Option NonFinitePolicy
  | "propagate" => some .propagate
  | "abort" => some .abort
  | _ => none

/-- The name of a policy, as it is written in a file. -/
def NonFinitePolicy.name : NonFinitePolicy → String
  | .propagate => "propagate"
  | .abort => "abort"

namespace Settings

/-- Settings from their fields. A missing field takes its default. -/
def ofFields? (format : Config.Format) (maxtime dt boundary nonFinite : Option Config.Value) : Option Settings := do
  let defaults : Settings := {}
  let maxtime ← Config.Value.fieldOr defaults.maxtime (·.number?) maxtime
  let dt ← Config.Value.fieldOr defaults.dt (·.number?) dt
  let boundary ← Config.Value.fieldOr defaults.boundary (format.choice? · >>= Boundary.ofName?) boundary
  let nonFinite ← Config.Value.fieldOr defaults.nonFinite (format.choice? · >>= NonFinitePolicy.ofName?) nonFinite
  return ⟨maxtime, dt, boundary, nonFinite⟩

/-- Settings as a table, in which unknown fields are ignored, or as the list of their
fields in order, which may end early. A moment counts as a table of unknown fields. -/
def ofValue? (format : Config.Format) : Config.Value → Option Settings
  | .list items => do
    let items ← format.positional? 4 items
    ofFields? format items[0]? items[1]? items[2]? items[3]?
  | .moment => some {}
  | value => do
    let fields ← value.record? ["maxtime", "dt", "boundary", "non_finite"]
    ofFields? format (fields.lookup "maxtime") (fields.lookup "dt") (fields.lookup "boundary")
      (fields.lookup "non_finite")

end Settings

end EulerFlow
