import EulerFlow.Table.Delivery

namespace EulerFlow

/-- The table of a run in memory. -/
structure Trajectory where
  columns : List String
  rows : Array (List Float)
deriving DecidableEq

namespace Trajectory

/-- No header has come yet. -/
def empty : Trajectory where
  columns := []
  rows := #[]

/-- A header starts a new table. -/
def receive (table : Trajectory) : Delivery → Trajectory
  | .header columns => ⟨columns, #[]⟩
  | .row values => { table with rows := table.rows.push values }

instance : Receiver Trajectory where
  receive table delivery := (table.receive delivery, none)

/-- The values of the first column with that name, unless a row is too short to have one. -/
def column? (table : Trajectory) (name : String) : Option (List Float) := do
  let index ← table.columns.findIdx? (· = name)
  table.rows.toList.mapM fun row => row[index]?

/-- The row that was received last. -/
def last? (table : Trajectory) : Option (List Float) :=
  table.rows.back?

end Trajectory

end EulerFlow
