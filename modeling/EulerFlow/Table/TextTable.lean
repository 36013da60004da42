import EulerFlow.Decimal.Written
import EulerFlow.Table.Delivery

namespace EulerFlow

/-- The line of a delivery: its fields with single spaces between them. -/
def Delivery.line (d : Delivery) : String :=
  let fields := match d with
    | .header columns => columns
    | .row values => values.map Decimal.text
  " ".intercalate fields ++ "\n"

/-- A table as text, in room for a limited number of bytes if a capacity is given. What
does not fit is lost, and the delivery that lost some of its line is refused. -/
structure TextTable where
  capacity : Option Nat
  /-- All lines up to the first that did not fit, with that one. -/
  offered : String

namespace TextTable

/-- Nothing is offered yet. -/
def empty (capacity : Option Nat) : TextTable where
  capacity := capacity
  offered := ""

/-- More was offered than there is room for. -/
def overfull (table : TextTable) : Bool :=
  match table.capacity with
  | none => false
  | some room => room < table.offered.utf8ByteSize

/-- Once a line did not fit there is no room for any other: every line has at least one byte. -/
def receive (table : TextTable) (d : Delivery) : TextTable × Option Refusal :=
  if table.overfull then (table, some .writerFull)
  else
    let ⟨capacity, offered⟩ := table
    let table : TextTable := ⟨capacity, offered ++ d.line⟩
    (table, if table.overfull then some .writerFull else none)

instance : Receiver TextTable where
  receive := TextTable.receive

/-- The characters within the first bytes; of one that is cut in two a replacement character shows. -/
def cut : (room : Nat) → List Char → List Char
  | _, [] => []
  | room, c :: cs =>
    if c.utf8Size ≤ room then c :: cut (room - c.utf8Size) cs
    else if room = 0 then []
    else ['\ufffd']

/-- The text that was kept. -/
def kept (table : TextTable) : String :=
  match table.capacity with
  | none => table.offered
  | some room => if table.overfull then String.ofList (cut room table.offered.toList) else table.offered

end TextTable

end EulerFlow
