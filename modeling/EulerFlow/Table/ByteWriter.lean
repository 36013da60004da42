import EulerFlow.Table.TextTable

namespace EulerFlow

/-- A text as the bytes that are written for it. -/
def octets (text : String) : List UInt8 :=
  text.toByteArray.data.toList

/-- The first bytes, as far as there is room for them. -/
def keep (capacity : Option Nat) (bytes : List UInt8) : List UInt8 :=
  match capacity with
  | none => bytes
  | some room => bytes.take room

/-- Bytes that do not all fit are refused. -/
def refusal? (capacity : Option Nat) (bytes : List UInt8) : Option Refusal :=
  match capacity with
  | none => none
  | some room => if room < bytes.length then some .writerFull else none

theorem keep_keep (capacity : Option Nat) (bytes : List UInt8) :
    keep capacity (keep capacity bytes) = keep capacity bytes := by
  cases capacity with
  | none => rfl
  | some room => rw [keep, keep, List.take_take, Nat.min_self]

/-- A writer of bytes, in room for a limited number of them if a capacity is given. -/
@[ext] structure ByteWriter where
  capacity : Option Nat
  bytes : List UInt8
  fits : keep capacity bytes = bytes

namespace ByteWriter

/-- Nothing is written yet. -/
def empty (capacity : Option Nat) : ByteWriter where
  capacity := capacity
  bytes := []
  fits := by cases capacity <;> simp [keep]

/-- Of a piece that does not fit, the first bytes are written. -/
def write (w : ByteWriter) (piece : String) : ByteWriter × Option Refusal :=
  let all := w.bytes ++ octets piece
  (⟨w.capacity, keep w.capacity all, keep_keep ..⟩, refusal? w.capacity all)

/-- Writes pieces one after the other, up to the first that is refused. -/
def writeAll (w : ByteWriter) : List String → ByteWriter × Option Refusal
  | [] => (w, none)
  | piece :: pieces =>
    match w.write piece with
    | (w, some refusal) => (w, some refusal)
    | (w, none) => w.writeAll pieces

end ByteWriter

/-- The pieces in which a line is written: the names of the columns at once, but the values one by one
with a space before each but the first. -/
def Delivery.pieces : Delivery → List String
  | .header columns => [" ".intercalate columns, "\n"]
  | .row values => (values.map Decimal.text).intersperse " " ++ ["\n"]

instance : Receiver ByteWriter where
  receive w d := w.writeAll d.pieces

end EulerFlow
