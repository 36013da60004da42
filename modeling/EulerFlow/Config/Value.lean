namespace EulerFlow.Config

/-- A value of a configuration, whatever format it was written in. -/
inductive Value where
  | null
  | bool (b : Bool)
  | integer (n : Int)
  | float (x : Float)
  /-- A number that is too large for any type of number. Nobody can read it, not even to ignore it. -/
  | overflow
  | text (s : String)
  /-- A date, a time of day or both. -/
  | moment
  | list (items : List Value)
  | table (fields : List (String × Value))

namespace Value

mutual

/-- All the numbers in a value are within range. -/
def isReadable : Value → Bool
  | .overflow => false
  | .list items => areReadable items
  | .table fields => fieldsReadable fields
  | _ => true

/-- All the numbers in a list of values are within range. -/
def areReadable : List Value → Bool
  | [] => true
  | item :: items => item.isReadable && areReadable items

/-- All the numbers in the fields of a table are within range. -/
def fieldsReadable : List (String × Value) → Bool
  | [] => true
  | (_, value) :: fields => value.isReadable && fieldsReadable fields

end

/-- A number, whole or not. Whole numbers are read within the range of a signed or an
unsigned word of 64 bits. -/
def number? : Value → Option Float
  | .float x => some x
  | .integer n => if -9223372036854775808 ≤ n ∧ n < 18446744073709551616 then some (Float.ofInt n) else none
  | _ => none

/-- A text. Nothing else is read as one. -/
def text? : Value → Option String
  | .text s => some s
  | _ => none

/-- The fields of a table. Fields other than the known ones are passed over, for which
they must be readable. -/
def record? (known : List String) : Value → Option (List (String × Value))
  | .table fields =>
    if fields.all fun (name, value) => known.contains name || value.isReadable then some fields else none
  | _ => none

/-- Reads a field if it is there, and takes the default if it is missing. -/
def fieldOr {α : Type} (missing : α) (read : Value → Option α) : Option Value → Option α
  | none => some missing
  | some value => read value

end Value

end EulerFlow.Config
