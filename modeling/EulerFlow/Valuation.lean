import EulerFlow.Expr.EvalError

namespace EulerFlow

/-- The name of the clock. -/
def clock : String := "t"

/-- The current value of every defined name, in order of definition. No name
occurs twice, and the clock is always among them. -/
structure Valuation where
  entries : List (String × Float)
  distinct : (entries.map Prod.fst).Nodup
  clocked : clock ∈ entries.map Prod.fst

namespace Valuation

/-- Nothing is defined but the clock, at zero. -/
def initial : Valuation where
  entries := [(clock, 0)]
  distinct := by simp
  clocked := by simp

/-- The defined names, in order of definition. -/
def names (v : Valuation) : List String :=
  v.entries.map Prod.fst

/-- The name is defined. -/
def contains (v : Valuation) (name : String) : Bool :=
  v.names.contains name

/-- The value of a name, if it is defined. -/
def get? (v : Valuation) (name : String) : Option Float :=
  v.entries.lookup name

/-- The value of a name, which must be defined. -/
def get (v : Valuation) (name : String) : Except EvalError Float :=
  match v.get? name with
  | some value => .ok value
  | none => .error (.undefinedVariable name)

/-- Gives every entry of that name the value; the other entries and the order stay. -/
def overwrite (v : Valuation) (name : String) (value : Float) : Valuation where
  entries := v.entries.map fun e => (e.1, if e.1 = name then value else e.2)
  distinct := by simpa [Function.comp_def] using v.distinct
  clocked := by simpa [Function.comp_def] using v.clocked

/-- Defines a new name, behind all others. -/
def define (v : Valuation) (name : String) (value : Float) (fresh : name ∉ v.names) : Valuation where
  entries := v.entries ++ [(name, value)]
  distinct := by
    rw [List.map_append, List.nodup_append]
    refine ⟨v.distinct, by simp, ?_⟩
    intro a old b new same
    simp only [List.map_cons, List.map_nil, List.mem_singleton] at new
    exact fresh (new ▸ same ▸ old)
  clocked := by
    rw [List.map_append]
    exact List.mem_append_left _ v.clocked

/-- Writes the value, whether or not the name was defined. -/
def set (v : Valuation) (name : String) (value : Float) : Valuation :=
  if fresh : name ∉ v.names then v.define name value fresh else v.overwrite name value

/-- Defines the name as zero, unless it is defined already, and tells whether it was new. -/
def declare (v : Valuation) (name : String) : Valuation × Bool :=
  if fresh : name ∉ v.names then (v.define name 0 fresh, true) else (v, false)

/-- Adds to the value of a defined name, and tells the new value. -/
def add (v : Valuation) (name : String) (delta : Float) : Except EvalError (Valuation × Float) :=
  match v.get? name with
  | some value => .ok (v.overwrite name (value + delta), value + delta)
  | none => .error (.undefinedVariable name)

/-- The value of the clock. It always has one. -/
def time (v : Valuation) : Float :=
  (v.get? clock).getD 0

/-- Sets the clock. -/
def setTime (v : Valuation) (t : Float) : Valuation :=
  v.set clock t

/-- The number of defined names. -/
def size (v : Valuation) : Nat :=
  v.entries.length

/-- No name is defined. This never holds, because the clock always is. -/
def isEmpty (v : Valuation) : Bool :=
  v.entries.isEmpty

end Valuation

end EulerFlow
