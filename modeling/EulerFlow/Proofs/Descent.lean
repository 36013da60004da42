import EulerFlow.Proofs.Derivation
import Mathlib.Logic.Relation

namespace EulerFlow.Grammar

/-- What a routine of the parser hands back: one expression, or the arguments of a call. -/
inductive Yield where
  | tree
  | trees

/-- What is handed back in the end. -/
abbrev Yield.Value : Yield → Type
  | .tree => Expr
  | .trees => List Expr

/-- The routines of the parser. Each reads the phrase of its name, the one for signs what stands behind the check of
the nesting. -/
inductive Routine : Yield → Type where
  | chain (rank : Rank) : Routine .tree
  | unary : Routine .tree
  | signed : Routine .tree
  | power : Routine .tree
  | primary : Routine .tree
  | arguments : Routine .trees

/-- The routine for terms, which is that for chains of unary phrases. -/
abbrev Routine.term : Routine .tree := .chain .product

/-- The routine for expressions, which is that for chains of terms. -/
abbrev Routine.expression : Routine .tree := .chain .sum

/-- The routine for the operands of a chain. -/
def Rank.operandRoutine : Rank → Routine .tree
  | .sum => .term
  | .product => .unary

/-- A call that waits for the one it has made, with what it has read so far. There is one for each place where a
routine calls another. -/
inductive Waiting : {x y : Yield} → Routine x → Routine y → Type where
  | operand (rank : Rank) (before : Option (Expr × String)) : Waiting (.chain rank) rank.operandRoutine
  | level : Waiting .unary .signed
  | sign (op : String) : Waiting .signed .unary
  | unsigned : Waiting .signed .power
  | base : Waiting .power .primary
  | exponent (base : Expr) : Waiting .power .unary
  | call (name : String) : Waiting .primary .arguments
  | group : Waiting .primary .expression
  | argument (done : List Expr) : Waiting .arguments .expression

/-- The calls that wait, the latest first: each waits for the one before it, and the last is the outermost. -/
inductive Calls {z : Yield} (outermost : Routine z) : {y : Yield} → Routine y → Type where
  | none : Calls outermost outermost
  | wait {x y : Yield} {own : Routine x} {awaited : Routine y} (latest : Waiting own awaited)
      (others : Calls outermost own) : Calls outermost awaited

/-- A routine has just been called, or is about to return. -/
inductive Turn (y : Yield) where
  | enter
  | leave (result : Except ParseError y.Value)

/-- The parser at one moment: the number of tokens consumed, the counter of levels, the routine at work and the calls
that wait for it. -/
structure Machine {z : Yield} (outermost : Routine z) where
  pos : Nat
  depth : Nat
  {yield : Yield}
  routine : Routine yield
  calls : Calls outermost routine
  turn : Turn yield

namespace Machine

variable {z : Yield} {outermost : Routine z}

/-- What a routine does from its call to the first call it makes itself, or to its return. -/
def begin (tokens : List Token) (pos depth : Nat) : {y : Yield} → (routine : Routine y) → Calls outermost routine →
    Machine outermost
  | _, .chain rank, calls => ⟨pos, depth, rank.operandRoutine, .wait (.operand rank none) calls, .enter⟩
  | _, .unary, calls =>
    if depth ≥ maxDepth then ⟨pos, depth, .unary, calls, .leave (.error .tooDeep)⟩
    else ⟨pos, depth + 1, .signed, .wait .level calls, .enter⟩
  | _, .signed, calls =>
    match tokens[pos]? with
    | some .minus => ⟨pos + 1, depth, .unary, .wait (.sign "-") calls, .enter⟩
    | some .plus => ⟨pos + 1, depth, .unary, .wait (.sign "+") calls, .enter⟩
    | _ => ⟨pos, depth, .power, .wait .unsigned calls, .enter⟩
  | _, .power, calls => ⟨pos, depth, .primary, .wait .base calls, .enter⟩
  | _, .primary, calls =>
    match tokens[pos]? with
    | none => ⟨pos, depth, .primary, calls, .leave (.error .unexpectedEnd)⟩
    | some (.number value) => ⟨pos + 1, depth, .primary, calls, .leave (.ok (.constant value))⟩
    | some (.identifier name) =>
      match tokens[pos + 1]? with
      | some .opening => ⟨pos + 1 + 1, depth, .arguments, .wait (.call name) calls, .enter⟩
      | _ => ⟨pos + 1, depth, .primary, calls, .leave (.ok (.symbol name))⟩
    | some .opening => ⟨pos + 1, depth, .expression, .wait .group calls, .enter⟩
    | some t => ⟨pos + 1, depth, .primary, calls, .leave (.error (.expected .operand t))⟩
  | _, .arguments, calls =>
    match tokens[pos]? with
    | some .closing => ⟨pos + 1, depth, .arguments, calls, .leave (.ok [])⟩
    | _ => ⟨pos, depth, .expression, .wait (.argument []) calls, .enter⟩

/-- An operand behind what a chain has read before it. -/
def joined : Option (Expr × String) → Expr → Expr
  | none, operand => operand
  | some (left, op), operand => .binary left op operand

/-- An error is handed on; only a value is gone on with. -/
def orLeave {x y : Yield} (pos depth : Nat) (own : Routine y) (calls : Calls outermost own)
    (result : Except ParseError x.Value) (goOn : x.Value → Machine outermost) : Machine outermost :=
  match result with
  | .error fault => ⟨pos, depth, own, calls, .leave (.error fault)⟩
  | .ok value => goOn value

/-- What a waiting call does with the result that it has waited for, up to its next call or its return. -/
def resume (tokens : List Token) (pos depth : Nat) {x y : Yield} {own : Routine x} {awaited : Routine y}
    (latest : Waiting own awaited) (calls : Calls outermost own) (result : Except ParseError y.Value) :
    Machine outermost :=
  match latest with
  | .operand rank before => orLeave pos depth _ calls result fun operand =>
    match tokens[pos]?.bind rank.op? with
    | some op =>
      ⟨pos + 1, depth, rank.operandRoutine, .wait (.operand rank (some (joined before operand, op))) calls, .enter⟩
    | none => ⟨pos, depth, .chain rank, calls, .leave (.ok (joined before operand))⟩
  | .level => ⟨pos, depth - 1, .unary, calls, .leave result⟩
  | .sign op => orLeave pos depth _ calls result fun operand =>
    ⟨pos, depth, .signed, calls, .leave (.ok (.unary op operand))⟩
  | .unsigned => ⟨pos, depth, .signed, calls, .leave result⟩
  | .base => orLeave pos depth _ calls result fun base =>
    match tokens[pos]? with
    | some .caret => ⟨pos + 1, depth, .unary, .wait (.exponent base) calls, .enter⟩
    | _ => ⟨pos, depth, .power, calls, .leave (.ok base)⟩
  | .exponent base => orLeave pos depth _ calls result fun exponent =>
    ⟨pos, depth, .power, calls, .leave (.ok (.binary base "^" exponent))⟩
  | .call name => orLeave pos depth _ calls result fun args =>
    ⟨pos, depth, .primary, calls, .leave (.ok (.call name args))⟩
  | .group => orLeave pos depth _ calls result fun inner =>
    match tokens[pos]? with
    | some .closing => ⟨pos + 1, depth, .primary, calls, .leave (.ok inner)⟩
    | some t => ⟨pos + 1, depth, .primary, calls, .leave (.error (.expected .closing t))⟩
    | none => ⟨pos, depth, .primary, calls, .leave (.error .unexpectedEnd)⟩
  | .argument done => orLeave pos depth _ calls result fun arg =>
    match tokens[pos]? with
    | some .comma => ⟨pos + 1, depth, .expression, .wait (.argument (done ++ [arg])) calls, .enter⟩
    | some .closing => ⟨pos + 1, depth, .arguments, calls, .leave (.ok (done ++ [arg]))⟩
    | some t => ⟨pos + 1, depth, .arguments, calls, .leave (.error (.expected .commaOrClosing t))⟩
    | none => ⟨pos, depth, .arguments, calls, .leave (.error .unexpectedEnd)⟩

/-- The next moment, unless the outermost call returns. -/
def next? (tokens : List Token) : Machine outermost → Option (Machine outermost)
  | ⟨pos, depth, routine, calls, .enter⟩ => some (begin tokens pos depth routine calls)
  | ⟨_, _, _, .none, .leave _⟩ => none
  | ⟨pos, depth, _, .wait latest others, .leave result⟩ => some (resume tokens pos depth latest others result)

end Machine

/-- The levels that a waiting call has raised the counter by and will lower it by again. -/
def Waiting.levels {x y : Yield} {own : Routine x} {awaited : Routine y} : Waiting own awaited → Nat
  | .level => 1
  | _ => 0

namespace Calls

variable {z : Yield} {outermost : Routine z}

/-- How many calls wait. -/
def length : {y : Yield} → {routine : Routine y} → Calls outermost routine → Nat
  | _, _, .none => 0
  | _, _, .wait _ others => others.length + 1

/-- How many of the waiting calls have passed the check of the nesting. -/
def levels : {y : Yield} → {routine : Routine y} → Calls outermost routine → Nat
  | _, _, .none => 0
  | _, _, .wait latest others => others.levels + latest.levels

end Calls

/-- The routines in the order in which they call one another between two checks of the nesting. -/
def Routine.place : {y : Yield} → Routine y → Nat
  | _, .signed => 1
  | _, .power => 2
  | _, .primary => 3
  | _, .arguments => 4
  | _, .chain .sum => 5
  | _, .chain .product => 6
  | _, .unary => 7

/-- Every call goes to a later place but the one behind the check: no cycle of calls leaves the check out. -/
theorem Waiting.place_lt {x y : Yield} {own : Routine x} {awaited : Routine y} (latest : Waiting own awaited) :
    own.place < awaited.place + 7 * latest.levels := by
  cases latest with
  | operand rank before => cases rank <;> simp [Routine.place, Rank.operandRoutine, levels]
  | _ => simp [Routine.place, levels]

theorem Routine.place_pos {y : Yield} (routine : Routine y) : 0 < routine.place := by
  cases routine with
  | chain rank => cases rank <;> decide
  | _ => decide

/-- There are seven routines, and so seven places. -/
theorem Routine.place_le {y : Yield} (routine : Routine y) : routine.place ≤ 7 := by
  cases routine with
  | chain rank => cases rank <;> decide
  | _ => decide

/-- Between two checks the places only grow, so seven calls at most come for each level. -/
theorem Calls.length_le {z : Yield} {outermost : Routine z} {y : Yield} {routine : Routine y}
    (calls : Calls outermost routine) : calls.length + outermost.place ≤ routine.place + 7 * calls.levels := by
  induction calls with
  | none => simp [length, levels]
  | wait latest others ih =>
    have later := latest.place_lt
    simp only [length, levels]
    omega

namespace Machine

variable {z : Yield} {outermost : Routine z} {tokens : List Token} {depth : Nat}

/-- The calls that have begun and not returned. -/
def active (m : Machine outermost) : Nat :=
  m.calls.length + 1

/-- What holds at every moment since the outermost call was made at the given depth. -/
structure Balanced (tokens : List Token) (depth : Nat) (m : Machine outermost) : Prop where
  within : m.pos ≤ tokens.length
  levels : m.depth = depth + m.calls.levels
  shallow : m.depth ≤ maxDepth

/-- Every level that is in use is still to be left, so that the levels bound the calls that are active. -/
theorem Balanced.active_le {m : Machine outermost} (balanced : m.Balanced tokens depth) :
    m.active ≤ 7 * (maxDepth - depth + 1) := by
  -- At most seven calls fit between two checks, and there are as many checks as levels are left.
  have bound := m.calls.length_le
  have last := m.routine.place_le
  have first := outermost.place_pos
  have levels := balanced.levels
  have shallow := balanced.shallow
  rw [active]
  omega

theorem passed_le {pos : Nat} {t : Token} (here : tokens[pos]? = some t) : pos + 1 ≤ tokens.length :=
  (List.getElem?_eq_some_iff.mp here).1

/-- Only the check of the nesting raises the counter, and it does so for the call that will lower it. -/
theorem balanced_begin {pos level : Nat} {y : Yield} (routine : Routine y) (calls : Calls outermost routine)
    (within : pos ≤ tokens.length) (levels : level = depth + calls.levels) (shallow : level ≤ maxDepth) :
    (begin tokens pos level routine calls).Balanced tokens depth := by
  cases routine with
  | chain rank => exact ⟨within, levels, shallow⟩
  | unary =>
    rw [begin]
    split
    · exact ⟨within, levels, shallow⟩
    · rename_i room
      refine ⟨within, ?_, Nat.lt_of_not_ge room⟩
      simp only [Calls.levels, Waiting.levels, levels, Nat.add_assoc]
  | signed =>
    rw [begin]
    split
    · exact ⟨passed_le ‹_›, levels, shallow⟩
    · exact ⟨passed_le ‹_›, levels, shallow⟩
    · exact ⟨within, levels, shallow⟩
  | power => exact ⟨within, levels, shallow⟩
  | primary =>
    rw [begin]
    split
    · exact ⟨within, levels, shallow⟩
    · exact ⟨passed_le ‹_›, levels, shallow⟩
    · rename_i here
      split
      · exact ⟨passed_le ‹_›, levels, shallow⟩
      · exact ⟨passed_le here, levels, shallow⟩
    · exact ⟨passed_le ‹_›, levels, shallow⟩
    · exact ⟨passed_le ‹_›, levels, shallow⟩
  | arguments =>
    rw [begin]
    split
    · exact ⟨passed_le ‹_›, levels, shallow⟩
    · exact ⟨within, levels, shallow⟩

theorem balanced_orLeave {pos level : Nat} {x y : Yield} {own : Routine y} {calls : Calls outermost own}
    {result : Except ParseError x.Value} {goOn : x.Value → Machine outermost} (within : pos ≤ tokens.length)
    (levels : level = depth + calls.levels) (shallow : level ≤ maxDepth)
    (goesOn : ∀ value, (goOn value).Balanced tokens depth) :
    (orLeave pos level own calls result goOn).Balanced tokens depth := by
  cases result with
  | error fault => exact ⟨within, levels, shallow⟩
  | ok value => exact goesOn value

/-- Only the call that has raised the counter lowers it. -/
theorem balanced_resume {pos level : Nat} {x y : Yield} {own : Routine x} {awaited : Routine y}
    (latest : Waiting own awaited) (calls : Calls outermost own) (result : Except ParseError y.Value)
    (within : pos ≤ tokens.length) (levels : level = depth + (calls.levels + latest.levels))
    (shallow : level ≤ maxDepth) : (resume tokens pos level latest calls result).Balanced tokens depth := by
  cases latest with
  | level =>
    refine ⟨within, ?_, Nat.le_trans (Nat.sub_le ..) shallow⟩
    rw [levels]
    rfl
  | unsigned => exact ⟨within, levels, shallow⟩
  | operand rank before =>
    refine balanced_orLeave within levels shallow fun operand => ?_
    cases peek : tokens[pos]? with
    | none => exact ⟨within, levels, shallow⟩
    | some t =>
      simp only [Option.bind_some]
      split
      · exact ⟨passed_le peek, levels, shallow⟩
      · exact ⟨within, levels, shallow⟩
  | sign op => exact balanced_orLeave within levels shallow fun operand => ⟨within, levels, shallow⟩
  | base =>
    refine balanced_orLeave within levels shallow fun base => ?_
    split
    · exact ⟨passed_le ‹_›, levels, shallow⟩
    · exact ⟨within, levels, shallow⟩
  | exponent base => exact balanced_orLeave within levels shallow fun exponent => ⟨within, levels, shallow⟩
  | call name => exact balanced_orLeave within levels shallow fun args => ⟨within, levels, shallow⟩
  | group =>
    refine balanced_orLeave within levels shallow fun inner => ?_
    split
    · exact ⟨passed_le ‹_›, levels, shallow⟩
    · exact ⟨passed_le ‹_›, levels, shallow⟩
    · exact ⟨within, levels, shallow⟩
  | argument done =>
    refine balanced_orLeave within levels shallow fun arg => ?_
    split
    · exact ⟨passed_le ‹_›, levels, shallow⟩
    · exact ⟨passed_le ‹_›, levels, shallow⟩
    · exact ⟨passed_le ‹_›, levels, shallow⟩
    · exact ⟨within, levels, shallow⟩

theorem Balanced.next {m after : Machine outermost} (balanced : m.Balanced tokens depth)
    (next : m.next? tokens = some after) : after.Balanced tokens depth := by
  obtain ⟨pos, level, routine, calls, turn⟩ := m
  obtain ⟨within, levels, shallow⟩ := balanced
  cases turn with
  | enter =>
    cases next
    exact balanced_begin routine calls within levels shallow
  | leave result =>
    cases calls with
    | none => cases next
    | wait latest others =>
      cases next
      exact balanced_resume latest others result within levels shallow

/-- One moment comes after another. -/
def Reaches (tokens : List Token) : Machine outermost → Machine outermost → Prop :=
  Relation.ReflTransGen fun m after => m.next? tokens = some after

/-- What one moment hands to the next holds all along a run. -/
theorem Balanced.reaches {m after : Machine outermost} (balanced : m.Balanced tokens depth)
    (reaches : m.Reaches tokens after) : after.Balanced tokens depth := by
  induction reaches with
  | refl => exact balanced
  | tail _ next ih => exact ih.next next

end Machine

section

variable {z w : Yield} {outermost : Routine z} {root : Routine w}

/-- The same calls where the outermost one has been made by others, which wait as well. -/
def Calls.onto : {y : Yield} → {routine : Routine y} → Calls outermost routine → Calls root outermost →
    Calls root routine
  | _, _, .none, below => below
  | _, _, .wait latest others, below => .wait latest (others.onto below)

namespace Machine

/-- The same moment with other calls below the outermost one. -/
def onto (m : Machine outermost) (below : Calls root outermost) : Machine root :=
  ⟨m.pos, m.depth, m.routine, m.calls.onto below, m.turn⟩

variable {tokens : List Token} (below : Calls root outermost)

theorem begin_onto {pos depth : Nat} {y : Yield} (routine : Routine y) (calls : Calls outermost routine) :
    begin tokens pos depth routine (calls.onto below) = (begin tokens pos depth routine calls).onto below := by
  cases routine with
  | chain rank => rfl
  | unary =>
    rw [begin, begin]
    split <;> rfl
  | signed =>
    rw [begin, begin]
    split <;> rfl
  | power => rfl
  | primary =>
    rw [begin, begin]
    split
    · rfl
    · rfl
    · split <;> rfl
    · rfl
    · rfl
  | arguments =>
    rw [begin, begin]
    split <;> rfl

theorem orLeave_onto {pos depth : Nat} {x y : Yield} {own : Routine y} (calls : Calls outermost own)
    (result : Except ParseError x.Value) {goOn : x.Value → Machine outermost} {goOn' : x.Value → Machine root}
    (same : ∀ value, goOn' value = (goOn value).onto below) :
    orLeave pos depth own (calls.onto below) result goOn' = (orLeave pos depth own calls result goOn).onto below := by
  cases result with
  | error fault => rfl
  | ok value => exact same value

theorem resume_onto {pos depth : Nat} {x y : Yield} {own : Routine x} {awaited : Routine y}
    (latest : Waiting own awaited) (calls : Calls outermost own) (result : Except ParseError y.Value) :
    resume tokens pos depth latest (calls.onto below) result =
      (resume tokens pos depth latest calls result).onto below := by
  cases latest with
  | level => rfl
  | unsigned => rfl
  | sign op => exact orLeave_onto below calls result fun operand => rfl
  | exponent base => exact orLeave_onto below calls result fun exponent => rfl
  | call name => exact orLeave_onto below calls result fun args => rfl
  | _ =>
    refine orLeave_onto below calls result fun value => ?_
    split <;> rfl

theorem next?_onto {m after : Machine outermost} (next : m.next? tokens = some after) :
    (m.onto below).next? tokens = some (after.onto below) := by
  obtain ⟨pos, depth, routine, calls, turn⟩ := m
  cases turn with
  | enter =>
    cases next
    exact congrArg some (begin_onto below routine calls)
  | leave result =>
    cases calls with
    | none => cases next
    | wait latest others =>
      cases next
      exact congrArg some (resume_onto below latest others result)

/-- What a routine does, up to its return, does not depend on the calls that wait for it. -/
theorem Reaches.onto {m after : Machine outermost} (reaches : m.Reaches tokens after) (below : Calls root outermost) :
    (m.onto below).Reaches tokens (after.onto below) := by
  refine reaches.lift (·.onto below) fun m after next => ?_
  exact next?_onto below next

end Machine

end

end EulerFlow.Grammar
