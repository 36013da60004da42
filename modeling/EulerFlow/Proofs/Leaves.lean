import EulerFlow.Proofs.Agreement

namespace EulerFlow

namespace Expr

/-- What stands directly below the root, from left to right, whatever the operator or function is and whether or not
it takes that many operands. -/
def children : Expr → List Expr
  | .constant _ => []
  | .symbol _ => []
  | .binary left _ right => [left, right]
  | .unary _ operand => [operand]
  | .call _ args => args

/-- The part of an expression at a place. A place is the way down from the root, by the numbers of the children. -/
def at? : Expr → List Nat → Option Expr
  | e, [] => some e
  | e, i :: way => e.children[i]?.bind fun child => child.at? way

/-- Variables with their places in one of several neighbours, as they are seen from above. -/
def lowered (i : Nat) (leaves : List (List Nat × String)) : List (List Nat × String) :=
  leaves.map fun leaf => (i :: leaf.1, leaf.2)

mutual

/-- The variables of an expression with their places. -/
def leaves : Expr → List (List Nat × String)
  | .constant _ => []
  | .symbol name => [([], name)]
  | .binary left _ right => lowered 0 left.leaves ++ lowered 1 right.leaves
  | .unary _ operand => lowered 0 operand.leaves
  | .call _ args => leavesFrom 0 args

/-- The variables of neighbours, the first of which has the given number. -/
def leavesFrom (i : Nat) : List Expr → List (List Nat × String)
  | [] => []
  | e :: es => lowered i e.leaves ++ leavesFrom (i + 1) es

end

variable {e : Expr} {es : List Expr} {i : Nat} {name : String}

theorem child_smaller {child : Expr} (member : child ∈ e.children) : sizeOf child < sizeOf e := by
  cases e with
  | constant value => cases member
  | symbol name => cases member
  | binary left op right =>
    simp only [children, List.mem_cons, List.not_mem_nil, or_false] at member
    rcases member with rfl | rfl <;> simp only [binary.sizeOf_spec] <;> omega
  | unary op operand =>
    simp only [children, List.mem_singleton] at member
    simp only [unary.sizeOf_spec, member]
    omega
  | call name args =>
    have smaller := List.sizeOf_lt_of_mem member
    simp only [call.sizeOf_spec, children] at smaller ⊢
    omega

/-- What an expression inherits from its children holds of every expression. -/
theorem of_children {P : Expr → Prop} (inherits : ∀ e, (∀ child ∈ e.children, P child) → P e) (e : Expr) : P e :=
  inherits e fun child member =>
    have := child_smaller member
    of_children inherits child
termination_by sizeOf e

/-- What is no variable itself has its variables from its children. -/
structure Inner (e : Expr) : Prop where
  notSymbol : ∀ name, e ≠ .symbol name
  symbols : e.symbols = symbolsOf e.children
  leaves : e.leaves = leavesFrom 0 e.children

theorem symbol_or_inner (e : Expr) : (∃ name, e = .symbol name) ∨ e.Inner := by
  cases e with
  | constant value => exact .inr ⟨fun _ => Expr.noConfusion, rfl, rfl⟩
  | symbol name => exact .inl ⟨name, rfl⟩
  | binary left op right =>
    refine .inr ⟨fun _ => Expr.noConfusion, ?_, ?_⟩
    · simp only [symbols, children, symbolsOf, List.append_nil]
    · simp only [leaves, children, leavesFrom, List.append_nil]
  | unary op operand =>
    refine .inr ⟨fun _ => Expr.noConfusion, ?_, ?_⟩
    · simp only [symbols, children, symbolsOf, List.append_nil]
    · simp only [leaves, children, leavesFrom, List.append_nil]
  | call name args => exact .inr ⟨fun _ => Expr.noConfusion, rfl, rfl⟩

theorem mem_lowered {place : List Nat} {leaves : List (List Nat × String)} :
    (place, name) ∈ lowered i leaves ↔ ∃ way, place = i :: way ∧ (way, name) ∈ leaves := by
  simp only [lowered, List.mem_map, Prod.exists, Prod.mk.injEq]
  constructor
  · rintro ⟨way, _, member, rfl, rfl⟩
    exact ⟨way, rfl, member⟩
  · rintro ⟨way, rfl, member⟩
    exact ⟨way, name, member, rfl, rfl⟩

theorem mem_leavesFrom {place : List Nat} : (place, name) ∈ leavesFrom i es ↔
    ∃ k child way, es[k]? = some child ∧ (way, name) ∈ child.leaves ∧ place = (i + k) :: way := by
  induction es generalizing i with
  | nil => simp [leavesFrom]
  | cons e es ih =>
    rw [leavesFrom, List.mem_append, mem_lowered, ih]
    constructor
    · rintro (⟨way, rfl, member⟩ | ⟨k, child, way, found, member, rfl⟩)
      · exact ⟨0, e, way, rfl, member, rfl⟩
      · exact ⟨k + 1, child, way, found, member, by rw [Nat.add_right_comm, Nat.add_assoc]⟩
    · rintro ⟨k, child, way, found, member, rfl⟩
      cases k with
      | zero =>
        cases found
        exact .inl ⟨way, rfl, member⟩
      | succ k => exact .inr ⟨k, child, way, found, member, by rw [Nat.add_right_comm, Nat.add_assoc]⟩

/-- The places of the variables are right, and none is left out. -/
theorem mem_leaves {place : List Nat} : (place, name) ∈ e.leaves ↔ e.at? place = some (.symbol name) := by
  -- Along the way down, so that one child at a time is met; an induction on the expression would have to be mutual.
  induction place generalizing e with
  | nil =>
    rw [at?, Option.some.injEq]
    obtain ⟨other, rfl⟩ | inner := e.symbol_or_inner
    · simp [leaves, eq_comm]
    · simp [inner.leaves, inner.notSymbol, mem_leavesFrom]
  | cons i way ih =>
    obtain ⟨other, rfl⟩ | inner := e.symbol_or_inner
    · simp [leaves, at?, children]
    · rw [inner.leaves, mem_leavesFrom, at?, Option.bind_eq_some_iff]
      simp only [Nat.zero_add, List.cons.injEq]
      constructor
      · rintro ⟨_, child, _, found, member, rfl, rfl⟩
        exact ⟨child, found, ih.mp member⟩
      · rintro ⟨child, found, symbol⟩
        exact ⟨i, child, way, found, ih.mpr symbol, rfl, rfl⟩

theorem names_leavesFrom (names : ∀ e ∈ es, e.leaves.map Prod.snd = e.symbols) :
    (leavesFrom i es).map Prod.snd = symbolsOf es := by
  induction es generalizing i with
  | nil => rfl
  | cons e es ih =>
    obtain ⟨first, others⟩ := List.forall_mem_cons.mp names
    rw [leavesFrom, symbolsOf, List.map_append, ih others, ← first, lowered, List.map_map]
    rfl

theorem names_leaves (e : Expr) : e.leaves.map Prod.snd = e.symbols := by
  induction e using of_children with
  | inherits e ih =>
    obtain ⟨name, rfl⟩ | inner := e.symbol_or_inner
    · rfl
    · rw [inner.leaves, inner.symbols, names_leavesFrom ih]

/-- Whatever stands below an earlier child comes first. -/
theorem leavesFrom_sorted (sorted : ∀ e ∈ es, e.leaves.Pairwise fun a b => a.1 < b.1) :
    (leavesFrom i es).Pairwise fun a b => a.1 < b.1 := by
  induction es generalizing i with
  | nil => exact .nil
  | cons e es ih =>
    obtain ⟨first, others⟩ := List.forall_mem_cons.mp sorted
    rw [leavesFrom, List.pairwise_append]
    refine ⟨?_, ih others, ?_⟩
    · rw [lowered, List.pairwise_map]
      exact first.imp fun before => List.cons_lt_cons_iff.mpr (.inr ⟨rfl, before⟩)
    · rintro ⟨place, name⟩ member ⟨later, other⟩ behind
      obtain ⟨way, rfl, _⟩ := mem_lowered.mp member
      obtain ⟨k, child, way', _, _, rfl⟩ := mem_leavesFrom.mp behind
      exact List.cons_lt_cons_iff.mpr (.inl (by omega))

theorem leaves_sorted (e : Expr) : e.leaves.Pairwise fun a b => a.1 < b.1 := by
  induction e using of_children with
  | inherits e ih =>
    obtain ⟨name, rfl⟩ | inner := e.symbol_or_inner
    · exact List.pairwise_singleton _ _
    · rw [inner.leaves]
      exact leavesFrom_sorted ih

/-- The reported symbols are those that stand at the leaves, each as often as it stands there and in the order of the
places: what is below an earlier child comes first, under any operator and in the arguments of any function. Nothing
else enters into a value or an error: two valuations in which the same of these symbols are defined, with the same
values, give the same outcome. -/
theorem symbols_cover_evaluation (e : Expr) :
    (∃ leaves : List (List Nat × String), leaves.map Prod.snd = e.symbols ∧
      (leaves.Pairwise fun a b => a.1 < b.1) ∧
      ∀ place name, (place, name) ∈ leaves ↔ e.at? place = some (.symbol name)) ∧
      ∀ v w : Valuation, v.Agree (· ∈ e.symbols) w → e.eval v = e.eval w :=
  ⟨⟨e.leaves, e.names_leaves, e.leaves_sorted, fun _ _ => mem_leaves⟩, fun _ _ agree => eval_agree agree⟩

/-- Evaluation stops at the unknown function, and its arguments are reported all the same. -/
example : let e : Expr := .binary (.call "tan" [.symbol "x", .unary "!" (.symbol "y")]) "%" (.symbol "x")
    e.symbols = ["x", "y", "x"] ∧ e.eval .initial = .error (.unknownFunction "tan") :=
  ⟨rfl, rfl⟩

end Expr

end EulerFlow
