import EulerFlow.Proofs.Faults

namespace EulerFlow

namespace Expr

/-- The value that the operations of the vocabulary give an expression, from its leaves upwards. -/
inductive Denotes (v : Valuation) : Expr → Float → Prop
  | constant (x : Float) : Denotes v (.constant x) x
  | symbol {name x} : v.get? name = some x → Denotes v (.symbol name) x
  | binary {left op right known a b} : Denotes v left a → Denotes v right b → BinaryOp.ofSymbol? op = some known →
      Denotes v (.binary left op right) (known.apply a b)
  | unary {op operand known a} : Denotes v operand a → UnaryOp.ofSymbol? op = some known →
      Denotes v (.unary op operand) (known.apply a)
  | call {name arg known a} : NamedFunction.ofName? name = some known → Denotes v arg a →
      Denotes v (.call name [arg]) (known.apply a)

theorem eval_ok_iff {v : Valuation} {e : Expr} {x : Float} : e.eval v = .ok x ↔ e.Denotes v x := by
  constructor
  · intro found
    fun_induction Expr.eval v e generalizing x with
    | case1 value =>
      cases found
      exact .constant value
    | case2 name =>
      rw [Valuation.get] at found
      split at found
      · rename_i value here
        cases found
        exact .symbol here
      · cases found
    | case5 left op right a foundLeft b foundRight known named ihLeft ihRight =>
      cases found
      exact .binary (ihLeft foundLeft) (ihRight foundRight) named
    | case8 op operand a evaluated known named ih =>
      cases found
      exact .unary (ih evaluated) named
    | case12 name known named arg a evaluated ih =>
      cases found
      exact .call named (ih evaluated)
    | _ => cases found
  · intro denotes
    induction denotes with
    | constant x => rfl
    | symbol here => rw [eval, Valuation.get, here]
    | binary _ _ named ihLeft ihRight =>
      rw [eval, ihLeft]
      simp only [ihRight, named]
    | unary _ named ih =>
      rw [eval, ih]
      simp only [named]
    | call named _ ih =>
      rw [eval, named]
      simp only [ih]

/-- Evaluation that takes the first argument of a call as soon as the number of arguments is that of the function,
without a look at whether there is one. Where there is none to take, it has no outcome at all. -/
def evalUnchecked (v : Valuation) : Expr → Option (Except EvalError Float)
  | .constant value => some (.ok value)
  | .symbol name => some (v.get name)
  | .binary left op right =>
    match left.evalUnchecked v with
    | some (.ok a) =>
      match right.evalUnchecked v with
      | some (.ok b) =>
        match BinaryOp.ofSymbol? op with
        | some known => some (.ok (known.apply a b))
        | none => some (.error (.unknownOperator .binary op))
      | stopped => stopped
    | stopped => stopped
  | .unary op operand =>
    match operand.evalUnchecked v with
    | some (.ok a) =>
      match UnaryOp.ofSymbol? op with
      | some known => some (.ok (known.apply a))
      | none => some (.error (.unknownOperator .unary op))
    | stopped => stopped
  | .call name args =>
    match NamedFunction.ofName? name with
    | none => some (.error (.unknownFunction name))
    | some known =>
      if args.length ≠ known.arity then some (.error (.arityMismatch name known.arity args.length))
      else
        match args with
        | [] => none
        | arg :: _ =>
          match arg.evalUnchecked v with
          | some (.ok a) => some (.ok (known.apply a))
          | stopped => stopped

/-- The number of arguments is enough of a check: no function takes none. -/
theorem evalUnchecked_eq (v : Valuation) (e : Expr) : e.evalUnchecked v = some (e.eval v) := by
  fun_induction Expr.eval v e with
  | case1 value => rfl
  | case2 name => rfl
  | case3 left op right fault failed ih =>
    rw [failed] at ih
    simp only [evalUnchecked, ih]
  | case4 left op right a found fault failed ihLeft ih =>
    rw [found] at ihLeft
    rw [failed] at ih
    simp only [evalUnchecked, ihLeft, ih]
  | case5 left op right a foundLeft b found known named ihLeft ih =>
    rw [foundLeft] at ihLeft
    rw [found] at ih
    simp only [evalUnchecked, ihLeft, ih, named]
  | case6 left op right a foundLeft b found unknown ihLeft ih =>
    rw [foundLeft] at ihLeft
    rw [found] at ih
    simp only [evalUnchecked, ihLeft, ih, unknown]
  | case7 op operand fault failed ih =>
    rw [failed] at ih
    simp only [evalUnchecked, ih]
  | case8 op operand a found known named ih =>
    rw [found] at ih
    simp only [evalUnchecked, ih, named]
  | case9 op operand a found unknown ih =>
    rw [found] at ih
    simp only [evalUnchecked, ih, unknown]
  | case10 name args unknown => simp only [evalUnchecked, unknown]
  | case11 name known named arg fault failed ih =>
    rw [failed] at ih
    have counted : [arg].length = known.arity := rfl
    simp only [evalUnchecked, named, counted, ne_eq, not_true_eq_false, if_false, ih]
  | case12 name known named arg a found ih =>
    rw [found] at ih
    have counted : [arg].length = known.arity := rfl
    simp only [evalUnchecked, named, counted, ne_eq, not_true_eq_false, if_false, ih]
  | case13 name args known named other =>
    -- what is not one argument does not pass the check of their number
    have miscounted : args.length ≠ known.arity := by
      intro counted
      obtain ⟨arg, rfl⟩ := List.length_eq_one_iff.mp counted
      exact other arg rfl
    simp only [evalUnchecked, named, if_pos miscounted]

/-- The faults of a call by the number of its arguments: one argument is as many as any function takes. -/
theorem faults_call (names : List String) (name : String) (args : List Expr) :
    (Expr.call name args).faults names =
      match NamedFunction.ofName? name with
      | none => [.unknownFunction name]
      | some known =>
        if args.length ≠ known.arity then [.arityMismatch name known.arity args.length]
        else args.flatMap (·.faults names) := by
  rw [faults.eq_def]
  simp only
  cases NamedFunction.ofName? name with
  | none => rfl
  | some known =>
    rcases args with _ | ⟨arg, _ | ⟨second, others⟩⟩
    · rfl
    · exact (List.append_nil _).symm
    · exact (if_pos (by simp [NamedFunction.arity])).symm

end Expr

/-- An expression has a value exactly if it has no fault; otherwise the first of its faults from left to right is its
error. The value is that of the operations applied from the leaves upwards, and no argument is taken that is not there. -/
theorem first_fault_decides (v : Valuation) (e : Expr) :
    ((∃ x, e.eval v = .ok x) ↔ e.faults v.names = []) ∧
      (∀ fault, e.eval v = .error fault ↔ (e.faults v.names).head? = some fault) ∧
      (∀ x, e.eval v = .ok x ↔ e.Denotes v x) ∧
      e.evalUnchecked v = some (e.eval v) :=
  ⟨Expr.faults_eq_nil_iff.symm, fun _ => Expr.eval_error_iff, fun _ => Expr.eval_ok_iff, e.evalUnchecked_eq v⟩

/-- Of three faults the leftmost wins. That the function takes an argument is not asked where there is no function. -/
example : let e : Expr := .binary (.call "tan" []) "%" (.call "sin" [.symbol "x", .symbol "y"])
    e.faults [] = [.unknownFunction "tan", .arityMismatch "sin" 1 2, .unknownOperator .binary "%"] ∧
      e.eval .initial = .error (.unknownFunction "tan") :=
  ⟨by decide, rfl⟩

end EulerFlow
