import EulerFlow.Expr.Eval
import EulerFlow.Proofs.Sweep

namespace EulerFlow

/-- Everything that keeps an expression from having a value, in the order in which evaluation meets
it, given the names that have values. The values themselves do not matter. -/
def Expr.faults (names : List String) : Expr → List EvalError
  | .constant _ => []
  | .symbol name => if name ∈ names then [] else [.undefinedVariable name]
  | .binary left op right =>
    left.faults names ++ right.faults names ++
      if (BinaryOp.ofSymbol? op).isSome then [] else [.unknownOperator .binary op]
  | .unary op operand =>
    operand.faults names ++ if (UnaryOp.ofSymbol? op).isSome then [] else [.unknownOperator .unary op]
  | .call name args =>
    match NamedFunction.ofName? name with
    | none => [.unknownFunction name]
    | some known =>
      match args with
      | [arg] => arg.faults names
      | _ => [.arityMismatch name known.arity args.length]

/-- The first fault of an expression is the error of its evaluation. -/
theorem Expr.faults_head? (v : Valuation) (e : Expr) :
    (e.faults v.names).head? = match e.eval v with
      | .ok _ => none
      | .error fault => some fault := by
  fun_induction Expr.eval v e with
  | case1 value => rfl
  | case2 name =>
    rw [faults, Valuation.get]
    cases found : v.get? name with
    | some value => rw [if_pos (Valuation.mem_names_iff.mpr ⟨value, found⟩), List.head?_nil]
    | none => rw [if_neg (Valuation.get?_eq_none_iff.mp found), List.head?_cons]
  | case3 left op right fault failed ih =>
    rw [failed] at ih
    simp [faults, ih]
  | case4 left op right a found fault failed ihLeft ih =>
    rw [found] at ihLeft
    rw [failed] at ih
    simp [faults, ihLeft, ih]
  | case5 left op right a foundLeft b found known named ihLeft ih =>
    rw [foundLeft] at ihLeft
    rw [found] at ih
    simp [faults, ihLeft, ih, named]
  | case6 left op right a foundLeft b found unknown ihLeft ih =>
    rw [foundLeft] at ihLeft
    rw [found] at ih
    simp [faults, ihLeft, ih, unknown]
  | case7 op operand fault failed ih =>
    rw [failed] at ih
    simp [faults, ih]
  | case8 op operand a found known named ih =>
    rw [found] at ih
    simp [faults, ih, named]
  | case9 op operand a found unknown ih =>
    rw [found] at ih
    simp [faults, ih, unknown]
  | case10 name args unknown => simp [faults, unknown]
  | case11 name known named arg fault failed ih =>
    rw [failed] at ih
    simpa [faults, named] using ih
  | case12 name known named arg a found ih =>
    rw [found] at ih
    simpa [faults, named] using ih
  | case13 name args known named other =>
    rcases args with _ | ⟨arg, _ | ⟨second, others⟩⟩
    · simp [faults, named]
    · exact absurd rfl (other arg)
    · simp [faults, named]

theorem Expr.eval_error_iff {v : Valuation} {e : Expr} {fault : EvalError} :
    e.eval v = .error fault ↔ (e.faults v.names).head? = some fault := by
  rw [Expr.faults_head?]
  cases e.eval v <;> simp

theorem Expr.faults_eq_nil_iff {v : Valuation} {e : Expr} :
    e.faults v.names = [] ↔ ∃ value, e.eval v = .ok value := by
  rw [← List.head?_eq_none_iff, Expr.faults_head?]
  cases e.eval v <;> simp

/-- A variable is missing only where the expression mentions it. -/
theorem Expr.mem_faults_undefined {names : List String} {e : Expr} {name : String}
    (missing : .undefinedVariable name ∈ e.faults names) : name ∈ e.symbols ∧ name ∉ names := by
  fun_induction Expr.faults names e with
  | case1 value => cases missing
  | case2 other defined => cases missing
  | case3 other undefined =>
    cases List.mem_singleton.mp missing
    exact ⟨List.mem_singleton_self _, undefined⟩
  | case4 left op right ihLeft ihRight =>
    rw [symbols, List.mem_append]
    rcases List.mem_append.mp missing with operands | operator
    · rcases List.mem_append.mp operands with inLeft | inRight
      · exact ⟨.inl (ihLeft inLeft).1, (ihLeft inLeft).2⟩
      · exact ⟨.inr (ihRight inRight).1, (ihRight inRight).2⟩
    · split at operator <;> simp at operator
  | case5 op operand ih =>
    rw [symbols]
    rcases List.mem_append.mp missing with inOperand | operator
    · exact ih inOperand
    · split at operator <;> simp at operator
  | case6 name args unknown => simp at missing
  | case7 name known named arg ih =>
    rw [symbols, symbolsOf, symbolsOf, List.append_nil]
    exact ih missing
  | case8 name args known named other => simp at missing

/-- Everything that keeps an equation from being applied. -/
def Ode.faults (names : List String) (ode : Ode) : List EvalError :=
  ode.equation.faults names ++ if ode.symbol ∈ names then [] else [.undefinedVariable ode.symbol]

theorem Ode.faults_eq_nil_iff {names : List String} {ode : Ode} :
    ode.faults names = [] ↔ ode.equation.faults names = [] ∧ ode.symbol ∈ names := by
  simp [Ode.faults]

/-- The equations can be applied to any values of the names. -/
def Evaluable (names : List String) (odes : List Ode) : Prop :=
  ∀ ode ∈ odes, ode.faults names = []

theorem Ode.apply_none {policy : NonFinitePolicy} {t dt : Float} {v : Valuation} {ode : Ode}
    (applied : (ode.apply policy t dt v).2 = none) : ode.faults v.names = [] := by
  unfold Ode.apply at applied
  split at applied
  · cases applied
  · cases applied
  · rename_i derivative value found old
    exact Ode.faults_eq_nil_iff.mpr
      ⟨Expr.faults_eq_nil_iff.mpr ⟨derivative, found⟩, Valuation.mem_names_iff.mpr ⟨value, old⟩⟩

theorem Ode.apply_eval {policy : NonFinitePolicy} {t dt time : Float} {v : Valuation} {ode : Ode}
    {symbol : String} {cause : EvalError} (failed : (ode.apply policy t dt v).2 = some (.eval symbol time cause)) :
    symbol = ode.symbol ∧ time = t ∧ cause ∈ ode.faults v.names := by
  unfold Ode.apply at failed
  split at failed
  · rename_i first evaluated
    cases failed
    have head := Expr.eval_error_iff.mp evaluated
    exact ⟨rfl, rfl, List.mem_append_left _ (List.mem_of_mem_head? head)⟩
  · rename_i undefined
    cases failed
    rw [Ode.faults, if_neg (Valuation.get?_eq_none_iff.mp undefined)]
    exact ⟨rfl, rfl, List.mem_append_right _ (List.mem_singleton_self _)⟩
  · simp only at failed
    split at failed <;> cases failed

theorem sweep_none {policy : NonFinitePolicy} {t dt : Float} {v : Valuation} {odes : List Ode}
    (swept : (sweep policy t dt v odes).2 = none) : Evaluable v.names odes := by
  induction odes generalizing v with
  | nil => nofun
  | cons ode odes ih =>
    have names := ode.apply_names policy t dt v
    unfold sweep at swept
    split at swept
    · rename_i w applied
      have first : ode.faults v.names = [] := Ode.apply_none (by rw [applied])
      have others := ih swept
      rw [applied] at names
      rw [show w.names = v.names from names] at others
      exact List.forall_mem_cons.mpr ⟨first, others⟩
    · cases swept

/-- A step that fails to evaluate does so at its own time, for a reason that was there before it. -/
theorem sweep_eval {policy : NonFinitePolicy} {t dt time : Float} {v : Valuation} {odes : List Ode}
    {symbol : String} {cause : EvalError} (failed : (sweep policy t dt v odes).2 = some (.eval symbol time cause)) :
    time = t ∧ ∃ ode ∈ odes, ode.symbol = symbol ∧ cause ∈ ode.faults v.names := by
  induction odes generalizing v with
  | nil => cases failed
  | cons ode odes ih =>
    have names := ode.apply_names policy t dt v
    unfold sweep at failed
    split at failed
    · rename_i w applied
      rw [applied] at names
      obtain ⟨same, other, member, named, faulty⟩ := ih failed
      rw [show w.names = v.names from names] at faulty
      exact ⟨same, other, List.mem_cons_of_mem _ member, named, faulty⟩
    · rename_i w fault applied
      obtain ⟨named, same, faulty⟩ := Ode.apply_eval (show (ode.apply policy t dt v).2 = _ by rw [applied]; exact failed)
      exact ⟨same, ode, List.mem_cons_self .., named.symm, faulty⟩

theorem sweep_settled {policy : NonFinitePolicy} {t dt : Float} {v : Valuation} {odes : List Ode}
    (cause : SettingsFault) : (sweep policy t dt v odes).2 ≠ some (.invalidSettings cause) := by
  induction odes generalizing v with
  | nil => nofun
  | cons ode odes ih =>
    unfold sweep
    split
    · exact ih
    · rename_i w fault applied
      rintro same
      cases same
      unfold Ode.apply at applied
      split at applied
      · cases applied
      · cases applied
      · simp only [Prod.mk.injEq] at applied
        obtain ⟨_, found⟩ := applied
        split at found <;> cases found

end EulerFlow
