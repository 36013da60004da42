import EulerFlow.Model.Basic
import EulerFlow.Proofs.EvalFailure
import EulerFlow.Proofs.Registration

namespace EulerFlow

/-- Expressions made of given ones with the constructors that name no variable. Operators and
functions may have any name. -/
inductive Composed (given : List Expr) : Expr → Prop
  | given {expr} : expr ∈ given → Composed given expr
  | constant (value : Float) : Composed given (.constant value)
  | binary {left right} (op : String) : Composed given left → Composed given right →
      Composed given (.binary left op right)
  | unary {operand} (op : String) : Composed given operand → Composed given (.unary op operand)
  | call {args} (name : String) : (∀ arg ∈ args, Composed given arg) → Composed given (.call name args)

theorem Expr.symbolsOf_subset {args : List Expr} {names : List String}
    (covered : ∀ arg ∈ args, arg.symbols ⊆ names) : Expr.symbolsOf args ⊆ names := by
  induction args with
  | nil => exact List.nil_subset names
  | cons arg args ih =>
    rw [symbolsOf, List.append_subset]
    exact ⟨covered arg (List.mem_cons_self ..), ih fun other member => covered other (List.mem_cons_of_mem _ member)⟩

/-- An expression that is put together has no variables but those of its parts. -/
theorem Composed.symbols_subset {given : List Expr} {expr : Expr} {names : List String} (composed : Composed given expr)
    (covered : ∀ expr ∈ given, expr.symbols ⊆ names) : expr.symbols ⊆ names := by
  induction composed with
  | given member => exact covered _ member
  | constant value => exact List.nil_subset names
  | binary op _ _ ihLeft ihRight =>
    rw [Expr.symbols, List.append_subset]
    exact ⟨ihLeft, ihRight⟩
  | unary op _ ih =>
    rw [Expr.symbols]
    exact ih
  | call name _ ih =>
    rw [Expr.symbols]
    exact Expr.symbolsOf_subset ih

namespace Model

/-- One operation on a model that has handed out the given expressions: the model after it and
what it hands out. Equations are made of what was handed out before. -/
inductive Operation (m : Model) (given : List Expr) : Model → List Expr → Prop
  | mentioned (name : String) : Operation m given (m.mention name).2.1 [(m.mention name).1]
  | parsed {text expr after notices} : m.parse text = .ok (expr, after, notices) → Operation m given after [expr]
  | unparsed {text fault} : m.parse text = .error fault → Operation m given m []
  | registered {equation} (symbol : String) : Composed given equation →
      Operation m given (m.ode symbol equation).1 []
  | initialized (symbol : String) (value : Float) : Operation m given (m.initial symbol value) []
  | configured (settings : Settings) : Operation m given { m with settings := settings } []
  | ran {σ : Type} [Receiver σ] (receiver : σ) : Operation m given (m.run receiver).1 []
  | executed (capacity : Option Nat) : Operation m given (m.execute capacity).1 []
  | set (name : String) (value : Float) : Operation m given { m with valuation := m.valuation.set name value } []
  | declared (name : String) : Operation m given { m with valuation := (m.valuation.declare name).1 } []
  | added {name delta valuation value} : m.valuation.add name delta = .ok (valuation, value) →
      Operation m given { m with valuation := valuation } []
  | unadded {name delta fault} : m.valuation.add name delta = .error fault → Operation m given m []
  | clocked (t : Float) : Operation m given { m with valuation := m.valuation.setTime t } []

/-- The models that any sequence of operations leads to, with all they have handed out. -/
inductive Built : Model → List Expr → Prop
  | new (settings : Settings) : Built (.new settings) []
  | next {m after : Model} {given handed : List Expr} : Built m given → Operation m given after handed →
      Built after (handed ++ given)

/-- Names that are needed have values: those in the expressions that were handed out, and those
that the equations read and write. -/
structure Complete (m : Model) (given : List Expr) : Prop where
  given : ∀ expr ∈ given, expr.symbols ⊆ m.valuation.names
  odes : ∀ ode ∈ m.system.entries, ode.symbol ∈ m.valuation.names ∧ ode.equation.symbols ⊆ m.valuation.names

variable {m after : Model} {given handed : List Expr}

/-- Names are never taken back, so only new equations can endanger completeness. -/
theorem Complete.grow (complete : Complete m given) (system : after.system = m.system)
    (names : m.valuation.names ⊆ after.valuation.names) : Complete after given where
  given expr member := List.Subset.trans (complete.given expr member) names
  odes ode member := by
    rw [system] at member
    obtain ⟨symbol, equation⟩ := complete.odes ode member
    exact ⟨names symbol, List.Subset.trans equation names⟩

theorem Complete.keep (complete : Complete m given) (system : after.system = m.system)
    (names : after.valuation.names = m.valuation.names) : Complete after given :=
  complete.grow system fun _ old => names ▸ old

theorem Complete.hand (complete : Complete m given) {expr : Expr} (covered : expr.symbols ⊆ m.valuation.names) :
    Complete m (expr :: given) where
  given := List.forall_mem_cons.mpr ⟨covered, complete.given⟩
  odes := complete.odes

/-- An equation for a defined symbol, over variables that are defined, leaves nothing to define. -/
theorem Complete.insert (complete : Complete m given) {symbol : String} {equation : Expr}
    (defined : symbol ∈ m.valuation.names) (composed : Composed given equation) :
    Complete { m with system := m.system.insert symbol equation } given where
  given := complete.given
  odes ode member := by
    rcases OdeSystem.mem_insert_iff.mp member with rfl | ⟨old, _⟩
    · exact ⟨defined, composed.symbols_subset complete.given⟩
    · exact complete.odes ode old

theorem parse_ok {text : String} {expr : Expr} {notices : List Notice} (read : m.parse text = .ok (expr, after, notices)) :
    Expr.parse text = .ok expr ∧ after = (m.declare expr.symbols).1 := by
  unfold parse at read
  split at read
  · cases read
  · rename_i found
    obtain ⟨rfl, declared⟩ := Prod.mk.inj (Except.ok.inj read)
    exact ⟨found, (congrArg Prod.fst declared).symm⟩

theorem declare_system (names : List String) : (m.declare names).1.system = m.system := by
  induction names generalizing m with
  | nil => rfl
  | cons name names ih => exact ih

theorem mem_names_declare {names : List String} {other : String} :
    other ∈ (m.declare names).1.valuation.names ↔ other ∈ names ∨ other ∈ m.valuation.names := by
  induction names generalizing m with
  | nil => simp [declare]
  | cons name names ih =>
    have rest := @ih { m with valuation := (m.valuation.declare name).1 }
    rw [Valuation.mem_names_declare] at rest
    rw [List.mem_cons, or_assoc, or_left_comm]
    exact rest

theorem Complete.declare (complete : Complete m given) (names : List String) : Complete (m.declare names).1 given :=
  complete.grow (declare_system names) fun _ defined => mem_names_declare.mpr (.inr defined)

/-- No operation leaves a needed name without a value, whether it succeeds or not. -/
theorem Operation.complete (operation : Operation m given after handed) (complete : Complete m given) :
    Complete after (handed ++ given) := by
  cases operation with
  | mentioned name =>
    refine (complete.declare [name]).hand ?_
    intro other member
    exact mem_names_declare.mpr (.inl member)
  | @parsed text expr _ notices read =>
    obtain ⟨_, rfl⟩ := parse_ok read
    refine (complete.declare expr.symbols).hand ?_
    intro other member
    exact mem_names_declare.mpr (.inl member)
  | unparsed _ => exact complete
  | registered symbol composed =>
    unfold ode
    -- a new symbol has its value before it has its equation
    split
    · rename_i defined
      exact complete.insert (Valuation.contains_iff.mp defined) composed
    · have started : Complete (m.initial symbol 0) given :=
        complete.grow rfl fun _ old => Valuation.mem_names_set.mpr (.inr old)
      exact started.insert (Valuation.mem_names_set.mpr (.inl rfl)) composed
  | initialized symbol value => exact complete.grow rfl fun _ old => Valuation.mem_names_set.mpr (.inr old)
  | configured settings => exact complete.keep rfl rfl
  | ran receiver => exact complete.keep rfl (Integrator.run_names _ _ _ receiver)
  | executed capacity => exact complete.keep rfl (Integrator.run_names _ _ _ (TextTable.empty capacity))
  | set name value => exact complete.grow rfl fun _ old => Valuation.mem_names_set.mpr (.inr old)
  | declared name => exact complete.grow rfl fun _ old => Valuation.mem_names_declare.mpr (.inr old)
  | @added name delta valuation value sum =>
    unfold Valuation.add at sum
    split at sum
    · cases sum
      exact complete.keep rfl (Valuation.names_overwrite _ _ _)
    · cases sum
  | unadded _ => exact complete
  | clocked t => exact complete.keep rfl (Valuation.names_setTime _ t)

/-- Whoever builds a model has every variable defined, for a variable cannot be had but by a declaration. -/
theorem Built.complete (built : Built m given) : Complete m given := by
  induction built with
  | new settings => exact ⟨List.forall_mem_nil _, List.forall_mem_nil _⟩
  | next _ operation ih => exact operation.complete ih

end Model

end EulerFlow
