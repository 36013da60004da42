import EulerFlow.Proofs.Faults
import EulerFlow.Proofs.ParseExact

namespace EulerFlow

variable {names : List String} {place : OperatorPlace} {op : String}

/-- An operator of the vocabulary adds no fault to those of its operands. -/
theorem Expr.binary_known {left right : Expr} {symbol : String} (found : (BinaryOp.ofSymbol? symbol).isSome)
    (knownLeft : .unknownOperator place op ∉ left.faults names)
    (knownRight : .unknownOperator place op ∉ right.faults names) :
    .unknownOperator place op ∉ (Expr.binary left symbol right).faults names := by
  rw [faults, if_pos found, List.append_nil, List.mem_append, not_or]
  exact ⟨knownLeft, knownRight⟩

theorem Expr.unary_known {operand : Expr} {symbol : String} (found : (UnaryOp.ofSymbol? symbol).isSome)
    (known : .unknownOperator place op ∉ operand.faults names) :
    .unknownOperator place op ∉ (Expr.unary symbol operand).faults names := by
  rw [faults, if_pos found, List.append_nil]
  exact known

theorem Expr.call_known {name : String} {args : List Expr}
    (known : ∀ arg ∈ args, .unknownOperator place op ∉ arg.faults names) :
    .unknownOperator place op ∉ (Expr.call name args).faults names := by
  unfold faults
  split
  · simp
  · split
    · rename_i arg
      exact known arg (List.mem_singleton_self arg)
    · simp

namespace Grammar

mutual

/-- The grammar has no words for operators that evaluation does not know. -/
theorem Derivation.tree_known {phrase : Phrase} :
    ∀ d : Derivation phrase, .unknownOperator place op ∉ d.tree.faults names
  | .chain first links => links.tree_known first.tree_known
  | .signed sign operand => Expr.unary_known sign.unary_known operand.tree_known
  | .unsigned power => power.tree_known
  | .bare base => base.tree_known
  | .raised base exponent => Expr.binary_known rfl base.tree_known exponent.tree_known
  | .number value => List.not_mem_nil
  | .symbol name => by
    rw [Derivation.tree, Expr.faults]
    split <;> simp
  | .call name args => Expr.call_known args.trees_known
  | .parenthesized inner => inner.tree_known

theorem Links.tree_known {rank : Rank} {left : Expr} (known : .unknownOperator place op ∉ left.faults names) :
    ∀ links : Links rank, .unknownOperator place op ∉ (links.tree left).faults names
  | .done => known
  | .next sign operand others =>
    others.tree_known (Expr.binary_known sign.binary_known known operand.tree_known)

theorem Arguments.trees_known :
    ∀ args : Arguments, ∀ arg ∈ args.trees, .unknownOperator place op ∉ arg.faults names
  | .none => List.forall_mem_nil _
  | .some first others => List.forall_mem_cons.mpr ⟨first.tree_known, others.trees_known⟩

theorem FurtherArguments.trees_known :
    ∀ args : FurtherArguments, ∀ arg ∈ args.trees, .unknownOperator place op ∉ arg.faults names
  | .done => List.forall_mem_nil _
  | .next first others => List.forall_mem_cons.mpr ⟨first.tree_known, others.trees_known⟩

end

end Grammar

/-- What a text can get wrong beyond its grammar is the name of a function, the number of its
arguments or the name of a variable. -/
theorem Expr.parse_known {text : String} {e : Expr} (read : Expr.parse text = .ok e) :
    .unknownOperator place op ∉ e.faults names := by
  unfold Expr.parse at read
  split at read
  · cases read
  · obtain ⟨d, _, _, rfl⟩ := Grammar.parseTokens_sound read
    exact d.tree_known

end EulerFlow
