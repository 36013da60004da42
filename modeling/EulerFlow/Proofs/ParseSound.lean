import EulerFlow.Proofs.Derivation

namespace EulerFlow.Grammar

/-- What was read is derived by the grammar from the tokens that were consumed. -/
def Parsed.Derived {ts : List Token} (p : Parsed Expr ts) (phrase : Phrase) (levels : Nat) : Prop :=
  ∃ d : Derivation phrase, d.tokens ++ p.rest = ts ∧ d.tree = p.value ∧ d.nesting ≤ levels

/-- What the reader reads is a phrase, nested no deeper than the levels allow. -/
def Reader.Sound (reader : Reader Expr) (phrase : Phrase) (levels : Nat) : Prop :=
  ∀ {ts : List Token} {p : Parsed Expr ts}, reader ts = .ok p → p.Derived phrase levels

/-- Whatever the first operand was, a chain goes on with links of its own rank. -/
theorem chainFrom_sound {rank : Rank} {operand : Reader Expr} {levels : Nat} {ts : List Token}
    (sound : operand.Sound rank.operand levels) {left whole : Parsed Expr ts}
    (run : chainFrom rank.op? operand left = .ok whole) :
    ∃ links : Links rank, links.tokens ++ whole.rest = left.rest ∧
      links.tree left.value = whole.value ∧ links.nesting ≤ levels := by
  fun_induction chainFrom rank.op? operand left with
  | case1 left following =>
    cases run
    exact ⟨.done, rfl, rfl, Nat.zero_le _⟩
  | case2 left t us following stops =>
    cases run
    exact ⟨.done, rfl, rfl, Nat.zero_le _⟩
  | case3 left t us following name known fault failed => cases run
  | case4 left t us following name known right read consumed ih =>
    obtain ⟨links, tokens, tree, nesting⟩ := ih run
    obtain ⟨operand, operandTokens, operandTree, operandNesting⟩ := sound read
    obtain ⟨op, rfl, rfl⟩ := Rank.exists_operator known
    refine ⟨.next op operand links, ?_, ?_, ?_⟩
    · rw [following, ← operandTokens, ← tokens]
      simp [Links.tokens]
    · rw [Links.tree, operandTree, tree]
    · exact Nat.max_le.mpr ⟨operandNesting, nesting⟩

theorem chain_sound {rank : Rank} {operand : Reader Expr} {levels : Nat}
    (sound : operand.Sound rank.operand levels) :
    Reader.Sound (chain rank.op? operand) (.chain rank) levels := by
  intro ts whole run
  unfold chain at run
  split at run
  · cases run
  · rename_i first read
    obtain ⟨operand, operandTokens, operandTree, operandNesting⟩ := sound read
    obtain ⟨links, tokens, tree, nesting⟩ := chainFrom_sound sound run
    refine ⟨.chain operand links, ?_, ?_, ?_⟩
    · rw [Derivation.tokens, List.append_assoc, tokens, operandTokens]
    · rw [Derivation.tree, operandTree, tree]
    · exact Nat.max_le.mpr ⟨operandNesting, nesting⟩

section

variable {unary : Reader Expr} {levels : Nat} (sound : unary.Sound .unary levels)

include sound

theorem term_sound : (term unary).Sound .term levels :=
  chain_sound (show unary.Sound (Rank.operand .product) levels from sound)

theorem expression_sound : (expression unary).Sound .expression levels :=
  chain_sound (show (term unary).Sound (Rank.operand .sum) levels from term_sound sound)

theorem argumentsFrom_sound {ts : List Token} {p : Parsed (List Expr) ts}
    (run : argumentsFrom unary ts = .ok p) :
    ∃ (first : Derivation .expression) (others : FurtherArguments),
      first.tokens ++ others.tokens ++ .closing :: p.rest = ts ∧ first.tree :: others.trees = p.value ∧
        first.nesting ≤ levels ∧ others.nesting ≤ levels := by
  fun_induction argumentsFrom unary ts with
  | case1 ts fault failed => cases run
  | case2 ts first read following => cases run
  | case3 ts first read us following =>
    cases run
    obtain ⟨d, tokens, tree, nesting⟩ := expression_sound sound read
    refine ⟨d, .done, ?_, by simp [FurtherArguments.trees, tree], nesting, Nat.zero_le _⟩
    rw [following] at tokens
    simpa [FurtherArguments.tokens] using tokens
  | case4 ts first read us following consumed fault failed ih => cases run
  | case5 ts first read us following consumed others readOthers ih =>
    cases run
    obtain ⟨d, tokens, tree, nesting⟩ := expression_sound sound read
    obtain ⟨second, further, laterTokens, laterTrees, secondNesting, furtherNesting⟩ := ih readOthers
    refine ⟨d, .next second further, ?_, ?_, nesting, Nat.max_le.mpr ⟨secondNesting, furtherNesting⟩⟩
    · rw [following, ← laterTokens] at tokens
      simpa [FurtherArguments.tokens, Parsed.widen, Parsed.map] using tokens
    · simp [FurtherArguments.trees, Parsed.widen, Parsed.map, laterTrees, tree]
  | case6 ts first read t us other notClosing notComma => cases run

theorem arguments_sound {ts : List Token} {p : Parsed (List Expr) ts}
    (run : arguments unary ts = .ok p) :
    ∃ args : Arguments, args.tokens ++ .closing :: p.rest = ts ∧ args.trees = p.value ∧
      args.nesting ≤ levels := by
  unfold arguments at run
  split at run
  · cases run
    exact ⟨.none, rfl, rfl, Nat.zero_le _⟩
  · obtain ⟨first, others, tokens, trees, firstNesting, othersNesting⟩ := argumentsFrom_sound sound run
    exact ⟨.some first others, tokens, trees, Nat.max_le.mpr ⟨firstNesting, othersNesting⟩⟩

theorem primary_sound : (primary unary).Sound .primary levels := by
  intro ts p run
  unfold primary at run
  split at run
  · cases run
  · rename_i value us
    cases run
    exact ⟨.number value, rfl, rfl, Nat.zero_le _⟩
  · rename_i name us
    split at run
    · cases run
    · rename_i args read
      cases run
      obtain ⟨d, tokens, trees, nesting⟩ := arguments_sound sound read
      refine ⟨.call name d, ?_, ?_, nesting⟩
      · simpa [Derivation.tokens, Parsed.widen, Parsed.map] using tokens
      · rw [Derivation.tree, trees]
        rfl
  · rename_i name us notCall
    cases run
    exact ⟨.symbol name, rfl, rfl, Nat.zero_le _⟩
  · rename_i us
    split at run
    · cases run
    · rename_i inner read
      split at run
      · cases run
      · rename_i rest following
        cases run
        obtain ⟨d, tokens, tree, nesting⟩ := expression_sound sound read
        refine ⟨.parenthesized d, ?_, tree, nesting⟩
        rw [following] at tokens
        simpa [Derivation.tokens] using tokens
      · cases run
  · cases run

theorem power_sound : (power unary).Sound .power levels := by
  intro ts p run
  unfold power at run
  split at run
  · cases run
  · rename_i base read
    obtain ⟨d, tokens, tree, nesting⟩ := primary_sound sound read
    split at run
    · rename_i us following
      split at run
      · cases run
      · rename_i exponent readExponent
        cases run
        obtain ⟨e, exponentTokens, exponentTree, exponentNesting⟩ := sound readExponent
        refine ⟨.raised d e, ?_, ?_, Nat.max_le.mpr ⟨nesting, exponentNesting⟩⟩
        · rw [following, ← exponentTokens] at tokens
          simpa [Derivation.tokens, Parsed.widen, Parsed.map] using tokens
        · rw [Derivation.tree, tree, exponentTree]
          rfl
    · cases run
      exact ⟨.bare d, tokens, tree, nesting⟩

/-- A sign and what it stands before make up one more level. -/
theorem signed_sound : (signed unary).Sound .unary (levels + 1) := by
  intro ts p run
  unfold signed at run
  split at run
  · split at run
    · cases run
    · rename_i operand read
      cases run
      obtain ⟨d, tokens, tree, nesting⟩ := sound read
      exact ⟨.signed .minus d, congrArg (Token.minus :: ·) tokens, congrArg (Expr.unary "-") tree,
        Nat.succ_le_succ nesting⟩
  · split at run
    · cases run
    · rename_i operand read
      cases run
      obtain ⟨d, tokens, tree, nesting⟩ := sound read
      exact ⟨.signed .plus d, congrArg (Token.plus :: ·) tokens, congrArg (Expr.unary "+") tree,
        Nat.succ_le_succ nesting⟩
  · obtain ⟨d, tokens, tree, nesting⟩ := power_sound sound run
    exact ⟨.unsigned d, tokens, tree, Nat.succ_le_succ nesting⟩

end

/-- Every level of the parser reads derivations with at most that much nesting. -/
theorem unary_sound (levels : Nat) : (unary levels).Sound .unary levels := by
  induction levels with
  | zero =>
    intro ts p run
    cases run
  | succ levels ih => exact signed_sound ih

end EulerFlow.Grammar
