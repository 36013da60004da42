import EulerFlow.Proofs.ParseComplete
import EulerFlow.Proofs.ParseSound

namespace EulerFlow.Grammar

theorem parseTokens_sound {ts : List Token} {e : Expr} (run : parseTokens ts = .ok e) :
    ∃ d : Derivation .expression, d.tokens = ts ∧ d.nesting ≤ maxDepth ∧ d.tree = e := by
  unfold parseTokens at run
  split at run
  · cases run
  · rename_i whole read
    split at run
    · rename_i ended
      cases run
      obtain ⟨d, tokens, tree, nesting⟩ := expression_sound (unary_sound maxDepth) read
      rw [ended, List.append_nil] at tokens
      exact ⟨d, tokens, nesting, tree⟩
    · cases run

/-- The depth of a derivation alone decides whether its tokens are accepted. -/
theorem parseTokens_tokens (d : Derivation .expression) :
    parseTokens d.tokens = if d.nesting ≤ maxDepth then .ok d.tree else .error .tooDeep := by
  have whole := expression_complete (unary_complete maxDepth) d [] (Phrase.Stops.nil _)
  rw [List.append_nil] at whole
  unfold parseTokens
  by_cases shallow : d.nesting ≤ maxDepth
  · obtain ⟨shorter, found⟩ := whole.found shallow
    rw [found, if_pos shallow]
  · rw [whole.tooDeep (Nat.lt_of_not_le shallow), if_neg shallow]

/-- Levels enough for both derivations make one parser read both trees. -/
theorem Derivation.tree_unique {d other : Derivation .expression} (same : d.tokens = other.tokens) :
    d.tree = other.tree := by
  have complete := expression_complete (unary_complete (max d.nesting other.nesting))
  have first := complete d [] (Phrase.Stops.nil _)
  have second := complete other [] (Phrase.Stops.nil _)
  rw [same] at first
  obtain ⟨_, found⟩ := first.found (Nat.le_max_left _ _)
  obtain ⟨_, foundOther⟩ := second.found (Nat.le_max_right _ _)
  have answers := found.symm.trans foundOther
  injection answers with parsed
  exact congrArg Parsed.value parsed

theorem Derivation.nesting_le {d other : Derivation .expression} (same : d.tokens = other.tokens) :
    d.nesting ≤ other.nesting := by
  refine Nat.le_of_not_lt fun deeper => ?_
  have complete := expression_complete (unary_complete other.nesting)
  have failed := (complete d [] (Phrase.Stops.nil _)).tooDeep deeper
  obtain ⟨_, found⟩ := (complete other [] (Phrase.Stops.nil _)).found (Nat.le_refl _)
  rw [same, found] at failed
  cases failed

theorem Derivation.nesting_unique {d other : Derivation .expression} (same : d.tokens = other.tokens) :
    d.nesting = other.nesting :=
  Nat.le_antisymm (nesting_le same) (nesting_le same.symm)

/-- The parser accepts what the grammar derives with at most `maxDepth` unary phrases inside one
another, answers with the tree of the derivation, and the grammar has no second tree to offer. -/
theorem parse_iff_derivation :
    (∀ (ts : List Token) (e : Expr), parseTokens ts = .ok e ↔
      ∃ d : Derivation .expression, d.tokens = ts ∧ d.nesting ≤ maxDepth ∧ d.tree = e) ∧
    (∀ (text : String) (e : Expr), Expr.parse text = .ok e ↔
      ∃ d : Derivation .expression, tokenize text = .ok d.tokens ∧ d.nesting ≤ maxDepth ∧ d.tree = e) ∧
    ∀ d other : Derivation .expression, d.tokens = other.tokens → d.tree = other.tree := by
  have accepts (d : Derivation .expression) (shallow : d.nesting ≤ maxDepth) :
      parseTokens d.tokens = .ok d.tree := by
    rw [parseTokens_tokens, if_pos shallow]
  refine ⟨fun ts e => ⟨parseTokens_sound, ?_⟩, fun text e => ?_, fun d other => Derivation.tree_unique⟩
  · rintro ⟨d, rfl, shallow, rfl⟩
    exact accepts d shallow
  · unfold Expr.parse
    constructor
    · intro run
      split at run
      · cases run
      · rename_i ts scanned
        obtain ⟨d, rfl, shallow, tree⟩ := parseTokens_sound run
        exact ⟨d, scanned, shallow, tree⟩
    · rintro ⟨d, scanned, shallow, rfl⟩
      rw [scanned]
      exact accepts d shallow

end EulerFlow.Grammar
