import EulerFlow.Proofs.Derivation
import EulerFlow.Proofs.Spelling

namespace EulerFlow

mutual

/-- The language has words for every part of the expression. -/
def Expr.Writable : Expr → Prop
  | .constant value => Unsigned value
  | .symbol name => IsName name
  | .binary left op right => (BinaryOp.ofSymbol? op).isSome = true ∧ left.Writable ∧ right.Writable
  | .unary op operand => (UnaryOp.ofSymbol? op).isSome = true ∧ operand.Writable
  | .call name args => IsName name ∧ Expr.AllWritable args

/-- The language has words for all parts of all of them. -/
def Expr.AllWritable : List Expr → Prop
  | [] => True
  | arg :: args => arg.Writable ∧ Expr.AllWritable args

end

namespace Grammar

/-- The links of one chain and then those of another. -/
def Links.append {rank : Rank} : Links rank → Links rank → Links rank
  | .done, further => further
  | .next op operand others, further => .next op operand (others.append further)

/-- A chain goes on with more operands. -/
def Derivation.join {rank : Rank} : Derivation (.chain rank) → Links rank → Derivation (.chain rank)
  | .chain first links, further => .chain first (links.append further)

theorem Links.tokens_append {rank : Rank} (links further : Links rank) :
    (links.append further).tokens = links.tokens ++ further.tokens := by
  match links with
  | .done => rfl
  | .next op operand others =>
    rw [append, tokens, tokens, tokens_append others further, List.cons_append, List.append_assoc]

/-- The tree of a chain is built from the left, so what is appended is built around what stood there before. -/
theorem Links.tree_append {rank : Rank} (links further : Links rank) (left : Expr) :
    (links.append further).tree left = further.tree (links.tree left) := by
  match links with
  | .done => rfl
  | .next op operand others => exact tree_append others further _

theorem Links.nesting_append {rank : Rank} (links further : Links rank) :
    (links.append further).nesting = max links.nesting further.nesting := by
  match links with
  | .done => exact (Nat.zero_max _).symm
  | .next op operand others => rw [append, nesting, nesting, nesting_append others further, Nat.max_assoc]

namespace Derivation

variable {rank : Rank}

theorem tokens_join (d : Derivation (.chain rank)) (links : Links rank) :
    (d.join links).tokens = d.tokens ++ links.tokens := by
  cases d with
  | chain first earlier => rw [join, tokens, tokens, Links.tokens_append, List.append_assoc]

/-- To go on with more links is to go on from the tree of the chain, whatever that chain was made of. -/
theorem tree_join (d : Derivation (.chain rank)) (links : Links rank) :
    (d.join links).tree = links.tree d.tree := by
  cases d with
  | chain first earlier => exact Links.tree_append earlier links _

theorem nesting_join (d : Derivation (.chain rank)) (links : Links rank) :
    (d.join links).nesting = max d.nesting links.nesting := by
  cases d with
  | chain first earlier => rw [join, nesting, nesting, Links.nesting_append, Nat.max_assoc]

end Derivation

/-- The operator that is written like a sign. -/
def Operator.ofUnary : UnaryOp → Operator .sum
  | .plus => .plus
  | .neg => .minus

/-- An expression in words, and the phrase that it is without parentheses around it. -/
structure Wording where
  phrase : Phrase
  derivation : Derivation phrase

namespace Wording

-- A wording goes unchanged where its own phrase is asked for. Where another phrase is, it goes as
-- the next tighter one, and where no phrase is tighter, into parentheses.

/-- In parentheses, unless it is a primary phrase. -/
def asPrimary : Wording → Derivation .primary
  | ⟨.primary, d⟩ => d
  | ⟨.power, d⟩ => .parenthesized (.chain (.chain (.unsigned d) .done) .done)
  | ⟨.unary, d⟩ => .parenthesized (.chain (.chain d .done) .done)
  | ⟨.chain .product, d⟩ => .parenthesized (.chain d .done)
  | ⟨.chain .sum, d⟩ => .parenthesized d

/-- As a base without an exponent, unless it is a power. -/
def asPower : Wording → Derivation .power
  | ⟨.power, d⟩ => d
  | w => .bare w.asPrimary

/-- Without a sign, unless it is a unary phrase. -/
def asUnary : Wording → Derivation .unary
  | ⟨.unary, d⟩ => d
  | w => .unsigned w.asPower

/-- As a chain of one, unless it is a term. -/
def asTerm : Wording → Derivation .term
  | ⟨.chain .product, d⟩ => d
  | w => .chain w.asUnary .done

/-- As a chain of one, unless it is an expression. -/
def asExpression : Wording → Derivation .expression
  | ⟨.chain .sum, d⟩ => d
  | w => .chain w.asTerm .done

/-- The wording at a place for the phrase, with parentheses if nothing less will do. -/
def placed (w : Wording) : (place : Phrase) → Derivation place
  | .primary => w.asPrimary
  | .power => w.asPower
  | .unary => w.asUnary
  | .chain .product => w.asTerm
  | .chain .sum => w.asExpression

/-- Wherever a wording is put, it stands for the same expression: parentheses and chains of one leave no trace in the
tree. -/
theorem tree_placed (w : Wording) (place : Phrase) : (w.placed place).tree = w.derivation.tree := by
  obtain ⟨phrase, d⟩ := w
  rcases place with ⟨_ | _⟩ | _ | _ | _
  all_goals rcases phrase with ⟨_ | _⟩ | _ | _ | _
  all_goals rfl

/-- Two operands with an operator between them. The left one may be a chain of the same rank, which then goes on; the
right one may not, for a chain nests to the left. -/
def linked {rank : Rank} (left : Wording) (op : Operator rank) (right : Wording) : Wording :=
  ⟨.chain rank, (left.placed (.chain rank)).join (.next op (right.placed rank.operand) .done)⟩

/-- The base is tight, and the exponent may have a sign. -/
def raised (base exponent : Wording) : Wording :=
  ⟨.power, .raised (base.placed .primary) (exponent.placed .unary)⟩

/-- An operand with its sign. -/
def signed (operand : Wording) (sign : Operator .sum) : Wording :=
  ⟨.unary, .signed sign (operand.placed .unary)⟩

/-- The operands stand where the operator leaves place for them. -/
def applied (left right : Wording) : BinaryOp → Wording
  | .add => left.linked .plus right
  | .sub => left.linked .minus right
  | .mul => left.linked .times right
  | .div => left.linked .over right
  | .pow => left.raised right

/-- A chain that goes on has its old tree as the left operand of the new operator. -/
theorem tree_linked {rank : Rank} (left : Wording) (op : Operator rank) (right : Wording) :
    (left.linked op right).derivation.tree = .binary left.derivation.tree op.symbol right.derivation.tree := by
  rw [linked, Derivation.tree_join, Links.tree, Links.tree, tree_placed, tree_placed]

/-- Every operator of the vocabulary is worded as itself. -/
theorem tree_applied (left right : Wording) {op : String} {known : BinaryOp}
    (found : BinaryOp.ofSymbol? op = some known) :
    (left.applied right known).derivation.tree = .binary left.derivation.tree op right.derivation.tree := by
  unfold BinaryOp.ofSymbol? at found
  split at found <;> cases found
  · exact tree_linked left .plus right
  · exact tree_linked left .minus right
  · exact tree_linked left .times right
  · exact tree_linked left .over right
  · rw [applied, raised, Derivation.tree, tree_placed, tree_placed]

theorem tree_signed (operand : Wording) {op : String} {known : UnaryOp} (found : UnaryOp.ofSymbol? op = some known) :
    (operand.signed (.ofUnary known)).derivation.tree = .unary op operand.derivation.tree := by
  unfold UnaryOp.ofSymbol? at found
  split at found <;> cases found
  · rw [signed, Derivation.tree, tree_placed]
    rfl
  · rw [signed, Derivation.tree, tree_placed]
    rfl

end Wording

end Grammar

open Grammar

mutual

/-- The expression in words, with parentheses only where a part is no phrase for its place. -/
def Expr.wording : (e : Expr) → e.Writable → Wording
  | .constant value, _ => ⟨.primary, .number value⟩
  | .symbol name, _ => ⟨.primary, .symbol name⟩
  | .binary left op right, writable =>
    (left.wording writable.2.1).applied (right.wording writable.2.2) ((BinaryOp.ofSymbol? op).get writable.1)
  | .unary op operand, writable =>
    (operand.wording writable.2).signed (.ofUnary ((UnaryOp.ofSymbol? op).get writable.1))
  | .call name args, writable => ⟨.primary, .call name (Expr.argumentWordings args writable.2)⟩

/-- The arguments of a call in words. Commas part them, so that none needs parentheses. -/
def Expr.argumentWordings : (args : List Expr) → Expr.AllWritable args → Arguments
  | [], _ => .none
  | arg :: args, writable =>
    .some ((arg.wording writable.1).placed .expression) (Expr.furtherWordings args writable.2)

/-- The arguments behind the first one in words. -/
def Expr.furtherWordings : (args : List Expr) → Expr.AllWritable args → FurtherArguments
  | [], _ => .done
  | arg :: args, writable =>
    .next ((arg.wording writable.1).placed .expression) (Expr.furtherWordings args writable.2)

end

mutual

/-- An expression in words stands for itself, part by part. -/
theorem Expr.tree_wording : ∀ (e : Expr) (writable : e.Writable), (e.wording writable).derivation.tree = e
  | .constant value, _ => rfl
  | .symbol name, _ => rfl
  | .binary left op right, writable => by
    rw [wording, Wording.tree_applied _ _ (Option.some_get writable.1).symm, tree_wording left, tree_wording right]
  | .unary op operand, writable => by
    rw [wording, Wording.tree_signed _ (Option.some_get writable.1).symm, tree_wording operand]
  | .call name args, writable => congrArg (Expr.call name) (Expr.trees_argumentWordings args writable.2)

theorem Expr.trees_argumentWordings : ∀ (args : List Expr) (writable : Expr.AllWritable args),
    (Expr.argumentWordings args writable).trees = args
  | [], _ => rfl
  | arg :: args, writable => by
    rw [argumentWordings, Arguments.trees, Wording.tree_placed, Expr.tree_wording arg,
      Expr.trees_furtherWordings args]

theorem Expr.trees_furtherWordings : ∀ (args : List Expr) (writable : Expr.AllWritable args),
    (Expr.furtherWordings args writable).trees = args
  | [], _ => rfl
  | arg :: args, writable => by
    rw [furtherWordings, FurtherArguments.trees, Wording.tree_placed, Expr.tree_wording arg,
      Expr.trees_furtherWordings args]

end

/-- The expression in words, as a whole. -/
def Expr.rendering (e : Expr) (writable : e.Writable) : Derivation .expression :=
  (e.wording writable).placed .expression

/-- The rendering can be read back, if it is not nested too deep: its derivation has the expression for its tree. -/
theorem Expr.tree_rendering (e : Expr) (writable : e.Writable) : (e.rendering writable).tree = e := by
  rw [rendering, Wording.tree_placed, tree_wording]

end EulerFlow
