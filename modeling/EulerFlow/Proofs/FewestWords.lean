import EulerFlow.Proofs.Rendering
import Mathlib.Order.MinMax

namespace EulerFlow.Grammar

/-- What a piece of a derivation takes up: its words, and how deep unary phrases lie in it. -/
structure Extent where
  tokens : List Token
  nesting : Nat

instance : Preorder Extent where
  le a b := a.tokens.Sublist b.tokens ∧ a.nesting ≤ b.nesting
  le_refl a := ⟨.refl a.tokens, Nat.le_refl a.nesting⟩
  le_trans _ _ _ first second := ⟨first.1.trans second.1, Nat.le_trans first.2 second.2⟩

/-- One piece after the other. -/
def Extent.followed (a b : Extent) : Extent :=
  ⟨a.tokens ++ b.tokens, max a.nesting b.nesting⟩

/-- What comes one after the other takes up no more if neither part does. -/
theorem Extent.followed_mono {a b c d : Extent} (le : a ≤ c) (le' : b ≤ d) : a.followed b ≤ c.followed d :=
  ⟨le.1.append le'.1, max_le_max le.2 le'.2⟩

theorem Extent.followed_assoc (a b c : Extent) : (a.followed b).followed c = a.followed (b.followed c) := by
  simp only [followed, List.append_assoc, Nat.max_assoc]

/-- What a derivation takes up. -/
def Derivation.extent {phrase : Phrase} (d : Derivation phrase) : Extent :=
  ⟨d.tokens, d.nesting⟩

/-- What the links of a chain take up behind its first operand. -/
def Links.extent {rank : Rank} (links : Links rank) : Extent :=
  ⟨links.tokens, links.nesting⟩

/-- What arguments take up between their parentheses. -/
def Arguments.extent (args : Arguments) : Extent :=
  ⟨args.tokens, args.nesting⟩

/-- What the arguments behind the first one take up, with their commas. -/
def FurtherArguments.extent (args : FurtherArguments) : Extent :=
  ⟨args.tokens, args.nesting⟩

namespace Derivation

variable {rank : Rank}

/-- A chain of one operand has no words of its own, and no nesting. -/
theorem extent_single (d : Derivation rank.operand) : (Derivation.chain d .done).extent = d.extent := by
  simp [extent, tokens, nesting, Links.tokens, Links.nesting]

theorem extent_le_single (rank : Rank) (d : Derivation rank.operand) : d.extent ≤ (Derivation.chain d .done).extent :=
  (extent_single d).ge

/-- Behind a chain its new links stand as they are, so that extents can be compared link by link. -/
theorem extent_join (d : Derivation (.chain rank)) (links : Links rank) :
    (d.join links).extent = d.extent.followed links.extent := by
  rw [extent, tokens_join, nesting_join]
  rfl

theorem extent_le_unsigned (d : Derivation .power) : d.extent ≤ (unsigned d).extent :=
  ⟨.refl _, Nat.le_succ _⟩

/-- Parentheses cost words, and no nesting, which is counted in unary phrases. -/
theorem extent_le_parenthesized (d : Derivation .expression) : d.extent ≤ (parenthesized d).extent :=
  ⟨(List.sublist_append_left _ _).cons _, Nat.le_refl _⟩

/-- A unary phrase is one level deeper than what is in it, whatever that is. -/
theorem extent_unsigned_mono {d other : Derivation .power} (le : d.extent ≤ other.extent) :
    (unsigned d).extent ≤ (unsigned other).extent :=
  ⟨le.1, Nat.succ_le_succ le.2⟩

/-- A sign is the same word before any operand. -/
theorem extent_signed_mono (sign : Operator .sum) {d other : Derivation .unary} (le : d.extent ≤ other.extent) :
    (signed sign d).extent ≤ (signed sign other).extent :=
  ⟨le.1.cons_cons _, Nat.succ_le_succ le.2⟩

/-- Base and exponent can be compared apart. -/
theorem extent_raised_mono {base otherBase : Derivation .primary} {exponent otherExponent : Derivation .unary}
    (le : base.extent ≤ otherBase.extent) (leExponent : exponent.extent ≤ otherExponent.extent) :
    (raised base exponent).extent ≤ (raised otherBase otherExponent).extent :=
  ⟨le.1.append (leExponent.1.cons_cons _), max_le_max le.2 leExponent.2⟩

theorem extent_parenthesized_mono {d other : Derivation .expression} (le : d.extent ≤ other.extent) :
    (parenthesized d).extent ≤ (parenthesized other).extent :=
  ⟨(le.1.append (.refl _)).cons_cons _, le.2⟩

/-- The name and the parentheses of a call are the same words around any arguments. -/
theorem extent_call_mono (name : String) {args others : Arguments} (le : args.extent ≤ others.extent) :
    (call name args).extent ≤ (call name others).extent :=
  ⟨((le.1.append (.refl _)).cons_cons _).cons_cons _, le.2⟩

end Derivation

namespace Wording

/-- At the place of a primary phrase a wording takes up no less than alone: on its way into parentheses it becomes a
unary phrase without a sign and a chain of one, and nothing of that makes it shorter. -/
theorem extent_le_asPrimary (w : Wording) : w.derivation.extent ≤ w.asPrimary.extent := by
  obtain ⟨phrase, d⟩ := w
  match phrase with
  | .primary => exact le_refl _
  | .power =>
    calc d.extent
      _ ≤ (Derivation.unsigned d).extent := d.extent_le_unsigned
      _ ≤ (Derivation.chain (.unsigned d) .done : Derivation .term).extent := Derivation.extent_le_single .product _
      _ ≤ (Derivation.chain (.chain (.unsigned d) .done) .done : Derivation .expression).extent :=
        Derivation.extent_le_single .sum _
      _ ≤ _ := Derivation.extent_le_parenthesized _
  | .unary =>
    calc d.extent
      _ ≤ (Derivation.chain d .done : Derivation .term).extent := Derivation.extent_le_single .product d
      _ ≤ (Derivation.chain (.chain d .done) .done : Derivation .expression).extent :=
        Derivation.extent_le_single .sum _
      _ ≤ _ := Derivation.extent_le_parenthesized _
  | .chain .product =>
    calc d.extent
      _ ≤ (Derivation.chain d .done : Derivation .expression).extent := Derivation.extent_le_single .sum d
      _ ≤ _ := Derivation.extent_le_parenthesized _
  | .chain .sum => exact d.extent_le_parenthesized

theorem extent_le_asPower (w : Wording) : w.derivation.extent ≤ w.asPower.extent := by
  obtain ⟨phrase, d⟩ := w
  match phrase with
  | .power => exact le_refl _
  | .primary | .unary | .chain .product | .chain .sum => exact extent_le_asPrimary ⟨_, d⟩

/-- So it does at each looser place in turn, where it takes up no less than at the tighter one before. -/
theorem extent_le_asUnary (w : Wording) : w.derivation.extent ≤ w.asUnary.extent := by
  have le := w.extent_le_asPower.trans w.asPower.extent_le_unsigned
  obtain ⟨phrase, d⟩ := w
  match phrase with
  | .unary => exact le_refl _
  | .primary | .power | .chain .product | .chain .sum => exact le

theorem extent_le_asTerm (w : Wording) : w.derivation.extent ≤ w.asTerm.extent := by
  have le := w.extent_le_asUnary.trans (Derivation.extent_le_single .product w.asUnary)
  obtain ⟨phrase, d⟩ := w
  match phrase with
  | .chain .product => exact le_refl _
  | .primary | .power | .unary | .chain .sum => exact le

theorem extent_le_asExpression (w : Wording) : w.derivation.extent ≤ w.asExpression.extent := by
  have le := w.extent_le_asTerm.trans (Derivation.extent_le_single .sum w.asTerm)
  obtain ⟨phrase, d⟩ := w
  match phrase with
  | .chain .sum => exact le_refl _
  | .primary | .power | .unary | .chain .product => exact le

-- The next four say for each place that the wording takes up no more there than it would as the next
-- tighter phrase. They differ only where the place is for the wording's own phrase.

/-- At the place of a primary phrase a wording takes up no more than it does in parentheses, and may do without them.
-/
theorem extent_placed_primary (w : Wording) :
    (w.placed .primary).extent ≤ (Derivation.parenthesized (w.placed .expression)).extent := by
  have le := w.extent_le_asExpression.trans w.asExpression.extent_le_parenthesized
  obtain ⟨phrase, d⟩ := w
  match phrase with
  | .primary => exact le
  | .power | .unary | .chain .product | .chain .sum => exact le_refl _

theorem extent_placed_power (w : Wording) :
    (w.placed .power).extent ≤ (Derivation.bare (w.placed .primary)).extent := by
  have le := w.extent_le_asPrimary
  obtain ⟨phrase, d⟩ := w
  match phrase with
  | .power => exact le
  | .primary | .unary | .chain .product | .chain .sum => exact le_refl _

theorem extent_placed_unary (w : Wording) :
    (w.placed .unary).extent ≤ (Derivation.unsigned (w.placed .power)).extent := by
  have le := w.extent_le_asPower.trans w.asPower.extent_le_unsigned
  obtain ⟨phrase, d⟩ := w
  match phrase with
  | .unary => exact le
  | .primary | .power | .chain .product | .chain .sum => exact le_refl _

/-- At the place of a chain a wording of that rank goes on as a chain, and need not become the operand of a new one.
-/
theorem extent_placed_chain (w : Wording) (rank : Rank) :
    (w.placed (.chain rank)).extent ≤ (Derivation.chain (w.placed rank.operand) .done).extent := by
  have leTerm := w.extent_le_asUnary.trans (Derivation.extent_le_single .product w.asUnary)
  have leExpression := w.extent_le_asTerm.trans (Derivation.extent_le_single .sum w.asTerm)
  obtain ⟨phrase, d⟩ := w
  match rank, phrase with
  | .product, .chain .product => exact leTerm
  | .product, .primary | .product, .power | .product, .unary | .product, .chain .sum => exact le_refl _
  | .sum, .chain .sum => exact leExpression
  | .sum, .primary | .sum, .power | .sum, .unary | .sum, .chain .product => exact le_refl _

end Wording

theorem Links.followed_done {rank : Rank} (x : Extent) : x.followed (Links.done : Links rank).extent = x := by
  simp [Extent.followed, extent, tokens, nesting]

theorem Links.extent_link {rank : Rank} (op : Operator rank) (operand : Derivation rank.operand) :
    (Links.next op operand .done).extent = ⟨op.token :: operand.tokens, operand.nesting⟩ := by
  simp [extent, tokens, nesting]

theorem Links.extent_link_mono {rank : Rank} (op : Operator rank) {d other : Derivation rank.operand}
    (le : d.extent ≤ other.extent) : (Links.next op d .done).extent ≤ (Links.next op other .done).extent := by
  rw [extent_link, extent_link]
  exact ⟨le.1.cons_cons _, le.2⟩

theorem Links.extent_next {rank : Rank} (op : Operator rank) (operand : Derivation rank.operand)
    (others : Links rank) :
    (Links.next op operand others).extent = (Links.next op operand .done).extent.followed others.extent := by
  rw [extent_link]
  rfl

/-- The left side of a chain is a part of its tree, and has words if the tree does. -/
theorem Links.left_writable {rank : Rank} : ∀ (links : Links rank) {left : Expr},
    (links.tree left).Writable → left.Writable
  | .done, _, writable => writable
  | .next _ _ others, _, writable => (left_writable others writable).2.1

/-- At the place of a chain of its own rank, an operation is its left side and one more link, which no parentheses
part. -/
theorem Wording.placed_linked {rank : Rank} (left right : Wording) (op : Operator rank) :
    (left.linked op right).placed (.chain rank) =
      (left.placed (.chain rank)).join (.next op (right.placed rank.operand) .done) := by
  cases rank <;> rfl

/-- An operation is worded by the operator that its links were made with. -/
theorem wording_linked {rank : Rank} (op : Operator rank) {left right : Expr}
    (writable : (Expr.binary left op.symbol right).Writable) :
    (Expr.binary left op.symbol right).wording writable =
      (left.wording writable.2.1).linked op (right.wording writable.2.2) := by
  cases op <;> rfl

mutual

/-- Whatever derivation an expression comes from, its rendering takes up no more. -/
theorem Derivation.wording_extent : ∀ {phrase : Phrase} (d : Derivation phrase) (writable : d.tree.Writable),
    ((d.tree.wording writable).placed phrase).extent ≤ d.extent
  | .chain rank, .chain first links, writable => by
    let w := first.tree.wording (links.left_writable writable)
    have atFirst : (w.placed (.chain rank)).extent ≤ first.extent :=
      calc (w.placed (.chain rank)).extent
        _ ≤ (Derivation.chain (w.placed rank.operand) .done).extent := w.extent_placed_chain rank
        _ = (w.placed rank.operand).extent := Derivation.extent_single _
        _ ≤ first.extent := first.wording_extent _
    exact links.wording_extent first.tree writable _ _ atFirst
  | _, .signed sign operand, writable => by
    cases sign
    · exact Derivation.extent_signed_mono _ (operand.wording_extent _)
    · exact Derivation.extent_signed_mono _ (operand.wording_extent _)
  | _, .unsigned power, writable =>
    (Wording.extent_placed_unary _).trans (Derivation.extent_unsigned_mono (power.wording_extent writable))
  | _, .bare base, writable => (Wording.extent_placed_power _).trans (base.wording_extent writable)
  | _, .raised base exponent, _ =>
    Derivation.extent_raised_mono (base.wording_extent _) (exponent.wording_extent _)
  | _, .number value, _ => le_refl _
  | _, .symbol name, _ => le_refl _
  | _, .call name args, writable => Derivation.extent_call_mono name (args.wordings_extent writable.2)
  | _, .parenthesized inner, writable =>
    (Wording.extent_placed_primary _).trans (Derivation.extent_parenthesized_mono (inner.wording_extent writable))

/-- Along the links the left side grows to the left, as the tree does, and the bound on it grows by the extent of each
link. -/
theorem Links.wording_extent {rank : Rank} : ∀ (links : Links rank) (left : Expr)
    (writable : (links.tree left).Writable) (leftWritable : left.Writable) (x : Extent),
    ((left.wording leftWritable).placed (.chain rank)).extent ≤ x →
    (((links.tree left).wording writable).placed (.chain rank)).extent ≤ x.followed links.extent
  | .done, _, _, _, x, le => le.trans_eq (Links.followed_done x).symm
  | .next op operand others, left, writable, leftWritable, x, le => by
    have linked := others.left_writable writable
    rw [Links.extent_next, ← Extent.followed_assoc]
    refine others.wording_extent _ writable linked _ ?_
    rw [wording_linked op, Wording.placed_linked, Derivation.extent_join]
    exact Extent.followed_mono le (Links.extent_link_mono op (operand.wording_extent _))

theorem Arguments.wordings_extent : ∀ (args : Arguments) (writable : Expr.AllWritable args.trees),
    (Expr.argumentWordings args.trees writable).extent ≤ args.extent
  | .none, _ => le_refl _
  | .some first others, _ =>
    Extent.followed_mono (first.wording_extent _) (others.wordings_extent _)

theorem FurtherArguments.wordings_extent : ∀ (args : FurtherArguments) (writable : Expr.AllWritable args.trees),
    (Expr.furtherWordings args.trees writable).extent ≤ args.extent
  | .done, _ => le_refl _
  | .next arg others, writable => by
    have le := Extent.followed_mono (arg.wording_extent writable.1) (others.wordings_extent writable.2)
    exact ⟨le.1.cons_cons _, le.2⟩

end

end EulerFlow.Grammar
