import EulerFlow.Proofs.PrintParse

namespace EulerFlow

mutual

/-- How many expressions lie inside one another, which is how deep a walk through all of them recurs. -/
def Expr.height : Expr → Nat
  | .constant _ => 1
  | .symbol _ => 1
  | .binary left _ right => max left.height right.height + 1
  | .unary _ operand => operand.height + 1
  | .call _ args => Expr.heightOf args + 1

/-- The height of the highest of several expressions. -/
def Expr.heightOf : List Expr → Nat
  | [] => 0
  | arg :: args => max arg.height (Expr.heightOf args)

end

/-- Even a constant is one level high. -/
theorem Expr.height_pos (e : Expr) : 0 < e.height := by
  cases e <;> exact Nat.succ_pos _

namespace Grammar

/-- The number of operators in a chain. -/
def Links.length {rank : Rank} : Links rank → Nat
  | .done => 0
  | .next _ _ others => others.length + 1

mutual

/-- The largest number of operators in one chain. -/
def Derivation.width {phrase : Phrase} : Derivation phrase → Nat
  | .chain first links => max links.length (max first.width links.width)
  | .signed _ operand => operand.width
  | .unsigned power => power.width
  | .bare base => base.width
  | .raised base exponent => max base.width exponent.width
  | .number _ => 0
  | .symbol _ => 0
  | .call _ args => args.width
  | .parenthesized inner => inner.width

/-- The largest number of operators in a chain within an operand. -/
def Links.width {rank : Rank} : Links rank → Nat
  | .done => 0
  | .next _ operand others => max operand.width others.width

/-- The largest number of operators in a chain within an argument. -/
def Arguments.width : Arguments → Nat
  | .none => 0
  | .some first others => max first.width others.width

/-- The same behind the first argument. -/
def FurtherArguments.width : FurtherArguments → Nat
  | .done => 0
  | .next arg others => max arg.width others.width

end

/-- How much higher than its unary phrases a phrase can be, if no chain in it has more than `w` operators. -/
def Phrase.rise (w : Nat) : Phrase → Nat
  | .chain .sum => 2 * w
  | .chain .product => w
  | .unary => 0
  | .power => 2 * w + 2
  | .primary => 2 * w + 1

theorem Rank.rise_operand (rank : Rank) (w : Nat) : rank.operand.rise w + w = (Phrase.chain rank).rise w := by
  cases rank
  · exact (Nat.two_mul w).symm
  · exact Nat.zero_add w

/-- What lies `n` unary phrases deep may be this high. -/
def ceiling (w n : Nat) : Nat :=
  n * (2 * w + 2)

theorem ceiling_max (w n m : Nat) : ceiling w (max n m) = max (ceiling w n) (ceiling w m) :=
  (Nat.mul_max_mul_right n m (2 * w + 2)).symm

theorem ceiling_succ (w n : Nat) : ceiling w (n + 1) = ceiling w n + 2 * w + 2 :=
  Nat.succ_mul n (2 * w + 2)

mutual

/-- A tree is at most as high as its nesting allows for, if on each level the chains are as wide as the widest. -/
theorem Derivation.height_le {w : Nat} : ∀ {phrase : Phrase} (d : Derivation phrase), d.width ≤ w →
    d.tree.height ≤ ceiling w d.nesting + phrase.rise w
  | .chain rank, .chain first links, narrow => by
    obtain ⟨short, narrow⟩ := Nat.max_le.mp narrow
    obtain ⟨narrowFirst, narrowLinks⟩ := Nat.max_le.mp narrow
    have atFirst := first.height_le narrowFirst
    have whole := links.height_le narrowLinks atFirst
    have rise := rank.rise_operand w
    rw [Derivation.tree, Derivation.nesting, ceiling_max]
    omega
  | _, .signed sign operand, narrow => by
    have atOperand := operand.height_le narrow
    rw [Derivation.tree, Derivation.nesting, Expr.height, ceiling_succ]
    simp only [Phrase.rise] at *
    omega
  | _, .unsigned power, narrow => by
    have atPower := power.height_le narrow
    rw [Derivation.tree, Derivation.nesting, ceiling_succ]
    simp only [Phrase.rise] at *
    omega
  | _, .bare base, narrow => Nat.le_succ_of_le (base.height_le narrow)
  | _, .raised base exponent, narrow => by
    obtain ⟨narrowBase, narrowExponent⟩ := Nat.max_le.mp narrow
    have atBase := base.height_le narrowBase
    have atExponent := exponent.height_le narrowExponent
    rw [Derivation.tree, Derivation.nesting, Expr.height, ceiling_max]
    simp only [Phrase.rise] at *
    omega
  | _, .number _, _ => Nat.le_add_left 1 _
  | _, .symbol _, _ => Nat.le_add_left 1 _
  | _, .call name args, narrow => Nat.succ_le_succ (args.heights_le narrow)
  | _, .parenthesized inner, narrow => Nat.le_succ_of_le (inner.height_le narrow)

/-- Each link puts one more operation around what stands to its left. -/
theorem Links.height_le {w h : Nat} {rank : Rank} : ∀ (links : Links rank) {left : Expr}, links.width ≤ w →
    left.height ≤ h →
    (links.tree left).height ≤ max h (ceiling w links.nesting + rank.operand.rise w) + links.length
  | .done, _, _, low => Nat.le_trans low (Nat.le_max_left ..)
  | .next op operand others, left, narrow, low => by
    obtain ⟨narrowOperand, narrowOthers⟩ := Nat.max_le.mp narrow
    have atOperand := operand.height_le narrowOperand
    have joined : (Expr.binary left op.symbol operand.tree).height ≤ max left.height operand.tree.height + 1 :=
      Nat.le_refl _
    have whole := others.height_le narrowOthers joined
    rw [Links.tree, Links.nesting, Links.length, ceiling_max]
    omega

theorem Arguments.heights_le {w : Nat} : ∀ args : Arguments, args.width ≤ w →
    Expr.heightOf args.trees ≤ ceiling w args.nesting + 2 * w
  | .none, _ => Nat.zero_le _
  | .some first others, narrow => by
    obtain ⟨narrowFirst, narrowOthers⟩ := Nat.max_le.mp narrow
    have atFirst := first.height_le narrowFirst
    have atOthers := others.heights_le narrowOthers
    rw [Arguments.trees, Arguments.nesting, Expr.heightOf, ceiling_max]
    simp only [Phrase.rise] at *
    omega

theorem FurtherArguments.heights_le {w : Nat} : ∀ args : FurtherArguments, args.width ≤ w →
    Expr.heightOf args.trees ≤ ceiling w args.nesting + 2 * w
  | .done, _ => Nat.zero_le _
  | .next arg others, narrow => by
    obtain ⟨narrowArg, narrowOthers⟩ := Nat.max_le.mp narrow
    have atArg := arg.height_le narrowArg
    have atOthers := others.heights_le narrowOthers
    rw [FurtherArguments.trees, FurtherArguments.nesting, Expr.heightOf, ceiling_max]
    simp only [Phrase.rise] at *
    omega

end

/-- Each operator of a chain puts one more expression around all that stands before it. -/
theorem Links.height_grows {h : Nat} {rank : Rank} : ∀ (links : Links rank) {left : Expr}, h ≤ left.height →
    h + links.length ≤ (links.tree left).height
  | .done, _, high => high
  | .next op operand others, left, high => by
    have around : h + 1 ≤ (Expr.binary left op.symbol operand.tree).height :=
      Nat.succ_le_succ (Nat.le_trans high (Nat.le_max_left ..))
    have whole := others.height_grows around
    rw [Links.tree, Links.length]
    omega

mutual

/-- No chain is wider than the tree is high, for it is as deep in the tree as it is wide. -/
theorem Derivation.width_lt : ∀ {phrase : Phrase} (d : Derivation phrase), d.width < d.tree.height
  | _, .chain first links => by
    have atFirst := first.width_lt
    have grown := links.height_grows atFirst
    have atLinks := links.width_lt first.tree
    rw [Derivation.tree, Derivation.width]
    omega
  | _, .signed _ operand => Nat.lt_succ_of_lt operand.width_lt
  | _, .unsigned power => power.width_lt
  | _, .bare base => base.width_lt
  | _, .raised base exponent => by
    have atBase := base.width_lt
    have atExponent := exponent.width_lt
    rw [Derivation.tree, Derivation.width, Expr.height]
    omega
  | _, .number _ => Nat.succ_pos 0
  | _, .symbol _ => Nat.succ_pos 0
  | _, .call _ args => Nat.lt_succ_of_le args.width_le
  | _, .parenthesized inner => inner.width_lt

theorem Links.width_lt {rank : Rank} : ∀ (links : Links rank) (left : Expr), links.width < (links.tree left).height
  | .done, left => left.height_pos
  | .next op operand others, left => by
    have atOperand := operand.width_lt
    have inside : operand.tree.height < (Expr.binary left op.symbol operand.tree).height :=
      Nat.lt_succ_of_le (Nat.le_max_right ..)
    have grown := others.height_grows inside
    have atOthers := others.width_lt (.binary left op.symbol operand.tree)
    rw [Links.tree, Links.width]
    omega

theorem Arguments.width_le : ∀ args : Arguments, args.width ≤ Expr.heightOf args.trees
  | .none => Nat.le_refl 0
  | .some first others => by
    have atFirst := first.width_lt
    have atOthers := others.width_le
    rw [Arguments.trees, Arguments.width, Expr.heightOf]
    omega

theorem FurtherArguments.width_le : ∀ args : FurtherArguments, args.width ≤ Expr.heightOf args.trees
  | .done => Nat.le_refl 0
  | .next arg others => by
    have atArg := arg.width_lt
    have atOthers := others.width_le
    rw [FurtherArguments.trees, FurtherArguments.width, Expr.heightOf]
    omega

end

/-- The limit on nesting bounds the height of what is read only together with the longest chain. Among texts whose
chains may be of any length there is no bound, and among others there is. -/
theorem parsed_height {text : String} {e : Expr} (read : Expr.parse text = .ok e) :
    ∃ d : Derivation .expression, Written d text ∧ d.tree = e ∧
      d.width < e.height ∧ e.height ≤ (maxDepth + 1) * (2 * d.width + 2) := by
  obtain ⟨d, written, shallow, rfl⟩ := written_of_parse read
  refine ⟨d, written, rfl, d.width_lt, ?_⟩
  calc d.tree.height
    _ ≤ ceiling d.width d.nesting + 2 * d.width := d.height_le (Nat.le_refl _)
    _ ≤ ceiling d.width maxDepth + 2 * d.width := Nat.add_le_add_right (Nat.mul_le_mul_right _ shallow) _
    _ ≤ ceiling d.width (maxDepth + 1) := by rw [ceiling_succ]; omega

/-- The term that is the number one. -/
def one : Derivation .term :=
  .chain (.unsigned (.bare (.number (Decimal.toFloat ⟨1, 0⟩)))) .done

/-- The links of a sum of further ones. -/
def ones : Nat → Links .sum
  | 0 => .done
  | n + 1 => .next .plus one (ones n)

/-- So many times a plus sign and a one. -/
def onesChars : Nat → List Char
  | 0 => []
  | n + 1 => '+' :: '1' :: onesChars n

/-- The text `1+1+...+1` with `n` signs. -/
def onesText (n : Nat) : String :=
  String.ofList ('1' :: onesChars n)

theorem ones_length (n : Nat) : (ones n).length = n := by
  induction n with
  | zero => rfl
  | succ n ih => exact congrArg (· + 1) ih

/-- A longer chain is not nested deeper. -/
theorem ones_nesting (n : Nat) : (ones n).nesting ≤ 1 := by
  induction n with
  | zero => exact Nat.zero_le 1
  | succ n ih => exact Nat.max_le.mpr ⟨Nat.le_refl 1, ih⟩

theorem ones_written (n : Nat) : Written (.chain one (ones n)) (onesText n) := by
  have digit : Lexeme.Spells (.number (Decimal.toFloat ⟨1, 0⟩)) ['1'] := .number (by decide) rfl
  have others : Lexeme.Spelling (ones n).tokens (onesChars n) := by
    induction n with
    | zero => exact .done
    | succ n ih => exact .token (.mark rfl) (.token digit ih)
  rw [Written, onesText, String.toList_ofList]
  exact .token digit others

/-- A sum nests nothing. -/
theorem parse_onesText (n : Nat) :
    Expr.parse (onesText n) = .ok (Derivation.chain one (ones n) : Derivation .expression).tree := by
  have nesting : (Derivation.chain one (ones n) : Derivation .expression).nesting = 1 :=
    Nat.max_eq_left (ones_nesting n)
  rw [parse_written (ones_written n), nesting]
  rfl

theorem parsed_height_three :
    ∃ (e : Expr) (d : Derivation .expression), Expr.parse "1+1+1+1" = .ok e ∧ Written d "1+1+1+1" ∧ d.tree = e ∧
      d.width < e.height ∧ e.height ≤ (maxDepth + 1) * (2 * d.width + 2) := by
  have read := parse_onesText 3
  obtain ⟨d, written, tree, bounds⟩ := parsed_height read
  exact ⟨_, d, read, written, tree, bounds⟩

/-- What is read from a sum is as high as the sum is long. -/
theorem parsed_height_unbounded :
    ¬ ∃ bound : Nat, ∀ (text : String) (e : Expr), Expr.parse text = .ok e → e.height ≤ bound := by
  rintro ⟨bound, low⟩
  have here : ((ones bound).tree one.tree).height ≤ bound := low _ _ (parse_onesText bound)
  have grown := (ones bound).height_grows one.tree.height_pos
  rw [ones_length] at grown
  omega

end Grammar

end EulerFlow
