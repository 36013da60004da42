import EulerFlow.Expr.Parse
import EulerFlow.Expr.Vocabulary

namespace EulerFlow.Grammar

/-- The two ranks of operators that stand between operands in a row. -/
inductive Rank where
  | sum
  | product

/-- The operators of each rank. The signs of a sum are those that stand before an operand, too. -/
inductive Operator : Rank → Type where
  | plus : Operator .sum
  | minus : Operator .sum
  | times : Operator .product
  | over : Operator .product

/-- The token that an operator is written as. -/
def Operator.token {rank : Rank} : Operator rank → Token
  | .plus => .plus
  | .minus => .minus
  | .times => .star
  | .over => .slash

/-- The name that an operator has in an expression. -/
def Operator.symbol {rank : Rank} : Operator rank → String
  | .plus => "+"
  | .minus => "-"
  | .times => "*"
  | .over => "/"

/-- The phrases of the grammar. An expression is a chain of terms with signs between
them, and a term is a chain of unary phrases. -/
inductive Phrase where
  | chain (rank : Rank)
  | unary
  | power
  | primary

/-- A chain of unary phrases. -/
abbrev Phrase.term : Phrase := .chain .product

/-- A chain of terms. -/
abbrev Phrase.expression : Phrase := .chain .sum

/-- The phrase that stands between operators of one rank. -/
def Rank.operand : Rank → Phrase
  | .sum => .term
  | .product => .unary

mutual

/-- Derivations in the grammar
`expression := term (('+' | '-') term)*`, `term := unary (('*' | '/') unary)*`,
`unary := ('+' | '-') unary | power`, `power := primary ('^' unary)?`,
`primary := number | name | name '(' arguments ')' | '(' expression ')'`. -/
inductive Derivation : Phrase → Type where
  | chain {rank : Rank} (first : Derivation rank.operand) (links : Links rank) : Derivation (.chain rank)
  | signed (sign : Operator .sum) (operand : Derivation .unary) : Derivation .unary
  | unsigned (power : Derivation .power) : Derivation .unary
  | bare (base : Derivation .primary) : Derivation .power
  | raised (base : Derivation .primary) (exponent : Derivation .unary) : Derivation .power
  | number (value : Float) : Derivation .primary
  | symbol (name : String) : Derivation .primary
  | call (name : String) (args : Arguments) : Derivation .primary
  | parenthesized (inner : Derivation .expression) : Derivation .primary

/-- The repeated part of a chain. -/
inductive Links : Rank → Type where
  | done {rank : Rank} : Links rank
  | next {rank : Rank} (op : Operator rank) (operand : Derivation rank.operand) (others : Links rank) : Links rank

/-- `arguments := nothing | expression (',' expression)*`. -/
inductive Arguments : Type where
  | none
  | some (first : Derivation .expression) (others : FurtherArguments)

/-- The repeated part of the arguments, each with the comma before it. -/
inductive FurtherArguments : Type where
  | done
  | next (arg : Derivation .expression) (others : FurtherArguments)

end

mutual

/-- The tokens that a derivation derives its phrase to. -/
def Derivation.tokens {phrase : Phrase} : Derivation phrase → List Token
  | .chain first links => first.tokens ++ links.tokens
  | .signed sign operand => sign.token :: operand.tokens
  | .unsigned power => power.tokens
  | .bare base => base.tokens
  | .raised base exponent => base.tokens ++ .caret :: exponent.tokens
  | .number value => [.number value]
  | .symbol name => [.identifier name]
  | .call name args => .identifier name :: .opening :: (args.tokens ++ [.closing])
  | .parenthesized inner => .opening :: (inner.tokens ++ [.closing])

/-- The tokens behind the first operand of a chain. -/
def Links.tokens {rank : Rank} : Links rank → List Token
  | .done => []
  | .next op operand others => op.token :: (operand.tokens ++ others.tokens)

/-- The tokens between the parentheses of a call. -/
def Arguments.tokens : Arguments → List Token
  | .none => []
  | .some first others => first.tokens ++ others.tokens

/-- The tokens behind the first argument. -/
def FurtherArguments.tokens : FurtherArguments → List Token
  | .done => []
  | .next arg others => .comma :: (arg.tokens ++ others.tokens)

end

mutual

/-- The expression that a derivation stands for. Parentheses leave no trace in it. -/
def Derivation.tree {phrase : Phrase} : Derivation phrase → Expr
  | .chain first links => links.tree first.tree
  | .signed sign operand => .unary sign.symbol operand.tree
  | .unsigned power => power.tree
  | .bare base => base.tree
  | .raised base exponent => .binary base.tree "^" exponent.tree
  | .number value => .constant value
  | .symbol name => .symbol name
  | .call name args => .call name args.trees
  | .parenthesized inner => inner.tree

/-- Chains nest to the left: what has been read so far becomes the left side. -/
def Links.tree {rank : Rank} (left : Expr) : Links rank → Expr
  | .done => left
  | .next op operand others => others.tree (.binary left op.symbol operand.tree)

/-- The arguments that are derived, in order. -/
def Arguments.trees : Arguments → List Expr
  | .none => []
  | .some first others => first.tree :: others.trees

/-- The arguments behind the first one. -/
def FurtherArguments.trees : FurtherArguments → List Expr
  | .done => []
  | .next arg others => arg.tree :: others.trees

end

mutual

/-- The largest number of unary phrases of which each lies inside the one before. -/
def Derivation.nesting {phrase : Phrase} : Derivation phrase → Nat
  | .chain first links => max first.nesting links.nesting
  | .signed _ operand => operand.nesting + 1
  | .unsigned power => power.nesting + 1
  | .bare base => base.nesting
  | .raised base exponent => max base.nesting exponent.nesting
  | .number _ => 0
  | .symbol _ => 0
  | .call _ args => args.nesting
  | .parenthesized inner => inner.nesting

/-- The nesting of the deepest operand behind the first. Operands lie side by side, not inside one another. -/
def Links.nesting {rank : Rank} : Links rank → Nat
  | .done => 0
  | .next _ operand others => max operand.nesting others.nesting

/-- The nesting of the deepest argument. -/
def Arguments.nesting : Arguments → Nat
  | .none => 0
  | .some first others => max first.nesting others.nesting

/-- The nesting of the deepest argument behind the first. -/
def FurtherArguments.nesting : FurtherArguments → Nat
  | .done => 0
  | .next arg others => max arg.nesting others.nesting

end

/-- The operator of a rank that a token stands for. -/
def Rank.op? : Rank → Token → Option String
  | .sum => sum?
  | .product => product?

/-- The parser takes every operator of a rank for what the grammar has it be. -/
@[simp] theorem Rank.op?_token {rank : Rank} (op : Operator rank) : rank.op? op.token = some op.symbol := by
  cases op <;> rfl

/-- The parser takes nothing else for an operator of a rank, so its loops stop where a chain does. -/
theorem Rank.exists_operator {rank : Rank} {t : Token} {name : String} (known : rank.op? t = some name) :
    ∃ op : Operator rank, op.token = t ∧ op.symbol = name := by
  cases rank with
  | sum =>
    simp only [Rank.op?] at known
    unfold sum? at known
    split at known
    · exact ⟨.plus, rfl, Option.some.inj known⟩
    · exact ⟨.minus, rfl, Option.some.inj known⟩
    · simp at known
  | product =>
    simp only [Rank.op?] at known
    unfold product? at known
    split at known
    · exact ⟨.times, rfl, Option.some.inj known⟩
    · exact ⟨.over, rfl, Option.some.inj known⟩
    · simp at known

/-- What a chain is made of can be evaluated: the grammar has no operator that the vocabulary lacks. -/
theorem Operator.binary_known {rank : Rank} (op : Operator rank) : (BinaryOp.ofSymbol? op.symbol).isSome := by
  cases op <;> rfl

theorem Operator.unary_known (sign : Operator .sum) : (UnaryOp.ofSymbol? sign.symbol).isSome := by
  cases sign <;> rfl

end EulerFlow.Grammar
