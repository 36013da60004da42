import EulerFlow.Expr.Basic
import EulerFlow.Expr.Lexeme

namespace EulerFlow

namespace Grammar

/-- What was read off the front of a list of tokens, and the rest, which is shorter. -/
structure Parsed (α : Type) (ts : List Token) where
  value : α
  rest : List Token
  shorter : rest.length < ts.length

/-- A reader of one phrase at the front of a list of tokens. -/
abbrev Reader (α : Type) := (ts : List Token) → Except ParseError (Parsed α ts)

/-- The same phrase, read from a longer list. -/
def Parsed.widen {α : Type} {ts us : List Token} (p : Parsed α ts) (longer : ts.length ≤ us.length) :
    Parsed α us :=
  ⟨p.value, p.rest, Nat.lt_of_lt_of_le p.shorter longer⟩

/-- Another value read from the same tokens. -/
def Parsed.map {α β : Type} {ts : List Token} (f : α → β) (p : Parsed α ts) : Parsed β ts :=
  ⟨f p.value, p.rest, p.shorter⟩

/-- The operator of a token that stands between terms. -/
def sum? : Token → Option String
  | .plus => some "+"
  | .minus => some "-"
  | _ => none

/-- The operator of a token that stands between unary phrases. -/
def product? : Token → Option String
  | .star => some "*"
  | .slash => some "/"
  | _ => none

/-- Continues a chain whose operands so far have the value `left`: each operator that
follows takes one more operand and makes all before it its left side. -/
def chainFrom (op? : Token → Option String) (operand : Reader Expr) {ts : List Token}
    (left : Parsed Expr ts) : Except ParseError (Parsed Expr ts) :=
  match following : left.rest with
  | [] => .ok left
  | t :: us =>
    match op? t with
    | none => .ok left
    | some op =>
      match operand us with
      | .error fault => .error fault
      | .ok right =>
        have consumed : us.length < left.rest.length := by rw [following]; exact Nat.lt_succ_self _
        chainFrom op? operand ⟨.binary left.value op right.value, right.rest,
          Nat.lt_trans right.shorter (Nat.lt_trans consumed left.shorter)⟩
termination_by left.rest.length
decreasing_by exact Nat.lt_trans right.shorter consumed

/-- Operands with operators of one rank between them. -/
def chain (op? : Token → Option String) (operand : Reader Expr) : Reader Expr := fun ts =>
  match operand ts with
  | .error fault => .error fault
  | .ok first => chainFrom op? operand first

/-- Unary phrases with signs of multiplication and division between them. -/
def term (unary : Reader Expr) : Reader Expr :=
  chain product? unary

/-- Products are the operands of sums. -/
def expression (unary : Reader Expr) : Reader Expr :=
  chain sum? (term unary)

/-- Arguments up to and with the closing parenthesis; at least one is read. -/
def argumentsFrom (unary : Reader Expr) (ts : List Token) : Except ParseError (Parsed (List Expr) ts) :=
  match expression unary ts with
  | .error fault => .error fault
  | .ok first =>
    match following : first.rest with
    | [] => .error .unexpectedEnd
    | .closing :: us =>
      .ok ⟨[first.value], us, Nat.lt_trans (by rw [following]; exact Nat.lt_succ_self _) first.shorter⟩
    | .comma :: us =>
      have consumed : us.length < ts.length :=
        Nat.lt_trans (by rw [following]; exact Nat.lt_succ_self _) first.shorter
      match argumentsFrom unary us with
      | .error fault => .error fault
      | .ok others => .ok ((others.map (first.value :: ·)).widen (Nat.le_of_lt consumed))
    | t :: _ => .error (.expected .commaOrClosing t)
termination_by ts.length

/-- What stands between the parentheses of a call, with the closing one. -/
def arguments (unary : Reader Expr) : Reader (List Expr)
  | .closing :: us => .ok ⟨[], us, Nat.lt_succ_self _⟩
  | ts => argumentsFrom unary ts

/-- A number, a variable, a call, or an expression in parentheses. -/
def primary (unary : Reader Expr) : Reader Expr
  | [] => .error .unexpectedEnd
  | .number value :: ts => .ok ⟨.constant value, ts, Nat.lt_succ_self _⟩
  | .identifier name :: .opening :: ts =>
    match arguments unary ts with
    | .error fault => .error fault
    | .ok args => .ok ((args.map (.call name)).widen (Nat.le_trans (Nat.le_succ _) (Nat.le_succ _)))
  | .identifier name :: ts => .ok ⟨.symbol name, ts, Nat.lt_succ_self _⟩
  | .opening :: ts =>
    match expression unary ts with
    | .error fault => .error fault
    | .ok inner =>
      match following : inner.rest with
      | [] => .error .unexpectedEnd
      | .closing :: us =>
        .ok ⟨inner.value, us, Nat.lt_succ_of_lt
          (Nat.lt_trans (by rw [following]; exact Nat.lt_succ_self _) inner.shorter)⟩
      | t :: _ => .error (.expected .closing t)
  | t :: _ => .error (.expected .operand t)

/-- A base with an optional exponent, which may carry a sign and a further exponent. -/
def power (unary : Reader Expr) : Reader Expr := fun ts =>
  match primary unary ts with
  | .error fault => .error fault
  | .ok base =>
    match following : base.rest with
    | .caret :: us =>
      have consumed : us.length < ts.length :=
        Nat.lt_trans (by rw [following]; exact Nat.lt_succ_self _) base.shorter
      match unary us with
      | .error fault => .error fault
      | .ok exponent =>
        .ok ((exponent.map (.binary base.value "^")).widen (Nat.le_of_lt consumed))
    | _ => .ok base

/-- A sign before a signed operand, or a power. -/
def signed (unary : Reader Expr) : Reader Expr
  | .minus :: ts =>
    match unary ts with
    | .error fault => .error fault
    | .ok operand => .ok ((operand.map (.unary "-")).widen (Nat.le_succ _))
  | .plus :: ts =>
    match unary ts with
    | .error fault => .error fault
    | .ok operand => .ok ((operand.map (.unary "+")).widen (Nat.le_succ _))
  | ts => power unary ts

/-- An operand below at most the given number of further levels. Each sign, exponent,
parenthesis and argument reads its operand one level down, so the levels
bound the recursion. -/
def unary : (levels : Nat) → Reader Expr
  | 0, _ => .error .tooDeep
  | levels + 1, ts => signed (unary levels) ts

/-- The expression that makes up the whole list of tokens. -/
def parseTokens (ts : List Token) : Except ParseError Expr :=
  match expression (unary maxDepth) ts with
  | .error fault => .error fault
  | .ok whole =>
    match whole.rest with
    | [] => .ok whole.value
    | t :: _ => .error (.expected .endOfInput t)

end Grammar

/-- The expression that a text stands for. The whole text is cut into tokens first, so
a bad character or number wins over any fault of grammar. -/
def Expr.parse (text : String) : Except ParseError Expr :=
  match tokenize text with
  | .error fault => .error fault
  | .ok ts => Grammar.parseTokens ts

end EulerFlow
