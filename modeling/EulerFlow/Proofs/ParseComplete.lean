import EulerFlow.Proofs.Derivation

namespace EulerFlow.Grammar

/-- How tightly a token ties what follows it to a phrase that ends before it. Only a
parenthesis behind a name ties more tightly than a caret. -/
def binding : Token → Nat
  | .plus => 1
  | .minus => 1
  | .star => 2
  | .slash => 2
  | .caret => 3
  | .opening => 4
  | _ => 0

/-- The least binding of a token that a phrase does not end before. -/
def Phrase.binding : Phrase → Nat
  | .chain .sum => 1
  | .chain .product => 2
  | .unary => 3
  | .power => 3
  | .primary => 4

/-- The phrase cannot go on with the tokens. -/
def Phrase.Stops (phrase : Phrase) (rest : List Token) : Prop :=
  ∀ t ∈ rest.head?, Grammar.binding t < phrase.binding

/-- What stops a looser phrase stops a tighter one. -/
theorem Phrase.Stops.mono {loose tight : Phrase} {rest : List Token} (stops : loose.Stops rest)
    (tighter : loose.binding ≤ tight.binding) : tight.Stops rest :=
  fun t first => Nat.lt_of_lt_of_le (stops t first) tighter

theorem Phrase.Stops.nil (phrase : Phrase) : phrase.Stops [] := by
  simp [Phrase.Stops]

theorem Phrase.Stops.cons {phrase : Phrase} {t : Token} {us : List Token}
    (loose : Grammar.binding t < phrase.binding) : phrase.Stops (t :: us) := by
  simpa [Phrase.Stops] using loose

/-- A token that binds too loosely for a chain is none of its operators, so the loop of the chain stops there. -/
theorem Rank.op?_eq_none {rank : Rank} {t : Token}
    (loose : Grammar.binding t < (Phrase.chain rank).binding) : rank.op? t = none := by
  cases rank <;> cases t <;> first | rfl | exact absurd loose (by decide)

/-- What a parser answers on the tokens of a derivation: its value, if the nesting fits into the
levels, and otherwise that it is too deep, whatever comes later. -/
structure Settles {α : Type} {ts : List Token} (answer : Except ParseError (Parsed α ts))
    (levels nesting : Nat) (value : α) (rest : List Token) : Prop where
  found : nesting ≤ levels → ∃ shorter, answer = .ok ⟨value, rest, shorter⟩
  tooDeep : levels < nesting → answer = .error .tooDeep

namespace Settles

variable {α β : Type} {ts us : List Token} {levels n m : Nat}

/-- Nothing nested is never too deep. -/
theorem done {value : α} {rest : List Token} (shorter : rest.length < ts.length) :
    Settles (.ok ⟨value, rest, shorter⟩) levels 0 value rest :=
  ⟨fun _ => ⟨shorter, rfl⟩, fun deep => absurd deep (Nat.not_lt_zero _)⟩

/-- A phrase of two parts: the first one is read first, and its depth fault is the fault of the whole. -/
theorem andThen {part : Except ParseError (Parsed β us)} {answer : Except ParseError (Parsed α ts)}
    {v : β} {w : α} {middle rest : List Token} (atPart : Settles part levels n v middle)
    (fails : part = .error .tooDeep → answer = .error .tooDeep)
    (goesOn : ∀ shorter, part = .ok ⟨v, middle, shorter⟩ → Settles answer levels m w rest) :
    Settles answer levels (max n m) w rest := by
  constructor
  · intro within
    obtain ⟨shallow, shallowRest⟩ := Nat.max_le.mp within
    obtain ⟨shorter, found⟩ := atPart.found shallow
    exact (goesOn shorter found).found shallowRest
  · intro deep
    rcases Nat.lt_or_ge levels n with deepPart | shallow
    · exact fails (atPart.tooDeep deepPart)
    · obtain ⟨shorter, found⟩ := atPart.found shallow
      exact (goesOn shorter found).tooDeep (by omega)

/-- A phrase with one part that is nested. -/
theorem wrap {part : Except ParseError (Parsed β us)} {answer : Except ParseError (Parsed α ts)}
    {v : β} {w : α} {middle rest : List Token} (atPart : Settles part levels n v middle)
    (fails : part = .error .tooDeep → answer = .error .tooDeep)
    (goesOn : ∀ shorter, part = .ok ⟨v, middle, shorter⟩ →
      ∃ p, answer = .ok p ∧ p.value = w ∧ p.rest = rest) :
    Settles answer levels n w rest := by
  rw [← Nat.max_zero n]
  refine atPart.andThen fails fun shorter found => ?_
  obtain ⟨p, rfl, rfl, rfl⟩ := goesOn shorter found
  exact .done p.shorter

/-- One more level has room for one more unary phrase around the others. -/
theorem deeper {answer : Except ParseError (Parsed α ts)} {value : α} {rest : List Token}
    (settled : Settles answer levels n value rest) : Settles answer (levels + 1) (n + 1) value rest :=
  ⟨fun within => settled.found (Nat.le_of_succ_le_succ within),
    fun deep => settled.tooDeep (Nat.lt_of_succ_lt_succ deep)⟩

end Settles

/-- The reader reads every phrase, unless it is nested too deep, and stops behind it. -/
def Reader.Complete (reader : Reader Expr) (phrase : Phrase) (levels : Nat) : Prop :=
  ∀ (d : Derivation phrase) (rest : List Token), phrase.Stops rest →
    Settles (reader (d.tokens ++ rest)) levels d.nesting d.tree rest

/-- Between the operands of a chain stand operators, which stop each of them. -/
theorem Rank.links_stop {rank : Rank} {rest : List Token} (links : Links rank)
    (stops : (Phrase.chain rank).Stops rest) : rank.operand.Stops (links.tokens ++ rest) := by
  cases links with
  | done => cases rank <;> exact stops.mono (by decide)
  | next op operand others => cases op <;> exact .cons (by decide)

/-- The loop takes the links one by one, and stops behind the last. -/
theorem chainFrom_complete {rank : Rank} {operand : Reader Expr} {levels : Nat}
    (complete : operand.Complete rank.operand levels) {ts rest : List Token}
    (stops : (Phrase.chain rank).Stops rest) (links : Links rank) (left : Parsed Expr ts)
    (following : left.rest = links.tokens ++ rest) :
    Settles (chainFrom rank.op? operand left) levels links.nesting (links.tree left.value) rest := by
  match links with
  | .done =>
    obtain ⟨value, remaining, shorter⟩ := left
    cases following
    rw [chainFrom]
    cases rest with
    | nil => exact .done shorter
    | cons t us =>
      have unknown : rank.op? t = none := Rank.op?_eq_none (stops t rfl)
      simp only [unknown]
      exact .done shorter
  | .next op second others =>
    rw [Links.tokens, List.cons_append, List.append_assoc] at following
    obtain ⟨value, remaining, shorter⟩ := left
    cases following
    rw [chainFrom]
    simp only [Rank.op?_token]
    refine (complete second _ (Rank.links_stop others stops)).andThen ?_ ?_
    · intro failed
      rw [failed]
    · intro consumed found
      simp only [found]
      exact chainFrom_complete complete stops others _ rfl

theorem chain_complete {rank : Rank} {operand : Reader Expr} {levels : Nat}
    (complete : operand.Complete rank.operand levels) :
    Reader.Complete (chain rank.op? operand) (.chain rank) levels := by
  intro d rest stops
  cases d with
  | chain first links =>
    rw [Derivation.tokens, List.append_assoc]
    unfold chain
    refine (complete first _ (Rank.links_stop links stops)).andThen ?_ ?_
    · intro failed
      rw [failed]
    · intro consumed found
      rw [found]
      exact chainFrom_complete complete stops links _ rfl

theorem Derivation.power_head (d : Derivation .power) :
    ∃ t us, d.tokens = t :: us ∧ t ≠ .minus ∧ t ≠ .plus ∧ t ≠ .closing := by
  have head (base : Derivation .primary) :
      ∃ t us, base.tokens = t :: us ∧ t ≠ .minus ∧ t ≠ .plus ∧ t ≠ .closing := by
    cases base <;> exact ⟨_, _, rfl, nofun, nofun, nofun⟩
  cases d with
  | bare base => exact head base
  | raised base exponent =>
    obtain ⟨t, us, tokens, others⟩ := head base
    exact ⟨t, us ++ .caret :: exponent.tokens, by simp [Derivation.tokens, tokens], others⟩

theorem Derivation.unary_head (d : Derivation .unary) : ∃ t us, d.tokens = t :: us ∧ t ≠ .closing := by
  cases d with
  | signed sign operand => cases sign <;> exact ⟨_, _, rfl, nofun⟩
  | unsigned power =>
    obtain ⟨t, us, tokens, _, _, other⟩ := power.power_head
    exact ⟨t, us, tokens, other⟩

theorem Derivation.chain_head (rank : Rank)
    (head : ∀ d : Derivation rank.operand, ∃ t us, d.tokens = t :: us ∧ t ≠ .closing)
    (d : Derivation (.chain rank)) : ∃ t us, d.tokens = t :: us ∧ t ≠ .closing := by
  cases d with
  | chain first links =>
    obtain ⟨t, us, tokens, other⟩ := head first
    exact ⟨t, us ++ links.tokens, by simp [Derivation.tokens, tokens], other⟩

theorem Derivation.expression_head (d : Derivation .expression) :
    ∃ t us, d.tokens = t :: us ∧ t ≠ .closing :=
  chain_head .sum (chain_head .product unary_head) d

/-- Tokens that do not close a call at once begin its first argument. -/
theorem arguments_other {unary : Reader Expr} {t : Token} {us : List Token} (other : t ≠ .closing) :
    arguments unary (t :: us) = argumentsFrom unary (t :: us) := by
  cases t <;> first | rfl | exact absurd rfl other

theorem signed_other {unary : Reader Expr} {t : Token} {us : List Token} (notMinus : t ≠ .minus)
    (notPlus : t ≠ .plus) : signed unary (t :: us) = power unary (t :: us) := by
  cases t <;> first | rfl | exact absurd rfl notMinus | exact absurd rfl notPlus

section

variable {unary : Reader Expr} {levels : Nat} (complete : unary.Complete .unary levels)

include complete

theorem term_complete : (term unary).Complete .term levels :=
  chain_complete (show unary.Complete (Rank.operand .product) levels from complete)

theorem expression_complete : (expression unary).Complete .expression levels :=
  chain_complete (show (term unary).Complete (Rank.operand .sum) levels from term_complete complete)

/-- The loop of the arguments comes to their end, as does each of them on its own. -/
theorem argumentsFrom_complete (first : Derivation .expression) (others : FurtherArguments)
    (rest : List Token) :
    Settles (argumentsFrom unary (first.tokens ++ (others.tokens ++ .closing :: rest))) levels
      (max first.nesting others.nesting) (first.tree :: others.trees) rest := by
  rw [argumentsFrom]
  match others with
  | .done =>
    have atFirst := expression_complete complete first (.closing :: rest) (.cons (by decide))
    refine atFirst.andThen ?_ ?_
    · intro failed
      simp only [FurtherArguments.tokens, List.nil_append, failed]
    · intro consumed found
      simp only [FurtherArguments.tokens, List.nil_append, found]
      exact .done _
  | .next second further =>
    rw [FurtherArguments.tokens, List.cons_append, List.append_assoc]
    have atFirst := expression_complete complete first
      (.comma :: (second.tokens ++ (further.tokens ++ .closing :: rest))) (.cons (by decide))
    refine atFirst.andThen ?_ ?_
    · intro failed
      simp only [failed]
    · intro consumed found
      simp only [found]
      refine (argumentsFrom_complete second further rest).wrap ?_ ?_
      · intro failed
        simp only [failed]
      · intro later foundOthers
        simp only [foundOthers]
        exact ⟨_, rfl, rfl, rfl⟩

theorem arguments_complete (args : Arguments) (rest : List Token) :
    Settles (arguments unary (args.tokens ++ .closing :: rest)) levels args.nesting args.trees rest := by
  cases args with
  | none => exact .done _
  | some first others =>
    have whole := argumentsFrom_complete complete first others rest
    rw [Arguments.tokens, List.append_assoc]
    obtain ⟨t, us, head, other⟩ := first.expression_head
    rw [head, List.cons_append] at whole ⊢
    rw [arguments_other other]
    exact whole

theorem primary_complete : (primary unary).Complete .primary levels := by
  intro d rest stops
  cases d with
  | number value => exact .done _
  | symbol name =>
    cases rest with
    | nil => exact .done _
    -- before an opening parenthesis the name would be read as a call
    | cons t us => cases t <;> first | exact .done _ | exact absurd (stops _ rfl) (by decide)
  | call name args =>
    rw [Derivation.tokens, List.cons_append, List.cons_append, List.append_assoc, List.singleton_append]
    refine (arguments_complete complete args rest).wrap ?_ ?_
    · intro failed
      simp only [primary, failed]
    · intro consumed found
      simp only [primary, found]
      exact ⟨_, rfl, rfl, rfl⟩
  | parenthesized inner =>
    rw [Derivation.tokens, List.cons_append, List.append_assoc, List.singleton_append]
    have atInner := expression_complete complete inner (.closing :: rest) (.cons (by decide))
    refine atInner.wrap ?_ ?_
    · intro failed
      simp only [primary, failed]
    · intro consumed found
      simp only [primary, found]
      exact ⟨_, rfl, rfl, rfl⟩

theorem power_complete : (power unary).Complete .power levels := by
  intro d rest stops
  unfold power
  cases d with
  | bare base =>
    refine (primary_complete complete base rest (stops.mono (by decide))).wrap ?_ ?_
    · intro failed
      simp only [Derivation.tokens, failed]
    · intro consumed found
      simp only [Derivation.tokens, found]
      cases rest with
      | nil => exact ⟨_, rfl, rfl, rfl⟩
      | cons t us => cases t <;> first | exact ⟨_, rfl, rfl, rfl⟩ | exact absurd (stops _ rfl) (by decide)
  | raised base exponent =>
    rw [Derivation.tokens, List.append_assoc, List.cons_append]
    have atBase := primary_complete complete base (.caret :: (exponent.tokens ++ rest))
      (.cons (by decide))
    refine atBase.andThen ?_ ?_
    · intro failed
      simp only [failed]
    · intro consumed found
      simp only [found]
      refine (complete exponent rest stops).wrap ?_ ?_
      · intro failed
        simp only [failed]
      · intro later foundExponent
        simp only [foundExponent]
        exact ⟨_, rfl, rfl, rfl⟩

theorem signed_complete : (signed unary).Complete .unary (levels + 1) := by
  intro d rest stops
  cases d with
  | signed sign operand =>
    rw [Derivation.tokens, List.cons_append]
    refine Settles.deeper ((complete operand rest stops).wrap ?_ ?_)
    · intro failed
      cases sign <;> simp only [signed, Operator.token, failed]
    · intro consumed found
      cases sign <;> simp only [signed, Operator.token, found] <;> exact ⟨_, rfl, rfl, rfl⟩
  | unsigned power =>
    have whole := power_complete complete power rest stops
    -- the reader looks for a sign first, and a power does not begin with one
    obtain ⟨t, us, head, notMinus, notPlus, _⟩ := power.power_head
    rw [Derivation.tokens, Derivation.tree]
    rw [head, List.cons_append] at whole ⊢
    rw [signed_other notMinus notPlus]
    exact whole.deeper

end

/-- Each unary phrase leaves one level less to those inside it, so that none is read that is nested too deep. -/
theorem unary_complete (levels : Nat) : (unary levels).Complete .unary levels := by
  induction levels with
  | zero =>
    intro d rest stops
    refine ⟨fun shallow => ?_, fun _ => rfl⟩
    cases d <;> simp [Derivation.nesting] at shallow
  | succ levels ih => exact signed_complete ih

end EulerFlow.Grammar
