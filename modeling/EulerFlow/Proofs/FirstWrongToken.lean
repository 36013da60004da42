import EulerFlow.Proofs.Lookahead
import EulerFlow.Proofs.ParseExact

namespace EulerFlow.Grammar

/-- The tokens begin a phrase with at most the given nesting. -/
def Phrase.Begun (phrase : Phrase) (levels : Nat) (ts : List Token) : Prop :=
  ∃ d : Derivation phrase, ts <+: d.tokens ∧ d.nesting ≤ levels

/-- The tokens begin the links of a chain whose operands are nested no deeper than the levels allow. -/
def Rank.Begun (rank : Rank) (levels : Nat) (ts : List Token) : Prop :=
  ∃ links : Links rank, ts <+: links.tokens ∧ links.nesting ≤ levels

/-- The tokens begin a list of one or more arguments, which ends with the closing parenthesis. -/
def ArgumentsBegun (levels : Nat) (ts : List Token) : Prop :=
  ∃ (first : Derivation .expression) (others : FurtherArguments),
    ts <+: first.tokens ++ (others.tokens ++ [.closing]) ∧ first.nesting ≤ levels ∧ others.nesting ≤ levels

/-- Where a reader is stuck: at the end of tokens that begin a phrase, or at the first token that no phrase has
there, whatever comes after it. -/
inductive Stuck (begun : List Token → Prop) (fails : List Token → ParseError → Prop) :
    List Token → ParseError → Prop where
  | tooDeep (ts : List Token) : Stuck begun fails ts .tooDeep
  | ended {ts : List Token} (begins : begun ts) : Stuck begun fails ts .unexpectedEnd
  | found {before : List Token} {t : Token} {wanted : Expectation} (begins : begun before)
      (whatever : ∀ others, fails (before ++ t :: others) (.expected wanted t)) (after : List Token) :
      Stuck begun fails (before ++ t :: after) (.expected wanted t)

/-- A part is stuck where the whole is, behind the tokens that were read before it. -/
theorem Stuck.within {begun begun' : List Token → Prop} {fails fails' : List Token → ParseError → Prop}
    {ts : List Token} {fault : ParseError} (stuck : Stuck begun fails ts fault) (front : List Token)
    (begins : ∀ us, begun us → begun' (front ++ us))
    (passes : ∀ us fault, us.head? = ts.head? → fails us fault → fails' (front ++ us) fault) :
    Stuck begun' fails' (front ++ ts) fault := by
  cases stuck with
  | tooDeep => exact .tooDeep _
  | ended first => exact .ended (begins _ first)
  | @found before t wanted first whatever after =>
    rw [← List.append_assoc]
    refine .found (begins _ first) (fun others => ?_) after
    have same : (t :: others).head? = (t :: after).head? := rfl
    rw [List.append_assoc]
    exact passes _ _ (head?_append_congr same before) (whatever others)

/-- The reader fails, and for this reason. -/
def Reader.Fails {α : Type} (reader : Reader α) (ts : List Token) (fault : ParseError) : Prop :=
  reader ts = .error fault

/-- What a reader reports is right about the token at which it is stuck. -/
def Reader.Pinpoints {α : Type} (reader : Reader α) (begun : List Token → Prop) : Prop :=
  ∀ {ts : List Token} {fault : ParseError}, reader ts = .error fault → Stuck begun reader.Fails ts fault

/-- What was read is a phrase, and it is read before anything else that begins with the same token. -/
def Reader.Traced (reader : Reader Expr) (phrase : Phrase) (levels : Nat) : Prop :=
  ∀ {ts : List Token} {p : Parsed Expr ts}, reader ts = .ok p →
    ∃ d : Derivation phrase, ts = d.tokens ++ p.rest ∧ d.nesting ≤ levels ∧
      ∀ rest : List Token, rest.head? = p.rest.head? → ∃ q, reader (d.tokens ++ rest) = .ok q ∧ q.rest = rest

/-- What is read is a phrase, and is still read if other tokens come later. -/
theorem Reader.Sound.traced {reader : Reader Expr} {phrase : Phrase} {levels : Nat}
    (sound : reader.Sound phrase levels) (prompt : reader.Prompt) : reader.Traced phrase levels := by
  intro ts p read
  obtain ⟨d, tokens, _, nesting⟩ := sound read
  obtain ⟨consumed, whole, again⟩ := prompt read
  obtain rfl : consumed = d.tokens := List.append_cancel_right (whole.symm.trans tokens.symm)
  refine ⟨d, whole, nesting, fun rest same => ?_⟩
  obtain ⟨q, found, _, behind⟩ := again rest same
  exact ⟨q, found, behind⟩

/-- No operand that was read before says more about a fault than how many tokens it took. -/
theorem chainFrom_pinpoints {rank : Rank} {operand : Reader Expr} {levels : Nat}
    (traced : operand.Traced rank.operand levels) (pinpoints : operand.Pinpoints (rank.operand.Begun levels))
    {ts : List Token} {left : Parsed Expr ts} {fault : ParseError}
    (run : chainFrom rank.op? operand left = .error fault) :
    Stuck (rank.Begun levels) (fun us fault => ∀ {vs : List Token} (left' : Parsed Expr vs), left'.rest = us →
      chainFrom rank.op? operand left' = .error fault) left.rest fault := by
  fun_induction chainFrom rank.op? operand left with
  | case1 left following => cases run
  | case2 left t us following stops => cases run
  | case3 left t us following name known fault failed =>
    cases run
    obtain ⟨op, rfl, rfl⟩ := Rank.exists_operator known
    rw [following]
    refine (pinpoints failed).within [op.token] ?_ ?_
    · rintro us ⟨d, first, nesting⟩
      refine ⟨.next op d .done, ?_, Nat.max_le.mpr ⟨nesting, Nat.zero_le _⟩⟩
      rw [Links.tokens, Links.tokens, List.append_nil]
      exact List.cons_prefix_cons.mpr ⟨rfl, first⟩
    · rintro us fault _ fails vs ⟨value, rest, shorter⟩ rfl
      rw [chainFrom]
      simp only [List.singleton_append, Rank.op?_token]
      rw [fails]
  | case4 left t us following name known right read consumed ih =>
    obtain ⟨op, rfl, rfl⟩ := Rank.exists_operator known
    obtain ⟨d, whole, nesting, again⟩ := traced read
    rw [following, whole]
    refine (ih run).within (op.token :: d.tokens) ?_ ?_
    · rintro us ⟨links, first, within⟩
      refine ⟨.next op d links, ?_, Nat.max_le.mpr ⟨nesting, within⟩⟩
      exact List.cons_prefix_cons.mpr ⟨rfl, (List.prefix_append_right_inj _).mpr first⟩
    · rintro us fault same fails vs ⟨value, rest, shorter⟩ rfl
      obtain ⟨q, found, behind⟩ := again us same
      rw [chainFrom]
      simp only [List.cons_append, Rank.op?_token, found]
      exact fails _ behind

/-- The token that a chain fails at is the one that one of its operands fails at. -/
theorem chain_pinpoints {rank : Rank} {operand : Reader Expr} {levels : Nat}
    (traced : operand.Traced rank.operand levels) (pinpoints : operand.Pinpoints (rank.operand.Begun levels)) :
    Reader.Pinpoints (chain rank.op? operand) ((Phrase.chain rank).Begun levels) := by
  intro ts fault run
  unfold chain at run
  split at run
  · rename_i failed
    cases run
    refine (pinpoints failed).within [] ?_ ?_
    · rintro us ⟨d, first, nesting⟩
      refine ⟨.chain d .done, ?_, Nat.max_le.mpr ⟨nesting, Nat.zero_le _⟩⟩
      exact first.trans (List.prefix_append _ _)
    · intro us fault _ (fails : operand us = .error fault)
      simp only [Reader.Fails, List.nil_append, chain, fails]
  · rename_i left read
    obtain ⟨d, whole, nesting, again⟩ := traced read
    rw [whole]
    refine (chainFrom_pinpoints traced pinpoints run).within d.tokens ?_ ?_
    · rintro us ⟨links, first, within⟩
      exact ⟨.chain d links, (List.prefix_append_right_inj _).mpr first, Nat.max_le.mpr ⟨nesting, within⟩⟩
    · intro us fault same fails
      obtain ⟨q, found, behind⟩ := again us same
      simp only [Reader.Fails, chain, found]
      exact fails q behind

section

variable {unary : Reader Expr} {levels : Nat} (sound : unary.Sound .unary levels) (prompt : unary.Prompt)
  (pinpoints : unary.Pinpoints (Phrase.Begun .unary levels))

include sound prompt

theorem term_traced : (term unary).Traced .term levels :=
  Reader.Sound.traced (term_sound sound) (term_prompt prompt)

theorem expression_traced : (expression unary).Traced .expression levels :=
  Reader.Sound.traced (expression_sound sound) (expression_prompt prompt)

theorem primary_traced : (primary unary).Traced .primary levels :=
  Reader.Sound.traced (primary_sound sound) (primary_prompt prompt)

include pinpoints

theorem term_pinpoints : (term unary).Pinpoints (Phrase.Begun .term levels) :=
  chain_pinpoints (show unary.Traced (Rank.operand .product) levels from Reader.Sound.traced sound prompt) pinpoints

theorem expression_pinpoints : (expression unary).Pinpoints (Phrase.Begun .expression levels) :=
  chain_pinpoints (show (term unary).Traced (Rank.operand .sum) levels from term_traced sound prompt)
    (term_pinpoints sound prompt pinpoints)

/-- Behind an argument there is a comma or the end of the arguments, and any other token is wrong there. -/
theorem argumentsFrom_pinpoints : Reader.Pinpoints (argumentsFrom unary) (ArgumentsBegun levels) := by
  intro ts fault run
  fun_induction argumentsFrom unary ts with
  | case1 ts fault failed =>
    cases run
    refine (expression_pinpoints sound prompt pinpoints failed).within [] ?_ ?_
    · rintro us ⟨d, first, nesting⟩
      exact ⟨d, .done, first.trans (List.prefix_append _ _), nesting, Nat.zero_le _⟩
    · intro us fault _ (fails : expression unary us = .error fault)
      rw [Reader.Fails, List.nil_append, argumentsFrom]
      simp only [fails]
  | case2 ts first read following =>
    cases run
    obtain ⟨d, whole, nesting, _⟩ := expression_traced sound prompt read
    rw [whole, following]
    exact .ended ⟨d, .done, (List.prefix_append_right_inj _).mpr (List.nil_prefix), nesting, Nat.zero_le _⟩
  | case3 ts first read us following => cases run
  | case4 ts first read us following consumed fault failed ih =>
    cases run
    obtain ⟨d, whole, nesting, again⟩ := expression_traced sound prompt read
    rw [following] at whole again
    rw [whole, List.append_cons]
    refine (ih failed).within (d.tokens ++ [.comma]) ?_ ?_
    · rintro us ⟨second, further, first, secondNesting, furtherNesting⟩
      refine ⟨d, .next second further, ?_, nesting, Nat.max_le.mpr ⟨secondNesting, furtherNesting⟩⟩
      rw [← List.append_cons, FurtherArguments.tokens, List.cons_append, List.append_assoc]
      exact (List.prefix_append_right_inj _).mpr (List.cons_prefix_cons.mpr ⟨rfl, first⟩)
    · intro us fault _ (fails : argumentsFrom unary us = .error fault)
      obtain ⟨⟨_, _, shorter⟩, found, rfl⟩ := again (.comma :: us) rfl
      rw [Reader.Fails, ← List.append_cons, argumentsFrom]
      simp only [found, fails]
  | case5 ts first read us following _ others readOthers ih => cases run
  | case6 ts first read t us notClosing notComma following =>
    cases run
    obtain ⟨d, whole, nesting, again⟩ := expression_traced sound prompt read
    rw [following] at whole again
    rw [whole]
    refine .found ⟨d, .done, List.prefix_append _ _, nesting, Nat.zero_le _⟩ (fun others => ?_) us
    obtain ⟨⟨_, _, shorter⟩, found, rfl⟩ := again (t :: others) rfl
    rw [Reader.Fails, argumentsFrom]
    simp only [found]

theorem arguments_pinpoints : Reader.Pinpoints (arguments unary) (ArgumentsBegun levels) := by
  intro ts fault run
  unfold arguments at run
  split at run
  · cases run
  · rename_i notClosing
    refine (argumentsFrom_pinpoints sound prompt pinpoints run).within [] (fun us begins => begins) ?_
    intro us fault same fails
    rw [Reader.Fails, List.nil_append, arguments_led notClosing same]
    exact fails

/-- The token that no primary phrase begins with is wrong itself; inside a phrase the wrong one is that of its part.
-/
theorem primary_pinpoints : (primary unary).Pinpoints (Phrase.Begun .primary levels) := by
  intro ts fault run
  unfold primary at run
  split at run
  · cases run
    exact .ended ⟨.number 0, List.nil_prefix, Nat.zero_le _⟩
  · cases run
  · rename_i name us
    split at run
    · rename_i failed
      cases run
      refine (arguments_pinpoints sound prompt pinpoints failed).within [.identifier name, .opening] ?_ ?_
      · rintro vs ⟨first, others, begins, firstNesting, othersNesting⟩
        refine ⟨.call name (.some first others), ?_, Nat.max_le.mpr ⟨firstNesting, othersNesting⟩⟩
        rw [Derivation.tokens, Arguments.tokens, List.append_assoc]
        exact (List.prefix_append_right_inj [_, _]).mpr begins
      · intro vs fault _ (fails : arguments unary vs = .error fault)
        simp only [Reader.Fails, List.cons_append, List.nil_append, primary, fails]
    · cases run
  · cases run
  · rename_i us
    split at run
    · rename_i failed
      cases run
      refine (expression_pinpoints sound prompt pinpoints failed).within [.opening] ?_ ?_
      · rintro vs ⟨d, begins, nesting⟩
        refine ⟨.parenthesized d, ?_, nesting⟩
        exact List.cons_prefix_cons.mpr ⟨rfl, begins.trans (List.prefix_append _ _)⟩
      · intro vs fault _ (fails : expression unary vs = .error fault)
        simp only [Reader.Fails, List.singleton_append, primary, fails]
    · rename_i inner read
      obtain ⟨d, whole, nesting, again⟩ := expression_traced sound prompt read
      split at run
      · rename_i following
        cases run
        rw [whole, following]
        refine .ended ⟨.parenthesized d, ?_, nesting⟩
        exact List.cons_prefix_cons.mpr ⟨rfl, (List.prefix_append_right_inj _).mpr List.nil_prefix⟩
      · cases run
      · rename_i t rest notClosing following
        cases run
        rw [following] at whole again
        rw [whole]
        have begins : Phrase.Begun .primary levels (.opening :: d.tokens) :=
          ⟨.parenthesized d, List.cons_prefix_cons.mpr ⟨rfl, List.prefix_append _ _⟩, nesting⟩
        refine .found begins (fun others => ?_) rest
        obtain ⟨⟨_, _, shorter⟩, found, rfl⟩ := again (t :: others) rfl
        simp only [Reader.Fails, List.cons_append, primary, found]
  · rename_i t us notNumber notCall notName notOpening
    cases run
    have begins : Phrase.Begun .primary levels [] := ⟨.number 0, List.nil_prefix, Nat.zero_le _⟩
    refine .found begins (fun others => ?_) us
    -- every other token is answered with itself
    cases t <;> first | rfl | exact absurd rfl (notNumber _) | exact absurd rfl (notName _) |
      exact absurd rfl notOpening

theorem power_pinpoints : (power unary).Pinpoints (Phrase.Begun .power levels) := by
  intro ts fault run
  unfold power at run
  split at run
  · rename_i failed
    cases run
    refine (primary_pinpoints sound prompt pinpoints failed).within [] ?_ ?_
    · rintro us ⟨d, begins, nesting⟩
      exact ⟨.bare d, begins, nesting⟩
    · intro us fault _ (fails : primary unary us = .error fault)
      simp only [Reader.Fails, List.nil_append, power, fails]
  · rename_i base read
    split at run
    · rename_i us following
      split at run
      · rename_i failed
        cases run
        obtain ⟨d, whole, nesting, again⟩ := primary_traced sound prompt read
        rw [following] at whole again
        rw [whole, List.append_cons]
        refine (pinpoints failed).within (d.tokens ++ [.caret]) ?_ ?_
        · rintro vs ⟨e, begins, exponentNesting⟩
          refine ⟨.raised d e, ?_, Nat.max_le.mpr ⟨nesting, exponentNesting⟩⟩
          rw [← List.append_cons]
          exact (List.prefix_append_right_inj _).mpr (List.cons_prefix_cons.mpr ⟨rfl, begins⟩)
        · intro vs fault _ (fails : unary vs = .error fault)
          obtain ⟨⟨_, _, shorter⟩, found, rfl⟩ := again (.caret :: vs) rfl
          rw [Reader.Fails, ← List.append_cons]
          simp only [power, found, fails]
      · cases run
    · cases run

theorem signed_pinpoints : (signed unary).Pinpoints (Phrase.Begun .unary (levels + 1)) := by
  intro ts fault run
  unfold signed at run
  split at run
  · split at run
    · rename_i failed
      cases run
      refine (pinpoints failed).within [.minus] ?_ ?_
      · rintro us ⟨d, begins, nesting⟩
        exact ⟨.signed .minus d, List.cons_prefix_cons.mpr ⟨rfl, begins⟩, Nat.succ_le_succ nesting⟩
      · intro us fault _ (fails : unary us = .error fault)
        simp only [Reader.Fails, List.singleton_append, signed, fails]
    · cases run
  · split at run
    · rename_i failed
      cases run
      refine (pinpoints failed).within [.plus] ?_ ?_
      · rintro us ⟨d, begins, nesting⟩
        exact ⟨.signed .plus d, List.cons_prefix_cons.mpr ⟨rfl, begins⟩, Nat.succ_le_succ nesting⟩
      · intro us fault _ (fails : unary us = .error fault)
        simp only [Reader.Fails, List.singleton_append, signed, fails]
    · cases run
  · rename_i notMinus notPlus
    refine (power_pinpoints sound prompt pinpoints run).within [] ?_ ?_
    · rintro us ⟨d, begins, nesting⟩
      exact ⟨.unsigned d, begins, Nat.succ_le_succ nesting⟩
    · intro us fault same (fails : power unary us = .error fault)
      rw [Reader.Fails, List.nil_append, signed_led notMinus notPlus same]
      exact fails

end

/-- Where the levels are used up no token is called wrong, for the fault is the nesting alone. -/
theorem unary_pinpoints (levels : Nat) : (unary levels).Pinpoints (Phrase.Begun .unary levels) := by
  induction levels with
  | zero =>
    intro ts fault run
    cases run
    exact .tooDeep _
  | succ levels ih => exact signed_pinpoints (unary_sound levels) (unary_prompt levels) ih

theorem parseTokens_stuck {ts : List Token} {fault : ParseError} (run : parseTokens ts = .error fault) :
    Stuck (Phrase.Begun .expression maxDepth) (fun us fault => parseTokens us = .error fault) ts fault := by
  have sound : (unary maxDepth).Sound .unary maxDepth := unary_sound maxDepth
  have prompt : (unary maxDepth).Prompt := unary_prompt maxDepth
  unfold parseTokens at run
  split at run
  · rename_i failed
    cases run
    refine (expression_pinpoints sound prompt (unary_pinpoints maxDepth) failed).within [] (fun us begins => begins) ?_
    intro us fault _ (fails : expression (unary maxDepth) us = .error fault)
    simp only [List.nil_append, parseTokens, fails]
  · rename_i whole read
    split at run
    · cases run
    · rename_i t us following
      cases run
      obtain ⟨d, parts, nesting, again⟩ := expression_traced sound prompt read
      rw [following] at parts again
      rw [parts]
      refine .found ⟨d, List.prefix_refl _, nesting⟩ (fun others => ?_) us
      obtain ⟨q, found, behind⟩ := again (t :: others) rfl
      simp only [parseTokens, found, behind]

/-- The tokens are accepted, or they can be continued to tokens that are. -/
def Viable (ts : List Token) : Prop :=
  ∃ (more : List Token) (e : Expr), parseTokens (ts ++ more) = .ok e

theorem Phrase.Begun.viable {ts : List Token} (begins : Phrase.Begun .expression maxDepth ts) : Viable ts := by
  obtain ⟨d, ⟨more, whole⟩, nesting⟩ := begins
  exact ⟨more, d.tree, by rw [whole, parseTokens_tokens, if_pos nesting]⟩

/-- Whatever begins a viable text is viable itself. -/
theorem Viable.of_prefix {ts us : List Token} (viable : Viable us) (first : ts <+: us) : Viable ts := by
  obtain ⟨between, rfl⟩ := first
  obtain ⟨more, e, accepted⟩ := viable
  exact ⟨between ++ more, e, by rw [← List.append_assoc, accepted]⟩

/-- An unexpected token is the one token up to which the tokens can be continued to an expression and with which
they no longer can, and no other token with its description is. When the tokens end too early, more of
them make an expression. -/
theorem parseTokens_finds_first_wrong_token (ts : List Token) :
    (∀ (wanted : Expectation) (found : Token), parseTokens ts = .error (.expected wanted found) →
      ∃ i, ts[i]? = some found ∧ ∀ j, j = i ↔ (∃ t, ts[j]? = some t ∧ t.describe = found.describe) ∧
        Viable (ts.take j) ∧ ¬ Viable (ts.take (j + 1))) ∧
    (parseTokens ts = .error .unexpectedEnd →
      (∀ e, parseTokens ts ≠ .ok e) ∧ ∃ more e, more ≠ [] ∧ parseTokens (ts ++ more) = .ok e) := by
  constructor
  · intro wanted found run
    cases parseTokens_stuck run with
    | @found before t wanted begins whatever after =>
      have upTo : (before ++ found :: after).take before.length = before := List.take_left
      have upToWith : (before ++ found :: after).take (before.length + 1) = before ++ [found] := by
        rw [List.append_cons]
        exact List.take_left' (List.length_append)
      have viable : Viable before := begins.viable
      have wrong : ¬ Viable (before ++ [found]) := by
        rintro ⟨more, e, accepted⟩
        rw [← List.append_cons, whatever more] at accepted
        cases accepted
      have here : (before ++ found :: after)[before.length]? = some found := by simp
      refine ⟨before.length, here, fun j => ⟨?_, ?_⟩⟩
      · rintro rfl
        rw [upTo, upToWith]
        exact ⟨⟨found, here, rfl⟩, viable, wrong⟩
      · rintro ⟨_, viableHere, wrongHere⟩
        rcases Nat.lt_trichotomy j before.length with earlier | same | later
        · have first := List.take_prefix_take_left (l := before ++ found :: after) earlier
          rw [upTo] at first
          exact absurd (viable.of_prefix first) wrongHere
        · exact same
        · have first := List.take_prefix_take_left (l := before ++ found :: after) later
          rw [upToWith] at first
          exact absurd (viableHere.of_prefix first) wrong
  · intro run
    have refused (e : Expr) : parseTokens ts ≠ .ok e := by
      rw [run]
      exact nofun
    refine ⟨refused, ?_⟩
    cases parseTokens_stuck run with
    | ended begins =>
      obtain ⟨more, e, accepted⟩ := begins.viable
      refine ⟨more, e, ?_, accepted⟩
      rintro rfl
      exact refused e (by rwa [List.append_nil] at accepted)

/-- A call that breaks off behind a comma. -/
def openCall : List Token := [.identifier "f", .opening, .identifier "x", .comma]

/-- A call that is closed where its argument should be. -/
def brokenCall : List Token := openCall ++ [.closing]

/-- Behind the comma an argument can follow, and the parenthesis cannot. -/
theorem openCall_wants_argument :
    (∃ i, brokenCall[i]? = some .closing ∧ Viable (brokenCall.take i) ∧ ¬ Viable (brokenCall.take (i + 1))) ∧
    ∃ more e, more ≠ [] ∧ parseTokens (openCall ++ more) = .ok e := by
  constructor
  · have run : parseTokens brokenCall = .error (.expected .operand .closing) := by cbv
    obtain ⟨i, here, only⟩ := (parseTokens_finds_first_wrong_token brokenCall).1 _ _ run
    exact ⟨i, here, ((only i).mp rfl).2⟩
  · have run : parseTokens openCall = .error .unexpectedEnd := by cbv
    exact ((parseTokens_finds_first_wrong_token openCall).2 run).2

end EulerFlow.Grammar
