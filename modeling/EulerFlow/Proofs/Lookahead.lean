import EulerFlow.Proofs.ParseComplete
import EulerFlow.Proofs.ParseSound

namespace EulerFlow.Grammar

theorem head?_append_congr {us vs : List Token} (same : us.head? = vs.head?) (ts : List Token) :
    (ts ++ us).head? = (ts ++ vs).head? := by
  rw [List.head?_append, List.head?_append, same]

/-- A reader looks no further than one token behind what it reads: with the same token there, or with none there
as well, it reads the same once more, whatever comes later. -/
def Reader.Prompt {α : Type} (reader : Reader α) : Prop :=
  ∀ {ts : List Token} {p : Parsed α ts}, reader ts = .ok p →
    ∃ consumed, ts = consumed ++ p.rest ∧ ∀ rest : List Token, rest.head? = p.rest.head? →
      ∃ q, reader (consumed ++ rest) = .ok q ∧ q.value = p.value ∧ q.rest = rest

/-- The loop goes on and stops by the token in front of it. The last one that it looks at is the one behind the chain.
-/
theorem chainFrom_prompt {op? : Token → Option String} {operand : Reader Expr} (prompt : operand.Prompt)
    {ts : List Token} {left whole : Parsed Expr ts} (run : chainFrom op? operand left = .ok whole) :
    ∃ consumed, left.rest = consumed ++ whole.rest ∧
      ∀ {us : List Token} (left' : Parsed Expr us) (rest : List Token), left'.value = left.value →
        left'.rest = consumed ++ rest → rest.head? = whole.rest.head? →
        ∃ q, chainFrom op? operand left' = .ok q ∧ q.value = whole.value ∧ q.rest = rest := by
  fun_induction chainFrom op? operand left with
  | case1 left following =>
    cases run
    refine ⟨[], rfl, ?_⟩
    rintro us ⟨value, rest, shorter⟩ _ rfl rfl same
    rw [following] at same
    cases rest with
    | nil => exact ⟨_, by rw [chainFrom], rfl, rfl⟩
    | cons t rest => cases same
  | case2 left t us following stops =>
    cases run
    refine ⟨[], rfl, ?_⟩
    rintro us' ⟨value, rest, shorter⟩ _ rfl rfl same
    rw [following] at same
    cases rest with
    | nil => cases same
    | cons t' rest =>
      cases same
      rw [chainFrom]
      simp only [stops]
      exact ⟨_, rfl, rfl, rfl⟩
  | case3 left t us following name known fault failed => cases run
  | case4 left t us following name known right read consumed ih =>
    obtain ⟨first, operand, again⟩ := prompt read
    obtain ⟨others, rest, goesOn⟩ := ih run
    refine ⟨t :: (first ++ others), ?_, ?_⟩
    · rw [following, operand, rest, List.cons_append, List.append_assoc]
    · intro us' left' after value here same
      rw [rest] at again
      obtain ⟨⟨_, _, shorter⟩, found, rfl, rfl⟩ := again (others ++ after) (head?_append_congr same others)
      obtain ⟨value', remaining, _⟩ := left'
      rw [List.cons_append, List.append_assoc] at here
      cases value
      cases here
      rw [chainFrom]
      simp only [known, found]
      exact goesOn _ after rfl rfl same

/-- An operand is read the same way, and then the links behind it are. -/
theorem chain_prompt {op? : Token → Option String} {operand : Reader Expr} (prompt : operand.Prompt) :
    Reader.Prompt (chain op? operand) := by
  intro ts whole run
  unfold chain at run
  split at run
  · cases run
  · rename_i first read
    obtain ⟨consumed, operand, again⟩ := prompt read
    obtain ⟨others, rest, goesOn⟩ := chainFrom_prompt prompt run
    rw [rest] at operand again
    refine ⟨consumed ++ others, operand.trans (List.append_assoc ..).symm, fun after same => ?_⟩
    obtain ⟨⟨_, _, shorter⟩, found, rfl, rfl⟩ := again (others ++ after) (head?_append_congr same others)
    rw [List.append_assoc]
    unfold chain
    simp only [found]
    exact goesOn _ after rfl rfl same

/-- The first token alone decides which way a list of arguments is read. -/
theorem arguments_led {unary : Reader Expr} {ts us : List Token} (notClosing : ∀ rest, ts ≠ .closing :: rest)
    (same : us.head? = ts.head?) : arguments unary us = argumentsFrom unary us := by
  cases us with
  | nil => rfl
  | cons t us =>
    refine arguments_other fun closing => ?_
    cases ts with
    | nil => cases same
    | cons t' ts =>
      cases same
      exact notClosing ts (by rw [closing])

theorem signed_led {unary : Reader Expr} {ts us : List Token} (notMinus : ∀ rest, ts ≠ .minus :: rest)
    (notPlus : ∀ rest, ts ≠ .plus :: rest) (same : us.head? = ts.head?) : signed unary us = power unary us := by
  cases us with
  | nil => rfl
  | cons t us =>
    cases ts with
    | nil => cases same
    | cons t' ts =>
      cases same
      exact signed_other (fun minus => notMinus ts (by rw [minus])) fun plus => notPlus ts (by rw [plus])

section

variable {unary : Reader Expr} (prompt : unary.Prompt)

include prompt

theorem term_prompt : (term unary).Prompt :=
  chain_prompt prompt

theorem expression_prompt : (expression unary).Prompt :=
  chain_prompt (term_prompt prompt)

/-- Behind each argument the loop looks at the comma or the closing parenthesis, and takes it. -/
theorem argumentsFrom_prompt : Reader.Prompt (argumentsFrom unary) := by
  intro ts p run
  fun_induction argumentsFrom unary ts with
  | case1 ts fault failed => cases run
  | case2 ts first read following => cases run
  | case3 ts first read us following =>
    cases run
    obtain ⟨consumed, whole, again⟩ := expression_prompt prompt read
    rw [following] at whole again
    refine ⟨consumed ++ [.closing], whole.trans (List.append_cons ..), fun after _ => ?_⟩
    obtain ⟨⟨_, _, shorter⟩, found, rfl, rfl⟩ := again (.closing :: after) rfl
    rw [← List.append_cons, argumentsFrom]
    simp only [found]
    exact ⟨_, rfl, rfl, rfl⟩
  | case4 ts first read us following consumed fault failed ih => cases run
  | case5 ts first read us following _ others readOthers ih =>
    cases run
    obtain ⟨consumed, whole, again⟩ := expression_prompt prompt read
    obtain ⟨further, rest, goesOn⟩ := ih readOthers
    rw [following] at whole again
    rw [rest] at whole
    refine ⟨consumed ++ .comma :: further, whole.trans ?_, fun after same => ?_⟩
    · exact (List.append_assoc consumed (.comma :: further) others.rest).symm
    · obtain ⟨⟨_, _, shorter⟩, found, rfl, rfl⟩ := again (.comma :: (further ++ after)) rfl
      obtain ⟨q, foundOthers, values, behind⟩ := goesOn after same
      rw [List.append_assoc, List.cons_append, argumentsFrom]
      simp only [found, foundOthers]
      exact ⟨_, rfl, congrArg (first.value :: ·) values, behind⟩
  | case6 ts first read t us other notClosing notComma => cases run

theorem arguments_prompt : (arguments unary).Prompt := by
  intro ts p run
  unfold arguments at run
  split at run
  · rename_i us
    cases run
    exact ⟨[.closing], rfl, fun after _ => ⟨_, rfl, rfl, rfl⟩⟩
  · rename_i notClosing
    obtain ⟨consumed, whole, again⟩ := argumentsFrom_prompt prompt run
    refine ⟨consumed, whole, fun after same => ?_⟩
    have led : (consumed ++ after).head? = ts.head? := by rw [whole, head?_append_congr same]
    rw [arguments_led notClosing led]
    exact again after same

theorem primary_prompt : (primary unary).Prompt := by
  intro ts p run
  unfold primary at run
  split at run
  · cases run
  · rename_i value us
    cases run
    exact ⟨[.number value], rfl, fun after _ => ⟨_, rfl, rfl, rfl⟩⟩
  · rename_i name us
    split at run
    · cases run
    · rename_i args read
      cases run
      obtain ⟨consumed, whole, again⟩ := arguments_prompt prompt read
      refine ⟨.identifier name :: .opening :: consumed, congrArg (_ :: _ :: ·) whole, fun after same => ?_⟩
      obtain ⟨q, found, values, behind⟩ := again after same
      simp only [List.cons_append, primary, found]
      exact ⟨_, rfl, congrArg (Expr.call name) values, behind⟩
  · rename_i name us notCall
    cases run
    refine ⟨[.identifier name], rfl, fun after same => ?_⟩
    cases after with
    | nil => exact ⟨_, rfl, rfl, rfl⟩
    | cons t after =>
      have other : t ≠ .opening := by
        rintro rfl
        cases us with
        | nil => cases same
        | cons t us =>
          cases same
          exact notCall us rfl
      cases t <;> first | exact ⟨_, rfl, rfl, rfl⟩ | exact absurd rfl other
  · rename_i us
    split at run
    · cases run
    · rename_i inner read
      split at run
      · cases run
      · rename_i rest following
        cases run
        obtain ⟨consumed, whole, again⟩ := expression_prompt prompt read
        rw [following] at whole again
        refine ⟨.opening :: (consumed ++ [.closing]), ?_, fun after same => ?_⟩
        · exact congrArg (_ :: ·) (whole.trans (List.append_cons ..))
        · obtain ⟨⟨_, _, shorter⟩, found, rfl, rfl⟩ := again (.closing :: after) rfl
          rw [List.cons_append, ← List.append_cons]
          simp only [primary, found]
          exact ⟨_, rfl, rfl, rfl⟩
      · cases run
  · cases run

theorem power_prompt : (power unary).Prompt := by
  intro ts p run
  unfold power at run
  split at run
  · cases run
  · rename_i base read
    obtain ⟨consumed, whole, again⟩ := primary_prompt prompt read
    split at run
    · rename_i us following
      split at run
      · cases run
      · rename_i exponent readExponent
        cases run
        obtain ⟨further, rest, goesOn⟩ := prompt readExponent
        rw [following] at whole again
        rw [rest] at whole
        refine ⟨consumed ++ .caret :: further, whole.trans ?_, fun after same => ?_⟩
        · exact (List.append_assoc consumed (.caret :: further) exponent.rest).symm
        · obtain ⟨⟨_, _, shorter⟩, found, rfl, rfl⟩ := again (.caret :: (further ++ after)) rfl
          obtain ⟨q, foundExponent, value, behind⟩ := goesOn after same
          rw [List.append_assoc, List.cons_append]
          simp only [power, found, foundExponent]
          exact ⟨_, rfl, congrArg (Expr.binary base.value "^") value, behind⟩
    · rename_i notCaret
      cases run
      refine ⟨consumed, whole, fun after same => ?_⟩
      obtain ⟨q, found, value, behind⟩ := again after same
      simp only [power, found]
      split
      · rename_i us following
        rw [← behind, following] at same
        obtain ⟨us', caret⟩ := List.head?_eq_some_iff.mp same.symm
        exact absurd caret (notCaret us')
      · exact ⟨_, rfl, value, behind⟩

theorem signed_prompt : (signed unary).Prompt := by
  intro ts p run
  unfold signed at run
  split at run
  · split at run
    · cases run
    · rename_i operand read
      cases run
      obtain ⟨consumed, whole, again⟩ := prompt read
      refine ⟨.minus :: consumed, congrArg (_ :: ·) whole, fun after same => ?_⟩
      obtain ⟨q, found, value, behind⟩ := again after same
      simp only [List.cons_append, signed, found]
      exact ⟨_, rfl, congrArg (Expr.unary "-") value, behind⟩
  · split at run
    · cases run
    · rename_i operand read
      cases run
      obtain ⟨consumed, whole, again⟩ := prompt read
      refine ⟨.plus :: consumed, congrArg (_ :: ·) whole, fun after same => ?_⟩
      obtain ⟨q, found, value, behind⟩ := again after same
      simp only [List.cons_append, signed, found]
      exact ⟨_, rfl, congrArg (Expr.unary "+") value, behind⟩
  · rename_i notMinus notPlus
    obtain ⟨consumed, whole, again⟩ := power_prompt prompt run
    refine ⟨consumed, whole, fun after same => ?_⟩
    have led : (consumed ++ after).head? = ts.head? := by rw [whole, head?_append_congr same]
    rw [signed_led notMinus notPlus led]
    exact again after same

end

/-- The check of the nesting looks at no token, and the operands behind it are read with one level less. -/
theorem unary_prompt (levels : Nat) : (unary levels).Prompt := by
  induction levels with
  | zero =>
    intro ts p run
    cases run
  | succ levels ih => exact signed_prompt ih

end EulerFlow.Grammar
