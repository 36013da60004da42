import EulerFlow.Proofs.FewestWords
import EulerFlow.Proofs.ParseExact

namespace EulerFlow.Grammar

theorem Operator.token_writable {rank : Rank} (op : Operator rank) : op.token.Writable := by
  cases op <;> trivial

theorem forall_mem_marked {p : Token → Prop} {t : Token} {ts : List Token} (mark : p t) :
    (∀ u ∈ t :: ts, p u) ↔ ∀ u ∈ ts, p u := by
  rw [List.forall_mem_cons, and_iff_right mark]

theorem forall_mem_closed {ts : List Token} :
    (∀ u ∈ ts ++ [.closing], u.Writable) ↔ ∀ u ∈ ts, u.Writable := by
  rw [List.forall_mem_append, List.forall_mem_singleton]
  exact and_iff_left trivial

mutual

/-- What a derivation stands for can be written exactly if its tokens can. -/
theorem Derivation.writable_iff : ∀ {phrase : Phrase} (d : Derivation phrase),
    d.tree.Writable ↔ ∀ t ∈ d.tokens, t.Writable
  | _, .chain first links => by
    rw [Derivation.tree, Derivation.tokens, List.forall_mem_append, links.writable_iff, first.writable_iff]
  | _, .signed sign operand => by
    rw [Derivation.tree, Derivation.tokens, forall_mem_marked sign.token_writable, ← operand.writable_iff]
    exact and_iff_right sign.unary_known
  | _, .unsigned power => power.writable_iff
  | _, .bare base => base.writable_iff
  | _, .raised base exponent => by
    rw [Derivation.tree, Derivation.tokens, List.forall_mem_append, forall_mem_marked trivial, ← base.writable_iff,
      ← exponent.writable_iff]
    exact and_iff_right rfl
  | _, .number value => by
    rw [Derivation.tokens, List.forall_mem_singleton]
    rfl
  | _, .symbol name => by
    rw [Derivation.tokens, List.forall_mem_singleton]
    rfl
  | _, .call name args => by
    rw [Derivation.tree, Derivation.tokens, List.forall_mem_cons, forall_mem_marked trivial, forall_mem_closed,
      ← args.writable_iff]
    rfl
  | _, .parenthesized inner => by
    rw [Derivation.tree, Derivation.tokens, forall_mem_marked trivial, forall_mem_closed, inner.writable_iff]

theorem Links.writable_iff {rank : Rank} : ∀ (links : Links rank) {left : Expr},
    (links.tree left).Writable ↔ left.Writable ∧ ∀ t ∈ links.tokens, t.Writable
  | .done, _ => (and_iff_left (List.forall_mem_nil _)).symm
  | .next op operand others, left => by
    rw [Links.tree, Links.tokens, others.writable_iff, forall_mem_marked op.token_writable, List.forall_mem_append,
      ← operand.writable_iff, ← and_assoc]
    exact and_congr_left' (and_iff_right op.binary_known)

theorem Arguments.writable_iff : ∀ args : Arguments,
    Expr.AllWritable args.trees ↔ ∀ t ∈ args.tokens, t.Writable
  | .none => iff_of_true trivial (List.forall_mem_nil _)
  | .some first others => by
    rw [Arguments.tokens, List.forall_mem_append, ← first.writable_iff, ← others.writable_iff]
    rfl

theorem FurtherArguments.writable_iff : ∀ args : FurtherArguments,
    Expr.AllWritable args.trees ↔ ∀ t ∈ args.tokens, t.Writable
  | .done => iff_of_true trivial (List.forall_mem_nil _)
  | .next arg others => by
    rw [FurtherArguments.tokens, forall_mem_marked trivial, List.forall_mem_append, ← arg.writable_iff,
      ← others.writable_iff]
    rfl

end

open Lexeme

theorem Operator.token_mark {rank : Rank} (op : Operator rank) : op.token.isWord = false := by
  cases op <;> rfl

mutual

/-- The grammar puts a mark between any two words. -/
theorem Derivation.separated : ∀ {phrase : Phrase} (d : Derivation phrase), Separated d.tokens
  | _, .chain first links => links.separated first.separated
  | _, .signed sign operand => Separated.nil.join sign.token_mark operand.separated
  | _, .unsigned power => power.separated
  | _, .bare base => base.separated
  | _, .raised base exponent => base.separated.join rfl exponent.separated
  | _, .number _ => Separated.single _
  | _, .symbol _ => Separated.single _
  | _, .call _ args =>
    (Separated.single _).join (rfl : Token.opening.isWord = false) (args.separated.join rfl .nil)
  | _, .parenthesized inner =>
    Separated.nil.join (rfl : Token.opening.isWord = false) (inner.separated.join rfl .nil)

theorem Links.separated {rank : Rank} {ts : List Token} (before : Separated ts) :
    ∀ links : Links rank, Separated (ts ++ links.tokens)
  | .done => by rwa [Links.tokens, List.append_nil]
  | .next op operand others => by
    have longer := others.separated (before.join op.token_mark operand.separated)
    rwa [List.append_assoc] at longer

theorem Arguments.separated : ∀ args : Arguments, Separated args.tokens
  | .none => .nil
  | .some first others => others.separated first.separated

theorem FurtherArguments.separated {ts : List Token} (before : Separated ts) :
    ∀ args : FurtherArguments, Separated (ts ++ args.tokens)
  | .done => by rwa [FurtherArguments.tokens, List.append_nil]
  | .next arg others => by
    have longer := others.separated (before.join (rfl : Token.comma.isWord = false) arg.separated)
    rwa [List.append_assoc] at longer

end

/-- The text is a way to write the derivation down. Literals and blanks are the writer's choice. -/
def Written (d : Derivation .expression) (text : String) : Prop :=
  Spelling d.tokens text.toList

/-- A text is parsed as the derivation that it is written from, unless that is nested too deep. -/
theorem parse_written {d : Derivation .expression} {text : String} (written : Written d text) :
    Expr.parse text = if d.nesting ≤ maxDepth then .ok d.tree else .error .tooDeep := by
  have tokens : tokenize text = .ok d.tokens := scan_spelling written d.separated 0
  unfold Expr.parse
  rw [tokens]
  exact parseTokens_tokens d

/-- Whatever is parsed was written from a derivation of its tree. -/
theorem written_of_parse {text : String} {e : Expr} (read : Expr.parse text = .ok e) :
    ∃ d : Derivation .expression, Written d text ∧ d.nesting ≤ maxDepth ∧ d.tree = e := by
  unfold Expr.parse at read
  split at read
  · cases read
  · rename_i ts scanned
    obtain ⟨d, rfl, shallow, tree⟩ := parseTokens_sound read
    exact ⟨d, spelling_of_scan scanned, shallow, tree⟩

/-- What has words for all its parts can be written. -/
theorem exists_written {d : Derivation .expression} (writable : d.tree.Writable) : ∃ text, Written d text := by
  obtain ⟨cs, spelling⟩ := exists_spelling (d.writable_iff.mp writable)
  exact ⟨String.ofList cs, by rwa [Written, String.toList_ofList]⟩

/-- No derivation of an expression has fewer words than its rendering, or less nesting. -/
theorem rendering_extent {e : Expr} (writable : e.Writable) {d : Derivation .expression} (tree : d.tree = e) :
    (e.rendering writable).extent ≤ d.extent := by
  subst tree
  exact d.wording_extent writable

/-- Printing and parsing undo each other. The rendering of a writable expression, which drops parentheses from every
other derivation of it, is read as the expression again unless it nests too deep. What is read from any text is
writable, and renders within the depth. -/
theorem parse_rendering :
    (∀ (e : Expr) (writable : e.Writable),
      (∃ text, Written (e.rendering writable) text) ∧
      (∀ text, Written (e.rendering writable) text →
        Expr.parse text = if (e.rendering writable).nesting ≤ maxDepth then .ok e else .error .tooDeep) ∧
      (∀ d : Derivation .expression, d.tokens = (e.rendering writable).tokens →
        d.nesting = (e.rendering writable).nesting) ∧
      ∀ d : Derivation .expression, d.tree = e → (e.rendering writable).tokens.Sublist d.tokens) ∧
    ∀ (text : String) (e : Expr), Expr.parse text = .ok e →
      ∃ writable : e.Writable, (e.rendering writable).nesting ≤ maxDepth ∧
        ∀ again, Written (e.rendering writable) again → Expr.parse again = Expr.parse text := by
  have parses (e : Expr) (writable : e.Writable) (text : String) (written : Written (e.rendering writable) text) :
      Expr.parse text = if (e.rendering writable).nesting ≤ maxDepth then .ok e else .error .tooDeep := by
    rw [parse_written written, e.tree_rendering]
  constructor
  · intro e writable
    have tree := e.tree_rendering writable
    exact ⟨exists_written (tree.symm ▸ writable), parses e writable, fun d => Derivation.nesting_unique,
      fun d same => (rendering_extent writable same).1⟩
  · intro text e read
    obtain ⟨d, written, shallow, rfl⟩ := written_of_parse read
    have writable : d.tree.Writable := d.writable_iff.mpr written.writable
    have within : (d.tree.rendering writable).nesting ≤ maxDepth :=
      Nat.le_trans (rendering_extent writable rfl).2 shallow
    refine ⟨writable, within, fun again rewritten => ?_⟩
    rw [parses d.tree writable again rewritten, if_pos within, read]

/-- The difference needs its parentheses, the signed exponent needs none. -/
def inverseSquare : Expr :=
  .binary (.binary (.symbol "a") "-" (.symbol "b")) "^" (.unary "-" (.constant (Decimal.toFloat ⟨2, 0⟩)))

theorem parse_rendering_inverseSquare :
    ∃ writable : inverseSquare.Writable,
      Written (inverseSquare.rendering writable) "(a - b)^-2" ∧
        Expr.parse "(a - b)^-2" = .ok inverseSquare ∧ (inverseSquare.rendering writable).nesting ≤ maxDepth := by
  have a : Spells (.identifier "a") ['a'] := .name (by decide +kernel) (List.forall_mem_nil _)
  have b : Spells (.identifier "b") ['b'] := .name (by decide +kernel) (List.forall_mem_nil _)
  have two : Spells (.number (Decimal.toFloat ⟨2, 0⟩)) ['2'] := .number (by decide) rfl
  have writable : inverseSquare.Writable :=
    ⟨rfl, ⟨rfl, a.writable, b.writable⟩, rfl, two.writable⟩
  have power : Spelling [.closing, .caret, .minus, .number (Decimal.toFloat ⟨2, 0⟩)] [')', '^', '-', '2'] :=
    .token (.mark rfl) (.token (.mark rfl) (.token (.mark rfl) (.token two .done)))
  have written : Written (inverseSquare.rendering writable) "(a - b)^-2" := by
    change Spelling (.opening :: .identifier "a" :: .minus :: .identifier "b" :: _)
      ('(' :: 'a' :: ' ' :: '-' :: ' ' :: 'b' :: _)
    exact .token (.mark rfl) (.token a (.blank rfl (.token (.mark rfl) (.blank rfl (.token b power)))))
  have read : Expr.parse "(a - b)^-2" = .ok inverseSquare := by
    rw [(parse_rendering.1 inverseSquare writable).2.1 _ written]
    exact if_pos (Nat.le_of_ble_eq_true rfl)
  obtain ⟨_, shallow, _⟩ := parse_rendering.2 _ _ read
  exact ⟨writable, written, read, shallow⟩

end EulerFlow.Grammar
